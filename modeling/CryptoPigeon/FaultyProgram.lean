import Mathlib

/-! # Programs whose every operation may throw or be cut by a crash

A program maps a state to what it leaves behind when it returns, throws or the process
dies. Cleanup blocks and handlers run after a throw, never after a crash. A triple
states all three outcomes, so one derivation covers every fault at every point. -/
namespace FaultyProgram

/-- What happens at one operation. `done` counts the effects that took place first:
for an atomic one, whether it happened; for a gradual one, how far it got. -/
inductive Fault where
  | none
  | throws (done : Nat)
  | crashes (done : Nat)
  deriving DecidableEq, Repr

inductive Outcome (σ α : Type) where
  | returned (a : α) (s : σ)
  | threw (s : σ)
  | crashed (s : σ)
  deriving DecidableEq, Repr

variable {σ α β : Type}

def Fault.Throws : Fault → Prop
  | .throws _ => True
  | _ => False

instance (f : Fault) : Decidable f.Throws :=
  match f with
  | .throws _ => isTrue trivial
  | .none => isFalse id
  | .crashes _ => isFalse id

/-- The operation stops after part of its effects. -/
def Fault.CutsShort : Fault → Prop
  | .none => False
  | .throws n => 0 < n
  | .crashes n => 0 < n

instance (f : Fault) : Decidable f.CutsShort :=
  match f with
  | .none => isFalse id
  | .throws n => inferInstanceAs (Decidable (0 < n))
  | .crashes n => inferInstanceAs (Decidable (0 < n))

def Fault.Crashes : Fault → Prop
  | .crashes _ => True
  | _ => False

instance (f : Fault) : Decidable f.Crashes :=
  match f with
  | .none => isFalse id
  | .throws _ => isFalse id
  | .crashes _ => isTrue trivial

/-- A local operation without parts was carried out. -/
def Fault.TookPlace : Fault → Prop
  | .none => True
  | .throws _ => False
  | .crashes n => 0 < n

instance (f : Fault) : Decidable f.TookPlace :=
  match f with
  | .none => isTrue trivial
  | .throws _ => isFalse id
  | .crashes n => inferInstanceAs (Decidable (0 < n))

/-- A request was carried out, whether or not its answer was seen. -/
def Fault.Applied : Fault → Prop
  | .none => True
  | .throws n => 0 < n
  | .crashes n => 0 < n

instance (f : Fault) : Decidable f.Applied :=
  match f with
  | .none => isTrue trivial
  | .throws n => inferInstanceAs (Decidable (0 < n))
  | .crashes n => inferInstanceAs (Decidable (0 < n))

@[simp] theorem Fault.none_tookPlace : Fault.none.TookPlace := trivial

@[simp] theorem Fault.none_applied : Fault.none.Applied := trivial

@[simp] theorem Fault.not_none_throws : ¬Fault.none.Throws := id

@[simp] theorem Fault.not_none_crashes : ¬Fault.none.Crashes := id

theorem Fault.Throws.ne_none {f : Fault} (h : f.Throws) : f ≠ .none := by
  rintro rfl
  exact h

theorem Fault.Crashes.ne_none {f : Fault} (h : f.Crashes) : f ≠ .none := by
  rintro rfl
  exact h

theorem Fault.Throws.not_crashes {f : Fault} (h : f.Throws) : ¬f.Crashes := by
  cases f with
  | throws n => exact id
  | none => exact h.elim
  | crashes n => exact h.elim

theorem Fault.Crashes.not_throws {f : Fault} (h : f.Crashes) : ¬f.Throws :=
  fun ht => ht.not_crashes h

theorem Fault.Throws.not_tookPlace {f : Fault} (h : f.Throws) : ¬f.TookPlace := by
  cases f with
  | throws n => exact id
  | none => exact h.elim
  | crashes n => exact h.elim

/-- The state left on disk, whatever the outcome. -/
def Outcome.state : Outcome σ α → σ
  | .returned _ s => s
  | .threw s => s
  | .crashed s => s

def Outcome.Returned : Outcome σ α → Prop
  | .returned _ _ => True
  | _ => False

instance (o : Outcome σ α) : Decidable o.Returned :=
  match o with
  | .returned _ _ => isTrue trivial
  | .threw _ => isFalse id
  | .crashed _ => isFalse id

/-- The process is still there. -/
def Outcome.Survives : Outcome σ α → Prop
  | .crashed _ => False
  | _ => True

instance (o : Outcome σ α) : Decidable o.Survives :=
  match o with
  | .returned _ _ => isTrue trivial
  | .threw _ => isTrue trivial
  | .crashed _ => isFalse id

def Outcome.Satisfies (Q : α → σ → Prop) (E C : σ → Prop) : Outcome σ α → Prop
  | .returned a s => Q a s
  | .threw s => E s
  | .crashed s => C s

abbrev Program (σ α : Type) := σ → Outcome σ α

def done (a : α) : Program σ α := fun s => .returned a s

def andThen (p : Program σ α) (q : α → Program σ β) : Program σ β := fun s =>
  match p s with
  | .returned a t => q a t
  | .threw t => .threw t
  | .crashed t => .crashed t

instance : Monad (Program σ) where
  pure := done
  bind := andThen

def read : Program σ σ := fun s => .returned s s

def throwing : Program σ α := fun s => .threw s

def update (f : σ → σ) : Program σ Unit := fun s => .returned () (f s)

/-- A local operation that happens whole or not at all; one that throws did not happen. -/
def atomically (f : σ → σ) : Fault → Program σ Unit
  | .none => fun s => .returned () (f s)
  | .throws _ => fun s => .threw s
  | .crashes 0 => fun s => .crashed s
  | .crashes (_ + 1) => fun s => .crashed (f s)

/-- A request to another party: it may be applied although the caller sees a failure. -/
def remotely (f : σ → σ) : Fault → Program σ Unit
  | .none => fun s => .returned () (f s)
  | .throws 0 => fun s => .threw s
  | .throws (_ + 1) => fun s => .threw (f s)
  | .crashes 0 => fun s => .crashed s
  | .crashes (_ + 1) => fun s => .crashed (f s)

/-- A compound operation that can stop after any number of its parts. -/
def gradually (part : Nat → σ → σ) (whole : σ → σ) : Fault → Program σ Unit
  | .none => fun s => .returned () (whole s)
  | .throws n => fun s => .threw (part n s)
  | .crashes n => fun s => .crashed (part n s)

/-- A step without effect on the modelled state that may still fail. -/
def attempt (f : Fault) : Program σ Unit := atomically id f

/-- `try p finally q`: `q` also runs after a throw, and its own failure replaces it. -/
def andFinally (p : Program σ α) (q : Program σ Unit) : Program σ α := fun s =>
  match p s with
  | .returned a t => andThen q (fun _ => done a) t
  | .threw t => andThen q (fun _ => throwing) t
  | .crashed t => .crashed t

/-- `try p catch h`. -/
def orElse (p h : Program σ α) : Program σ α := fun s =>
  match p s with
  | .returned a t => .returned a t
  | .threw t => h t
  | .crashed t => .crashed t

/-- A program on a part of the state. -/
def within {τ : Type} (get : σ → τ) (set : τ → σ → σ) (p : Program τ α) : Program σ α := fun s =>
  match p (get s) with
  | .returned a t => .returned a (set t s)
  | .threw t => .threw (set t s)
  | .crashed t => .crashed (set t s)

section Running

variable (f : σ → σ) (s : σ)

@[simp] theorem read_bind (q : σ → Program σ β) : (read >>= q) s = q s s := rfl

@[simp] theorem done_bind (a : α) (q : α → Program σ β) :
    ((done a : Program σ α) >>= q) s = q a s := rfl

@[simp] theorem update_bind (q : Unit → Program σ β) : (update f >>= q) s = q () (f s) := rfl

@[simp] theorem atomically_none : atomically f .none s = .returned () (f s) := rfl

@[simp] theorem attempt_none_bind (q : Unit → Program σ β) :
    (attempt .none >>= q) s = q () s := rfl

@[simp] theorem atomically_none_bind (q : Unit → Program σ β) :
    (atomically f .none >>= q) s = q () (f s) := rfl

@[simp] theorem remotely_none_bind (q : Unit → Program σ β) :
    (remotely f .none >>= q) s = q () (f s) := rfl

@[simp] theorem gradually_none_bind (part : Nat → σ → σ) (q : Unit → Program σ β) :
    (gradually part f .none >>= q) s = q () (f s) := rfl

@[simp] theorem throwing_bind (q : α → Program σ β) :
    ((throwing : Program σ α) >>= q) s = .threw s := rfl

theorem bind_bind (p : Program σ α) (q : α → Program σ β) {γ : Type} (r : β → Program σ γ) :
    ((p >>= q) >>= r) s = (p >>= fun a => q a >>= r) s := by
  change andThen (andThen p q) r s = andThen p (fun a => andThen (q a) r) s
  unfold andThen
  cases p s <;> rfl

@[simp] theorem returned_bind_update (p : Program σ Unit) :
    ((p >>= fun _ => update f) s).Returned ↔ (p s).Returned := by
  change (andThen p (fun _ => update f) s).Returned ↔ _
  unfold andThen
  cases p s <;> exact Iff.rfl

theorem andFinally_returned_iff {p q : Program σ Unit} (hq : ∀ t, (q t).Returned) :
    (andFinally p q s).Returned ↔ (p s).Returned := by
  unfold andFinally
  cases p s with
  | returned a t =>
    refine iff_of_true ?_ trivial
    have hret := hq t
    change (andThen q (fun _ => done a) t).Returned
    unfold andThen
    cases hr : q t with
    | returned b u => trivial
    | threw u => rwa [hr] at hret
    | crashed u => rwa [hr] at hret
  | threw t =>
    refine iff_of_false ?_ id
    change ¬(andThen q (fun _ => throwing) t).Returned
    unfold andThen
    cases q t <;> exact id
  | crashed t => exact Iff.rfl

end Running

/-- A sequence returns only if both parts do. -/
theorem bind_returned {p : Program σ α} {q : α → Program σ β} {s t : σ} {b : β}
    (h : (p >>= q) s = .returned b t) :
    ∃ a u, p s = .returned a u ∧ q a u = .returned b t := by
  change andThen p q s = _ at h
  unfold andThen at h
  cases hp : p s with
  | returned a u => rw [hp] at h; exact ⟨a, u, rfl, h⟩
  | threw u => rw [hp] at h; cases h
  | crashed u => rw [hp] at h; cases h

theorem atomically_returned {f : σ → σ} {fault : Fault} {s t : σ}
    (h : atomically f fault s = .returned () t) : fault = .none ∧ t = f s := by
  cases fault with
  | none => cases h; exact ⟨rfl, rfl⟩
  | throws n => cases h
  | crashes n => cases n <;> cases h

def Triple (P : σ → Prop) (p : Program σ α) (Q : α → σ → Prop) (E C : σ → Prop) : Prop :=
  ∀ s, P s → (p s).Satisfies Q E C

section Rules

variable {P P' : σ → Prop} {Q Q' : α → σ → Prop} {R : β → σ → Prop} {E E' C C' : σ → Prop}
variable {p : Program σ α}

theorem Outcome.Satisfies.mono {o : Outcome σ α} (h : o.Satisfies Q E C)
    (hq : ∀ a s, Q a s → Q' a s) (he : ∀ s, E s → E' s) (hc : ∀ s, C s → C' s) :
    o.Satisfies Q' E' C' := by
  cases o with
  | returned a s => exact hq a s h
  | threw s => exact he s h
  | crashed s => exact hc s h

/-- An invariant of every outcome holds of the state left behind. -/
theorem Triple.state_of {I : σ → Prop} (h : Triple P p (fun _ => I) I I) {s : σ}
    (hs : P s) : I (p s).state := by
  have hsat := h s hs
  cases hr : p s with
  | returned a t => rw [hr] at hsat; exact hsat
  | threw t => rw [hr] at hsat; exact hsat
  | crashed t => rw [hr] at hsat; exact hsat

theorem Triple.state_of_survives {I : σ → Prop} (h : Triple P p (fun _ => I) I C) {s : σ}
    (hs : P s) (hsurvives : (p s).Survives) : I (p s).state := by
  have hsat := h s hs
  cases hr : p s with
  | returned a t => rw [hr] at hsat; exact hsat
  | threw t => rw [hr] at hsat; exact hsat
  | crashed t => rw [hr] at hsurvives; exact hsurvives.elim

theorem Triple.exists_returned (h : Triple P p Q (fun _ => False) (fun _ => False)) {s : σ}
    (hs : P s) : ∃ a t, p s = .returned a t ∧ Q a t := by
  have hsat := h s hs
  cases hr : p s with
  | returned a t => rw [hr] at hsat; exact ⟨a, t, rfl, hsat⟩
  | threw t => rw [hr] at hsat; exact hsat.elim
  | crashed t => rw [hr] at hsat; exact hsat.elim

/-- A program returns if every other way out is closed. -/
theorem Triple.returns {p : Program σ Unit} (h : Triple P p (fun _ _ => True) (fun _ => False)
    (fun _ => False)) {s : σ} (hs : P s) : (p s).Returned := by
  have hsat := h s hs
  cases hr : p s with
  | returned a t => trivial
  | threw t => rw [hr] at hsat; exact hsat
  | crashed t => rw [hr] at hsat; exact hsat

theorem Triple.not_returns (h : Triple P p (fun _ _ => False) (fun _ => True) (fun _ => True))
    {s : σ} (hs : P s) : ¬(p s).Returned := by
  have hsat := h s hs
  cases hr : p s with
  | returned a t => rw [hr] at hsat; exact fun _ => hsat
  | threw t => exact id
  | crashed t => exact id

theorem Triple.consequence (h : Triple P p Q E C) (hp : ∀ s, P' s → P s)
    (hq : ∀ a s, Q a s → Q' a s) (he : ∀ s, E s → E' s) (hc : ∀ s, C s → C' s) :
    Triple P' p Q' E' C' :=
  fun s hs => (h s (hp s hs)).mono hq he hc

theorem Triple.weaken (h : Triple P p Q E C) (hq : ∀ a s, Q a s → Q' a s) :
    Triple P p Q' E C :=
  h.consequence (fun _ hs => hs) hq (fun _ hs => hs) (fun _ hs => hs)

theorem Triple.strengthen (h : Triple P p Q E C) (hp : ∀ s, P' s → P s) :
    Triple P' p Q E C :=
  h.consequence hp (fun _ _ hs => hs) (fun _ hs => hs) (fun _ hs => hs)

theorem Triple.done {a : α} (h : ∀ s, P s → Q a s) :
    Triple P (done a : Program σ α) Q E C :=
  fun s hs => h s hs

theorem Triple.bind {q : α → Program σ β} (hp : Triple P p Q E C)
    (hq : ∀ a, Triple (Q a) (q a) R E C) : Triple P (p >>= q) R E C := by
  intro s hs
  have h := hp s hs
  change (andThen p q s).Satisfies R E C
  unfold andThen
  cases hr : p s with
  | returned a t => rw [hr] at h; exact hq a t h
  | threw t => rw [hr] at h; exact h
  | crashed t => rw [hr] at h; exact h

/-- Reading the state lets the rest of the program be verified for each state read. -/
theorem Triple.read {q : σ → Program σ β}
    (h : ∀ r, P r → Triple (fun s => P s ∧ s = r) (q r) R E C) :
    Triple P (FaultyProgram.read >>= q) R E C :=
  fun s hs => h s hs s ⟨hs, rfl⟩

theorem Triple.assuming {b : Prop} (h : b → Triple P p Q E C) :
    Triple (fun s => b ∧ P s) p Q E C :=
  fun s hs => h hs.1 s hs.2

theorem Triple.ite {b : Prop} [Decidable b] {q : Program σ α} (hp : b → Triple P p Q E C)
    (hq : ¬b → Triple P q Q E C) : Triple P (if b then p else q) Q E C := by
  by_cases hb : b
  · rw [if_pos hb]; exact hp hb
  · rw [if_neg hb]; exact hq hb

theorem Triple.throwing (h : ∀ s, P s → E s) : Triple P (throwing : Program σ α) Q E C :=
  fun s hs => h s hs

theorem Triple.update {f : σ → σ} {Q : Unit → σ → Prop} (h : ∀ s, P s → Q () (f s)) :
    Triple P (update f) Q E C :=
  fun s hs => h s hs

/-- Each way an atomic operation can end, with what its fault then was. -/
theorem Triple.atomically_cases {f : σ → σ} {fault : Fault} {Q : Unit → σ → Prop}
    (hq : fault = .none → ∀ s, P s → Q () (f s)) (he : fault.Throws → ∀ s, P s → E s)
    (hc : fault.Crashes → ¬fault.TookPlace → ∀ s, P s → C s)
    (hd : fault.Crashes → fault.TookPlace → ∀ s, P s → C (f s)) :
    Triple P (FaultyProgram.atomically f fault) Q E C := by
  intro s hs
  cases fault with
  | none => exact hq rfl s hs
  | throws n => exact he trivial s hs
  | crashes n =>
    cases n with
    | zero => exact hc trivial (Nat.lt_irrefl 0) s hs
    | succ n => exact hd trivial (Nat.succ_pos n) s hs

/-- As `atomically_cases`, for a request: one that throws may have been carried out. -/
theorem Triple.remotely_cases {f : σ → σ} {fault : Fault} {Q : Unit → σ → Prop}
    (hq : fault = .none → ∀ s, P s → Q () (f s))
    (he : fault.Throws → ∀ s, P s → (¬fault.Applied → E s) ∧ (fault.Applied → E (f s)))
    (hc : fault.Crashes → ∀ s, P s → (¬fault.Applied → C s) ∧ (fault.Applied → C (f s))) :
    Triple P (FaultyProgram.remotely f fault) Q E C := by
  intro s hs
  cases fault with
  | none => exact hq rfl s hs
  | throws n =>
    cases n with
    | zero => exact (he trivial s hs).1 (Nat.lt_irrefl 0)
    | succ n => exact (he trivial s hs).2 (Nat.succ_pos n)
  | crashes n =>
    cases n with
    | zero => exact (hc trivial s hs).1 (Nat.lt_irrefl 0)
    | succ n => exact (hc trivial s hs).2 (Nat.succ_pos n)

theorem Triple.atomically {f : σ → σ} {fault : Fault} {Q : Unit → σ → Prop}
    (hq : fault = .none → ∀ s, P s → Q () (f s)) (he : fault.Throws → ∀ s, P s → E s)
    (hc : ∀ s, P s → C s ∧ C (f s)) : Triple P (FaultyProgram.atomically f fault) Q E C :=
  Triple.atomically_cases hq he (fun _ _ s hs => (hc s hs).1) (fun _ _ s hs => (hc s hs).2)

theorem Triple.attempt_cases {fault : Fault} {Q : Unit → σ → Prop}
    (hq : fault = .none → ∀ s, P s → Q () s) (he : fault.Throws → ∀ s, P s → E s)
    (hc : fault.Crashes → ∀ s, P s → C s) : Triple P (FaultyProgram.attempt fault) Q E C :=
  Triple.atomically_cases hq he (fun hf _ => hc hf) (fun hf _ => hc hf)

theorem Triple.attempt {fault : Fault} {Q : Unit → σ → Prop}
    (hq : fault = .none → ∀ s, P s → Q () s) (he : fault.Throws → ∀ s, P s → E s)
    (hc : ∀ s, P s → C s) : Triple P (attempt fault) Q E C :=
  Triple.atomically hq he (fun s hs => ⟨hc s hs, hc s hs⟩)

theorem Triple.gradually {part : Nat → σ → σ} {whole : σ → σ} {fault : Fault}
    {Q : Unit → σ → Prop} (hq : fault = .none → ∀ s, P s → Q () (whole s))
    (he : ∀ n, fault = .throws n → ∀ s, P s → E (part n s))
    (hc : ∀ n, fault = .crashes n → ∀ s, P s → C (part n s)) :
    Triple P (gradually part whole fault) Q E C := by
  intro s hs
  cases fault with
  | none => exact hq rfl s hs
  | throws n => exact he n rfl s hs
  | crashes n => exact hc n rfl s hs

/-- The cleanup is verified once for each way the body can end. -/
theorem Triple.andFinally {q : Program σ Unit} {I : σ → Prop} (hp : Triple P p Q I C)
    (hr : ∀ a, Triple (Q a) q (fun _ => Q' a) E C)
    (he : Triple I q (fun _ => E) E C) : Triple P (andFinally p q) Q' E C := by
  intro s hs
  have h := hp s hs
  unfold FaultyProgram.andFinally
  cases hres : p s with
  | returned a t =>
    rw [hres] at h
    exact Triple.bind (hr a) (fun _ => Triple.done (fun _ hs => hs)) t h
  | threw t =>
    rw [hres] at h
    exact Triple.bind he (fun _ => Triple.throwing (fun _ hs => hs)) t h
  | crashed t => rw [hres] at h; exact h

theorem Triple.within {τ : Type} {get : σ → τ} {set : τ → σ → σ} {p : Program τ α}
    (h : ∀ s, P s → Triple (fun t => t = get s) p (fun a t => Q a (set t s))
      (fun t => E (set t s)) (fun t => C (set t s))) :
    Triple P (FaultyProgram.within get set p) Q E C := by
  intro s hs
  have hsat := h s hs (get s) rfl
  unfold FaultyProgram.within
  cases hres : p (get s) with
  | returned a t => rwa [hres] at hsat
  | threw t => rwa [hres] at hsat
  | crashed t => rwa [hres] at hsat

theorem Triple.orElse {q : Program σ α} {I : σ → Prop} (hp : Triple P p Q I C)
    (hq : Triple I q Q E C) : Triple P (orElse p q) Q E C := by
  intro s hs
  have h := hp s hs
  unfold FaultyProgram.orElse
  cases hres : p s with
  | returned a t => rw [hres] at h; exact h
  | threw t => rw [hres] at h; exact hq t h
  | crashed t => rw [hres] at h; exact h

end Rules

end FaultyProgram
