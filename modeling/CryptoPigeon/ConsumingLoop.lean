import Mathlib.Data.List.Basic

/-! # Loops over a queue whose iterations may throw

`consume` runs one iteration per entry and keeps what each emits; an exception that leaves
an iteration ends the loop. `attempt` is the other shape: it also stops at the first entry
whose attempt fails. Both keep the state of the iterations already made. -/
namespace ConsumingLoop

/-- One iteration: on to the next entry, perhaps emitting, or an exception. -/
inductive Progress (σ β : Type) where
  | next (s : σ) (emitted : Option β)
  | escaped (s : σ)
  deriving DecidableEq, Repr

structure Result (σ β : Type) where
  state : σ
  emitted : List β
  escaped : Bool
  deriving DecidableEq, Repr

variable {σ α β : Type}

def Progress.state : Progress σ β → σ
  | .next s _ => s
  | .escaped s => s

def consume (step : σ → α → Progress σ β) (s : σ) : List α → Result σ β
  | [] => ⟨s, [], false⟩
  | a :: rest =>
    match step s a with
    | .escaped t => ⟨t, [], true⟩
    | .next t emitted =>
      let r := consume step t rest
      ⟨r.state, emitted.toList ++ r.emitted, r.escaped⟩

/-- The entries an iteration was begun for, the escaping one included. -/
def presented (step : σ → α → Progress σ β) (s : σ) : List α → List α
  | [] => []
  | a :: rest =>
    match step s a with
    | .escaped _ => [a]
    | .next t _ => a :: presented step t rest

section Consume

variable {step : σ → α → Progress σ β} {s t : σ} {a : α} {rest : List α}

@[simp] theorem consume_nil : consume step s [] = ⟨s, [], false⟩ := rfl

theorem consume_escaped (h : step s a = .escaped t) :
    consume step s (a :: rest) = ⟨t, [], true⟩ := by
  simp [consume, h]

theorem consume_next {emitted : Option β} (h : step s a = .next t emitted) :
    consume step s (a :: rest) =
      ⟨(consume step t rest).state, emitted.toList ++ (consume step t rest).emitted,
        (consume step t rest).escaped⟩ := by
  simp [consume, h]

/-- An iteration that changes and emits nothing is as good as none. -/
theorem consume_skip (h : step s a = .next s none) :
    consume step s (a :: rest) = consume step s rest := by
  rw [consume_next h]
  rfl

theorem consume_append {before : List α} (h : (consume step s before).escaped = false) :
    consume step s (before ++ rest) =
      ⟨(consume step (consume step s before).state rest).state,
        (consume step s before).emitted ++
          (consume step (consume step s before).state rest).emitted,
        (consume step (consume step s before).state rest).escaped⟩ := by
  induction before generalizing s with
  | nil => rfl
  | cons a before ih =>
    cases hs : step s a with
    | escaped t => rw [consume_escaped hs] at h; cases h
    | next t emitted =>
      rw [consume_next hs] at h
      rw [List.cons_append, consume_next hs, consume_next hs, ih h]
      simp

/-- Two passes that begin alike agree if and only if they go on alike. -/
theorem consume_append_congr {before l m : List α} (h : (consume step s before).escaped = false) :
    consume step s (before ++ l) = consume step s (before ++ m) ↔
      consume step (consume step s before).state l =
        consume step (consume step s before).state m := by
  rw [consume_append h, consume_append h]
  constructor
  · intro heq
    injection heq with hstate hemitted hescaped
    have hemitted := List.append_cancel_left hemitted
    cases hl : consume step (consume step s before).state l
    cases hm : consume step (consume step s before).state m
    simp_all
  · intro heq
    rw [heq]

/-- What every iteration preserves, whether it escapes or not, the loop preserves. -/
theorem consume_invariant {I : σ → Prop} (hstep : ∀ s a, I s → I (step s a).state)
    (hs : I s) (l : List α) : I (consume step s l).state := by
  induction l generalizing s with
  | nil => exact hs
  | cons a rest ih =>
    have h := hstep s a hs
    cases hp : step s a with
    | escaped t => rw [consume_escaped hp]; rw [hp] at h; exact h
    | next t emitted => rw [consume_next hp]; rw [hp] at h; exact ih h

/-- A property of an emission that later iterations keep holds of it at the end. -/
theorem consume_emitted {I : σ → Prop} {R : σ → β → Prop}
    (hstep : ∀ s a, I s → I (step s a).state)
    (hemit : ∀ s a t b, I s → step s a = .next t (some b) → R t b)
    (hkeep : ∀ s a b, R s b → R (step s a).state b) (hs : I s) (l : List α) :
    ∀ b ∈ (consume step s l).emitted, R (consume step s l).state b := by
  induction l generalizing s with
  | nil => intro b hb; cases hb
  | cons a rest ih =>
    have ht := hstep s a hs
    cases hp : step s a with
    | escaped t => rw [consume_escaped hp]; intro b hb; cases hb
    | next t emitted =>
      rw [hp] at ht
      rw [consume_next hp]
      intro b hb
      rcases List.mem_append.mp hb with hb | hb
      · obtain rfl : emitted = some b := by simpa using hb
        exact consume_invariant (I := fun s => R s b) (fun s a h => hkeep s a b h)
          (hemit s a t b hs hp) rest
      · exact ih ht b hb

/-- An iteration that can be left out before any list of entries changes nothing. -/
theorem consume_absent_iff :
    (∀ rest, consume step s (a :: rest) = consume step s rest) ↔ step s a = .next s none := by
  constructor
  · intro h
    have hnil := h []
    cases hs : step s a with
    | escaped t => rw [consume_escaped hs] at hnil; cases hnil
    | next t emitted =>
      rw [consume_next hs] at hnil
      cases emitted <;> cases hnil
      rfl
  · exact fun h _ => consume_skip h

/-- The loop begins the iteration of `a` in state `t`. -/
def Reaches (step : σ → α → Progress σ β) (s : σ) (l : List α) (t : σ) (a : α) : Prop :=
  ∃ before after, l = before ++ a :: after ∧ (consume step s before).escaped = false ∧
    (consume step s before).state = t

theorem reaches_head : Reaches step s (a :: rest) s a := ⟨[], rest, rfl, rfl, rfl⟩

theorem reaches_tail {emitted : Option β} {b : α} {u : σ} (h : step s a = .next t emitted)
    (hb : Reaches step t rest u b) : Reaches step s (a :: rest) u b := by
  obtain ⟨before, after, rfl, he, hs⟩ := hb
  refine ⟨a :: before, after, rfl, ?_, ?_⟩ <;> rw [consume_next h]
  · exact he
  · exact hs

theorem consume_completes {l : List α}
    (h : ∀ t a, Reaches step s l t a → ∀ u, step t a ≠ .escaped u) :
    (consume step s l).escaped = false := by
  induction l generalizing s with
  | nil => rfl
  | cons a rest ih =>
    cases hs : step s a with
    | escaped t => exact absurd hs (h s a reaches_head t)
    | next t emitted =>
      rw [consume_next hs]
      exact ih fun u b hb => h u b (reaches_tail hs hb)

theorem reaches_emitted {l : List α} {u : σ} {b : β} (h : Reaches step s l t a)
    (hs : step t a = .next u (some b)) : b ∈ (consume step s l).emitted := by
  obtain ⟨before, after, rfl, he, rfl⟩ := h
  rw [consume_append he, consume_next hs]
  simp

end Consume

/-- How an attempt ends: on to the next entry, out of the loop, or with an exception. -/
inductive Signal where
  | goOn
  | stop
  | escape
  deriving DecidableEq, Repr

structure Attempts (σ α : Type) where
  attempted : List α
  state : σ
  escaped : Bool
  deriving DecidableEq, Repr

def attempt (try_ : σ → α → σ × Signal) (s : σ) : List α → Attempts σ α
  | [] => ⟨[], s, false⟩
  | a :: rest =>
    match try_ s a with
    | (t, .goOn) =>
      let r := attempt try_ t rest
      ⟨a :: r.attempted, r.state, r.escaped⟩
    | (t, .stop) => ⟨[a], t, false⟩
    | (t, .escape) => ⟨[a], t, true⟩

section Attempt

variable {try_ : σ → α → σ × Signal} {signal : α → Signal} {s : σ} {a : α} {l : List α}

theorem attempt_invariant {I : σ → Prop} (hstep : ∀ s, ∀ a ∈ l, I s → I (try_ s a).1) (hs : I s) :
    I (attempt try_ s l).state := by
  induction l generalizing s with
  | nil => exact hs
  | cons a rest ih =>
    have h := hstep s a List.mem_cons_self hs
    unfold attempt
    split
    · next t ht =>
      rw [ht] at h
      exact ih (fun s b hb => hstep s b (List.mem_cons_of_mem a hb)) h
    · next t ht => rw [ht] at h; exact h
    · next t ht => rw [ht] at h; exact h

/-- Where the state does not decide how attempts end, an entry is attempted if and only
if everything before it goes on. -/
theorem attempted_iff (hsignal : ∀ s, ∀ a ∈ l, (try_ s a).2 = signal a) :
    a ∈ (attempt try_ s l).attempted ↔
      ∃ before after, l = before ++ a :: after ∧ ∀ b ∈ before, signal b = .goOn := by
  induction l generalizing s with
  | nil => simp [attempt]
  | cons c rest ih =>
    have hc := hsignal s c List.mem_cons_self
    have hrest : ∀ s, ∀ b ∈ rest, (try_ s b).2 = signal b :=
      fun s b hb => hsignal s b (List.mem_cons_of_mem c hb)
    have hhead : (∃ before after, c :: rest = before ++ a :: after ∧
        ∀ b ∈ before, signal b = .goOn) ↔ a = c ∨ signal c = .goOn ∧
          ∃ before after, rest = before ++ a :: after ∧ ∀ b ∈ before, signal b = .goOn := by
      constructor
      · rintro ⟨before, after, hl, hb⟩
        cases before with
        | nil => cases hl; exact .inl rfl
        | cons d before =>
          cases hl
          exact .inr ⟨hb c List.mem_cons_self, before, after, rfl,
            fun b h => hb b (List.mem_cons_of_mem c h)⟩
      · rintro (rfl | ⟨hgo, before, after, rfl, hb⟩)
        · exact ⟨[], rest, rfl, fun b h => by cases h⟩
        · refine ⟨c :: before, after, rfl, fun b h => ?_⟩
          rcases List.mem_cons.mp h with rfl | h
          · exact hgo
          · exact hb b h
    rw [hhead]
    unfold attempt
    split
    · next t ht =>
      rw [ht] at hc
      rw [List.mem_cons, ih hrest]
      simp [← hc]
    · next t ht => rw [ht] at hc; simp [← hc]
    · next t ht => rw [ht] at hc; simp [← hc]

theorem attempt_escaped_iff (hsignal : ∀ s, ∀ a ∈ l, (try_ s a).2 = signal a) :
    (attempt try_ s l).escaped = true ↔
      ∃ a ∈ (attempt try_ s l).attempted, signal a = .escape := by
  induction l generalizing s with
  | nil => simp [attempt]
  | cons c rest ih =>
    have hc := hsignal s c List.mem_cons_self
    have hrest : ∀ s, ∀ b ∈ rest, (try_ s b).2 = signal b :=
      fun s b hb => hsignal s b (List.mem_cons_of_mem c hb)
    unfold attempt
    split
    · next t ht =>
      rw [ht] at hc
      simpa [← hc] using ih (s := t) hrest
    · next t ht => rw [ht] at hc; simp [← hc]
    · next t ht => rw [ht] at hc; simp [← hc]

end Attempt

end ConsumingLoop
