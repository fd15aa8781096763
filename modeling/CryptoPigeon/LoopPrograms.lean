import Mathlib

/-! # Programs with loops over a state

A program returns a value or throws, and leaves a state either way. `repeatLoop` goes on while
its body says so; how often is bounded by a size of the state it starts in. `Holds` is about all
that a program may do, `Returns` about one run of it. -/
namespace LoopPrograms

variable {σ ε α β γ : Type}

/-- The body goes on with a value (`inl`) or ends the loop with one (`inr`). -/
def loop (stuck : ε) (body : β → EStateM ε σ (β ⊕ γ)) : Nat → β → EStateM ε σ γ
  | 0, _ => throw stuck
  | n + 1, b => do
    match ← body b with
    | .inl b' => loop stuck body n b'
    | .inr c => return c

/-- One more round than the size of the state, which a round that goes on makes smaller. -/
def repeatLoop (stuck : ε) (size : σ → Nat) (body : β → EStateM ε σ (β ⊕ γ)) (b : β) :
    EStateM ε σ γ :=
  fun s => loop stuck body (size s + 1) b s

/-! ## All runs -/

/-- The states before and after are related however the program ends, it does not get stuck, and
what it returns fits the states. -/
def Holds (stuck : ε) (step : σ → σ → Prop) (x : EStateM ε σ α) (q : α → σ → σ → Prop) : Prop :=
  ∀ s, match x s with
    | .ok a s' => step s s' ∧ q a s s'
    | .error e s' => step s s' ∧ e ≠ stuck

section Holds

variable {stuck : ε} {step : σ → σ → Prop} {x : EStateM ε σ α} {q q' : α → σ → σ → Prop}

theorem Holds.mono (hx : Holds stuck step x q) (h : ∀ a s s', q a s s' → q' a s s') :
    Holds stuck step x q' := by
  intro s
  have hs := hx s
  cases hrun : x s with
  | ok a s' =>
    rw [hrun] at hs
    exact ⟨hs.1, h a s s' hs.2⟩
  | error e s' =>
    rw [hrun] at hs
    exact hs

theorem Holds.pure (hrefl : ∀ s, step s s) {a : α} (h : ∀ s, q a s s) :
    Holds stuck step (Pure.pure a) q :=
  fun s => ⟨hrefl s, h s⟩

theorem Holds.throw (hrefl : ∀ s, step s s) {e : ε} (h : e ≠ stuck) :
    Holds stuck step (throw e : EStateM ε σ α) q :=
  fun s => ⟨hrefl s, h⟩

/-- One program after the other. -/
theorem Holds.bind (htrans : ∀ s t u, step s t → step t u → step s u)
    (hx : Holds stuck step x q) {f : α → EStateM ε σ β} {r : α → β → σ → σ → Prop}
    (hf : ∀ a, Holds stuck step (f a) (r a)) :
    Holds stuck step (x >>= f) fun b s s'' => ∃ a s', q a s s' ∧ r a b s' s'' := by
  intro s
  have hs := hx s
  show match EStateM.bind x f s with
    | .ok b s'' => step s s'' ∧ ∃ a s', q a s s' ∧ r a b s' s''
    | .error e s'' => step s s'' ∧ e ≠ stuck
  cases hrun : x s with
  | error e s' =>
    rw [hrun] at hs
    simp only [EStateM.bind, hrun]
    exact hs
  | ok a s' =>
    rw [hrun] at hs
    have hs' := hf a s'
    cases hrun' : f a s' with
    | ok b s'' =>
      rw [hrun'] at hs'
      simp only [EStateM.bind, hrun, hrun']
      exact ⟨htrans s s' s'' hs.1 hs'.1, a, s', hs.2, hs'.2⟩
    | error e s'' =>
      rw [hrun'] at hs'
      simp only [EStateM.bind, hrun, hrun']
      exact ⟨htrans s s' s'' hs.1 hs'.1, hs'.2⟩

/-- A round that goes on keeps the invariant, makes the state smaller and leaves a loop whose
result is one of the loop before it. -/
theorem Holds.repeatLoop (htrans : ∀ s t u, step s t → step t u → step s u)
    {size : σ → Nat} {body : β → EStateM ε σ (β ⊕ γ)} {inv : β → Prop}
    {r : β → γ → σ → σ → Prop}
    (hbody : ∀ b, inv b → Holds stuck step (body b) fun next s s' =>
      match next with
      | .inl b' => inv b' ∧ size s' < size s ∧ ∀ c s'', r b' c s' s'' → r b c s s''
      | .inr c => r b c s s')
    {b : β} (hb : inv b) :
    Holds stuck step (repeatLoop stuck size body b) (r b) := by
  have hloop : ∀ n b s, inv b → size s < n →
      match loop stuck body n b s with
      | .ok c s' => step s s' ∧ r b c s s'
      | .error e s' => step s s' ∧ e ≠ stuck := by
    intro n
    induction n with
    | zero => exact fun _ _ _ h => absurd h (Nat.not_lt_zero _)
    | succ n ih =>
      intro b s hb hn
      have hs := hbody b hb s
      show match EStateM.bind (body b) _ s with
        | .ok c s' => step s s' ∧ r b c s s'
        | .error e s' => step s s' ∧ e ≠ stuck
      cases hrun : body b s with
      | error e s' =>
        rw [hrun] at hs
        simp only [EStateM.bind, hrun]
        exact hs
      | ok next s' =>
        rw [hrun] at hs
        simp only [EStateM.bind, hrun]
        cases next with
        | inr c => exact hs
        | inl b' =>
          obtain ⟨hstep, hb', hsize, hr⟩ := hs
          have hrest := ih b' s' hb' (by omega)
          show match loop stuck body n b' s' with
            | .ok c s'' => step s s'' ∧ r b c s s''
            | .error e s'' => step s s'' ∧ e ≠ stuck
          cases hrun' : loop stuck body n b' s' with
          | ok c s'' =>
            rw [hrun'] at hrest
            exact ⟨htrans s s' s'' hstep hrest.1, hr c s'' hrest.2⟩
          | error e s'' =>
            rw [hrun'] at hrest
            exact ⟨htrans s s' s'' hstep hrest.1, hrest.2⟩
  exact fun s => hloop (size s + 1) b s hb (Nat.lt_succ_self _)

end Holds

/-! ## One run -/

/-- Any state that looks like `v` is left in one that looks like `v'`. -/
def Returns (looks : σ → α → Prop) (x : EStateM ε σ β) (v : α) (b : β) (v' : α) : Prop :=
  ∀ s, looks s v → ∃ s', x s = .ok b s' ∧ looks s' v'

section Returns

variable {looks : σ → α → Prop} {v v' v'' : α} {stuck : ε}

theorem Returns.pure {b : β} : Returns looks (Pure.pure b : EStateM ε σ β) v b v :=
  fun s h => ⟨s, rfl, h⟩

theorem Returns.bind {x : EStateM ε σ β} {f : β → EStateM ε σ γ} {b : β} {c : γ}
    (hx : Returns looks x v b v') (hf : Returns looks (f b) v' c v'') :
    Returns looks (x >>= f) v c v'' := by
  intro s hs
  obtain ⟨s', hrun, hs'⟩ := hx s hs
  obtain ⟨s'', hrun', hs''⟩ := hf s' hs'
  refine ⟨s'', ?_, hs''⟩
  show EStateM.bind x f s = _
  simp only [EStateM.bind, hrun, hrun']

/-- The runs of a loop: a last round, or a round in front of the others. -/
inductive Rounds (looks : σ → α → Prop) (body : β → EStateM ε σ (β ⊕ γ)) (count : α → Nat) :
    β → α → γ → α → Prop
  | last {b : β} {c : γ} {v v' : α} (h : Returns looks (body b) v (.inr c) v') :
      Rounds looks body count b v c v'
  | next {b b' : β} {c : γ} {v v' v'' : α} (h : Returns looks (body b) v (.inl b') v')
      (hcount : count v' < count v) (hrest : Rounds looks body count b' v' c v'') :
      Rounds looks body count b v c v''

theorem Returns.repeatLoop {size : σ → Nat} {body : β → EStateM ε σ (β ⊕ γ)} {count : α → Nat}
    (hsize : ∀ s v, looks s v → count v ≤ size s) {b : β} {c : γ}
    (h : Rounds looks body count b v c v') :
    Returns looks (repeatLoop stuck size body b) v c v' := by
  have hloop : ∀ n, count v < n → Returns looks (loop stuck body n b) v c v' := by
    clear hsize
    induction h with
    | last h =>
      rintro (_ | n) hn
      · exact absurd hn (Nat.not_lt_zero _)
      · intro s hs
        obtain ⟨s', hrun, hs'⟩ := h s hs
        refine ⟨s', ?_, hs'⟩
        show EStateM.bind _ _ s = _
        simp only [EStateM.bind, hrun]
        rfl
    | next h hcount _ ih =>
      rintro (_ | n) hn
      · exact absurd hn (Nat.not_lt_zero _)
      · intro s hs
        obtain ⟨s', hrun, hs'⟩ := h s hs
        obtain ⟨s'', hrun', hs''⟩ := ih n (by omega) s' hs'
        refine ⟨s'', ?_, hs''⟩
        show EStateM.bind _ _ s = _
        simp only [EStateM.bind, hrun]
        exact hrun'
  intro s hs
  exact hloop (size s + 1) (Nat.lt_succ_of_le (hsize s v hs)) s hs

end Returns

end LoopPrograms
