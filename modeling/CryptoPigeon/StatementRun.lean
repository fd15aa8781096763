import Mathlib.Data.List.Basic
import Mathlib.Tactic.TypeStar

/-! # Statements run one by one or in a transaction

A statement changes a database or throws and leaves it alone. `autocommit` keeps the
statements that were executed before one throws or the run is cut; `transaction` keeps
all of them or none. -/
namespace StatementRun

variable {σ : Type*}

abbrev Statement (σ : Type*) := σ → Option σ

structure Ran (σ : Type*) where
  state : σ
  thrown : Bool
  deriving DecidableEq, Repr

/-- At most `n` statements are executed: the next one after that throws. -/
def autocommit : Nat → List (Statement σ) → σ → Ran σ
  | _, [], s => ⟨s, false⟩
  | 0, _ :: _, s => ⟨s, true⟩
  | n + 1, x :: rest, s =>
    match x s with
    | none => ⟨s, true⟩
    | some t => autocommit n rest t

def transaction (n : Nat) (l : List (Statement σ)) (s : σ) : Ran σ :=
  if (autocommit n l s).thrown then ⟨s, true⟩ else autocommit n l s

variable {x : Statement σ} {l k rest : List (Statement σ)} {s t : σ} {n : Nat}

@[simp] theorem autocommit_nil : autocommit n [] s = ⟨s, false⟩ := by
  cases n <;> rfl

@[simp] theorem autocommit_zero : (autocommit 0 l s).state = s := by
  cases l <;> rfl

theorem autocommit_throws (h : x s = none) : autocommit n (x :: rest) s = ⟨s, true⟩ := by
  cases n with
  | zero => rfl
  | succ n => simp [autocommit, h]

theorem autocommit_cons (h : x s = some t) :
    autocommit (n + 1) (x :: rest) s = autocommit n rest t := by
  simp [autocommit, h]

/-- All statements were executed, one after the other. -/
inductive Executed : List (Statement σ) → σ → σ → Prop
  | nil (s : σ) : Executed [] s s
  | cons {x : Statement σ} {rest : List (Statement σ)} {s t u : σ} :
      x s = some t → Executed rest t u → Executed (x :: rest) s u

@[simp] theorem executed_nil : Executed [] s t ↔ s = t := by
  constructor
  · intro h; cases h; rfl
  · rintro rfl; exact .nil s

@[simp] theorem executed_cons :
    Executed (x :: rest) s t ↔ ∃ u, x s = some u ∧ Executed rest u t := by
  constructor
  · intro h
    cases h with
    | cons hx hrest => exact ⟨_, hx, hrest⟩
  · rintro ⟨u, hx, hrest⟩
    exact .cons hx hrest

theorem executed_append : Executed (l ++ k) s t ↔ ∃ u, Executed l s u ∧ Executed k u t := by
  induction l generalizing s with
  | nil => simp
  | cons x rest ih =>
    simp only [List.cons_append, executed_cons, ih]
    constructor
    · rintro ⟨u, hx, v, hrest, hk⟩; exact ⟨v, ⟨u, hx, hrest⟩, hk⟩
    · rintro ⟨v, ⟨u, hx, hrest⟩, hk⟩; exact ⟨u, hx, v, hrest, hk⟩

theorem autocommit_executed (h : (autocommit n l s).thrown = false) :
    Executed l s (autocommit n l s).state := by
  induction l generalizing n s with
  | nil => simp
  | cons x rest ih =>
    cases n with
    | zero => cases h
    | succ n =>
      cases hx : x s with
      | none => rw [autocommit_throws hx] at h; cases h
      | some t =>
        rw [autocommit_cons hx] at h ⊢
        exact .cons hx (ih h)

theorem autocommit_append (h : Executed l s t) :
    autocommit (l.length + n) (l ++ k) s = autocommit n k t := by
  induction h with
  | nil => simp
  | cons hx _ ih =>
    rw [List.length_cons, Nat.add_right_comm, List.cons_append, autocommit_cons hx]
    exact ih

/-- A run stops before its first statement or goes on after it. -/
theorem autocommit_cases : (autocommit n (x :: rest) s).state = s ∨
    ∃ t m, x s = some t ∧ (autocommit n (x :: rest) s).state = (autocommit m rest t).state := by
  cases n with
  | zero => exact .inl rfl
  | succ m =>
    cases hx : x s with
    | none => exact .inl (by rw [autocommit_throws hx])
    | some t => exact .inr ⟨t, m, rfl, by rw [autocommit_cons hx]⟩

/-- What every statement preserves holds wherever the run stops. -/
theorem autocommit_invariant {I : σ → Prop}
    (hstep : ∀ x ∈ l, ∀ s t, I s → x s = some t → I t) (hs : I s) :
    I (autocommit n l s).state := by
  induction l generalizing n s with
  | nil => simpa using hs
  | cons x rest ih =>
    cases n with
    | zero => exact hs
    | succ n =>
      cases hx : x s with
      | none => rw [autocommit_throws hx]; exact hs
      | some t =>
        rw [autocommit_cons hx]
        exact ih (fun y hy => hstep y (List.mem_cons_of_mem x hy))
          (hstep x List.mem_cons_self s t hs hx)

theorem transaction_thrown (h : (transaction n l s).thrown = true) :
    (transaction n l s).state = s := by
  unfold transaction at h ⊢
  split
  · rfl
  · next hn => rw [if_neg hn] at h; exact absurd h hn

theorem transaction_executed (h : (transaction n l s).thrown = false) :
    Executed l s (transaction n l s).state := by
  unfold transaction at h ⊢
  split at h
  · cases h
  · next hn => rw [if_neg hn]; exact autocommit_executed h

theorem transaction_invariant {I : σ → Prop}
    (hstep : ∀ x ∈ l, ∀ s t, I s → x s = some t → I t) (hs : I s) :
    I (transaction n l s).state := by
  unfold transaction
  split
  · exact hs
  · exact autocommit_invariant hstep hs

end StatementRun
