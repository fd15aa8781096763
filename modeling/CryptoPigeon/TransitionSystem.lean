import Mathlib.Logic.Basic
import Mathlib.Tactic.TypeStar

/-! # Labelled transition systems and their finite executions

Enabledness and effect are separate so that traces can be replayed. An invariant is
proved from the initial states and one step; `Within` keeps only the runs whose
every step is allowed, for results that hold under a condition on each step. -/
namespace TransitionSystem

structure System (σ ε : Type*) where
  Initial : σ → Prop
  Enabled : σ → ε → Prop
  next : σ → ε → σ

variable {σ ε : Type*}

def System.Step (M : System σ ε) (s : σ) (e : ε) (t : σ) : Prop :=
  M.Enabled s e ∧ t = M.next s e

inductive Execution (M : System σ ε) : σ → List ε → σ → Prop
  | refl (s : σ) : Execution M s [] s
  | tail {s t u : σ} {es : List ε} {e : ε} :
      Execution M s es t → M.Step t e u → Execution M s (es ++ [e]) u

def Reachable (M : System σ ε) (s : σ) : Prop :=
  ∃ s₀ es, M.Initial s₀ ∧ Execution M s₀ es s

/-- The same system with the steps outside `allowed` disabled. -/
def System.Within (M : System σ ε) (allowed : σ → ε → Prop) : System σ ε :=
  { M with Enabled := fun s e => M.Enabled s e ∧ allowed s e }

theorem execution_invariant {M : System σ ε} {I : σ → Prop} {s t : σ} {es : List ε}
    (hstep : ∀ s e, I s → M.Enabled s e → I (M.next s e))
    (h : Execution M s es t) (hs : I s) : I t := by
  induction h with
  | refl => exact hs
  | tail _ hu ih =>
    obtain ⟨he, rfl⟩ := hu
    exact hstep _ _ ih he

theorem reachable_invariant {M : System σ ε} {I : σ → Prop} {s : σ}
    (hinit : ∀ s, M.Initial s → I s)
    (hstep : ∀ s e, I s → M.Enabled s e → I (M.next s e))
    (h : Reachable M s) : I s := by
  obtain ⟨s₀, es, hi, hx⟩ := h
  exact execution_invariant hstep hx (hinit s₀ hi)

theorem reachable_initial {M : System σ ε} {s : σ} (h : M.Initial s) : Reachable M s :=
  ⟨s, [], h, .refl s⟩

theorem reachable_step {M : System σ ε} {s : σ} {e : ε}
    (h : Reachable M s) (he : M.Enabled s e) : Reachable M (M.next s e) := by
  obtain ⟨s₀, es, hi, hx⟩ := h
  exact ⟨s₀, es ++ [e], hi, .tail hx ⟨he, rfl⟩⟩

theorem within_reachable {M : System σ ε} {allowed : σ → ε → Prop} {s : σ}
    (h : Reachable (M.Within allowed) s) : Reachable M s := by
  refine reachable_invariant (fun s hi => ?_) (fun s e ih he => ?_) h
  · exact reachable_initial hi
  · exact reachable_step ih he.1

/-- Deterministic replay from a state. -/
def System.replay (M : System σ ε) (s : σ) : List ε → σ
  | [] => s
  | e :: es => M.replay (M.next s e) es

theorem replay_append {M : System σ ε} {s : σ} {es fs : List ε} :
    M.replay s (es ++ fs) = M.replay (M.replay s es) fs := by
  induction es generalizing s with
  | nil => rfl
  | cons e es ih => exact ih

/-- Every event of the trace is enabled where it is taken. -/
def System.Valid (M : System σ ε) (s : σ) : List ε → Prop
  | [] => True
  | e :: es => M.Enabled s e ∧ M.Valid (M.next s e) es

theorem Execution.head {M : System σ ε} {s t u : σ} {e : ε} {es : List ε} (hstep : M.Step s e t)
    (h : Execution M t es u) : Execution M s (e :: es) u := by
  induction h with
  | refl => exact .tail (.refl s) hstep
  | tail _ hu ih => exact .tail ih hu

theorem valid_execution {M : System σ ε} {s : σ} {es : List ε} (h : M.Valid s es) :
    Execution M s es (M.replay s es) := by
  induction es generalizing s with
  | nil => exact .refl s
  | cons e es ih => exact (ih h.2).head ⟨h.1, rfl⟩

theorem valid_trace_reachable {M : System σ ε} {s : σ} {es : List ε}
    (hs : Reachable M s) (h : M.Valid s es) : Reachable M (M.replay s es) := by
  induction es generalizing s with
  | nil => exact hs
  | cons e es ih => exact ih (reachable_step hs h.1) h.2

end TransitionSystem
