import CryptoPigeon.TransitionSystem
import Mathlib.Data.List.Range
import Mathlib.Logic.Function.Basic

/-! # The request lock

`requestTail` of the daemon's server is a chain of promises: whoever wants the vault leaves a
promise of its own there and waits for the one it found. Three pieces of code do so: a pair of
Fastify hooks around the handlers, the wrapper `serialized`, and the disappearing job. Promises and
tasks are numbered as they are made. A request that the first hook lets pass takes no place. -/
namespace RequestLock

open TransitionSystem

inductive Op where
  | work
  /-- `serialized` is called and awaited. -/
  | acquire
  /-- The function given to `serialized` ends. -/
  | release
  deriving DecidableEq, Repr

/-- The functions that call `serialized`, with what decides their way. -/
inductive Job where
  | retryTorQueues
  | start (saved : Bool)
  | receive
  /-- Accepted by the peer; what the relay answered where the mode has one. -/
  | deliver (accepted : Bool) (relayed : Option Bool)
  /-- For each chunk, whether the relay is asked too. -/
  | download (chunks : List Bool)
  deriving DecidableEq, Repr

def serialized : List Op := [.acquire, .work, .release]

def code : Job → List Op
  | .retryTorQueues => serialized
  | .start saved =>
    [.work] ++ serialized ++ [.work] ++ (if saved then [] else serialized) ++ [.work]
  | .receive => [.work] ++ serialized ++ [.work]
  | .deliver accepted relayed =>
    [.work] ++
      (if accepted || relayed.isNone then [] else serialized ++ [.work]) ++
      (if accepted || relayed == some true then serialized else [])
  | .download chunks =>
    chunks.flatMap fun relayed =>
      [.work] ++ (if relayed then serialized ++ [.work] else []) ++ [.work] ++ serialized

/-- Where a request stands: `dropped` is a response that was never sent and never failed. -/
inductive Stage where
  | running
  | replying
  | dropped
  deriving DecidableEq, Repr

inductive Kind where
  | job (program : List Op)
  | request (stage : Stage) (gone : Bool)
  /-- A run of the disappearing job: its promise in the chain, and how `pending` settled. -/
  | tick (own : Nat) (pending : Option Bool)
  deriving DecidableEq, Repr

/-- `waiting` is the promise a task awaits with the one it will settle, `held` those of the
critical sections it is inside. -/
structure Task where
  kind : Kind
  waiting : Option (Nat × Nat)
  held : List Nat
  deriving DecidableEq, Repr

/-- The order in which critical sections were entered is history. -/
structure State where
  tail : Nat
  made : Nat
  outcome : Nat → Option Bool
  releases : Nat → Option Nat
  tasks : Nat → Option Task
  count : Nat
  running : Bool
  entered : List Nat

/-- The chain begins with `Promise.resolve()`. -/
def initial : State where
  tail := 0
  made := 1
  outcome p := if p < 1 then some true else none
  releases _ := none
  tasks _ := none
  count := 0
  running := false
  entered := []

def put (s : State) (i : Nat) (t : Option Task) : State :=
  { s with tasks := Function.update s.tasks i t }

def settle (s : State) (promises : List Nat) : State :=
  { s with outcome := fun p => if p ∈ promises then some true else s.outcome p }

/-- `previous=requestTail; requestTail=new Promise(..); await previous`. -/
def queue (s : State) (i : Nat) (t : Task) : State :=
  { put s i (some { t with waiting := some (s.tail, s.made) }) with
    tail := s.made
    made := s.made + 1 }

def start (s : State) (job : Job) : State :=
  { put s s.count (some ⟨.job (code job), none, []⟩) with count := s.count + 1 }

/-- The first `preHandler` hook. -/
def arrive (s : State) : State :=
  { queue s s.count ⟨.request .running false, none, []⟩ with
    count := s.count + 1
    releases := Function.update s.releases s.count (some s.made) }

/-- The interval of the disappearing job: `requestTail.then(task)` and its `catch`. -/
def tick (s : State) : State :=
  if s.running then s
  else { queue s s.count ⟨.tick s.made none, none, []⟩ with count := s.count + 1, running := true }

def step (s : State) (i : Nat) (t : Task) : State :=
  match t.kind with
  | .job (.work :: rest) => put s i (some { t with kind := .job rest })
  | .job (.acquire :: rest) => queue s i { t with kind := .job rest }
  | _ => s

/-- `await previous` throws: before the `try` of `serialized`, in the hook, or past `task`. -/
def refused (t : Task) : Task :=
  match t.kind with
  | .job _ => { t with kind := .job [], waiting := none }
  | .request _ gone => { t with kind := .request .replying gone, waiting := none }
  | .tick own _ => { t with kind := .tick own (some false), waiting := none }

def enter (s : State) (i : Nat) (t : Task) (own : Nat) (ok : Bool) : State :=
  if ok then
    { put s i (some { t with waiting := none, held := own :: t.held }) with
      entered := s.entered ++ [own] }
  else put s i (some (refused t))

/-- `finally{release();}` of the innermost section. -/
def leave (s : State) (i : Nat) (t : Task) : State :=
  match t.kind with
  | .job (.release :: rest) =>
    settle (put s i (some { t with kind := .job rest, held := t.held.tail })) (t.held.take 1)
  | _ => s

/-- An error leaves every section on its way out. -/
def throws (s : State) (i : Nat) (t : Task) : State :=
  settle (put s i (some { t with kind := .job [], held := [] })) t.held

/-- Who answers a request: the second hook, the handler, the error handler, or the one for
unknown routes. -/
inductive Answer where
  | hook
  | handler
  | error
  | notFound
  deriving DecidableEq, Repr

inductive Response where
  | finished
  | errored
  | dropped
  deriving DecidableEq, Repr

def answer (s : State) (i : Nat) (t : Task) : State :=
  match t.kind with
  | .request _ gone => put s i (some { t with kind := .request .replying gone })
  | _ => s

def disconnect (s : State) (i : Nat) (t : Task) : State :=
  match t.kind with
  | .request stage _ => put s i (some { t with kind := .request stage true })
  | _ => s

/-- `onResponse` runs when the response has finished or errored. -/
def respond (s : State) (i : Nat) (t : Task) : Response → State
  | .finished | .errored =>
    { settle (put s i none) (s.releases i).toList with
      releases := Function.update s.releases i none }
  | .dropped => put s i (some { t with kind := .request .dropped true })

/-- The disappearing job's `task` returns or throws. -/
def ends (s : State) (i : Nat) (t : Task) (ok : Bool) : State :=
  match t.kind with
  | .tick own _ => put s i (some { t with kind := .tick own (some ok) })
  | _ => s

/-- `pending.catch(()=>{})` and the job's own `finally`. -/
def caught (s : State) (i : Nat) (t : Task) : State :=
  match t.kind with
  | .tick own _ => { settle (put s i none) [own] with running := false }
  | _ => s

inductive Event where
  | start (job : Job)
  | arrive
  | tick
  | step (task : Nat)
  | enter (task : Nat)
  | leave (task : Nat)
  | throws (task : Nat)
  | answer (request : Nat) (how : Answer)
  | disconnect (request : Nat)
  | respond (request : Nat) (response : Response)
  | ends (task : Nat) (ok : Bool)
  | caught (task : Nat)
  deriving DecidableEq, Repr

def Task.canStep (t : Task) : Bool :=
  match t.kind with
  | .job (.work :: _) | .job (.acquire :: _) => t.waiting.isNone
  | _ => false

def Task.canEnter (t : Task) (s : State) : Bool := t.waiting.any fun w => (s.outcome w.1).isSome

def Task.canLeave (t : Task) : Bool :=
  match t.kind with
  | .job (.release :: _) => t.waiting.isNone
  | _ => false

def Task.canThrow (t : Task) : Bool :=
  match t.kind with
  | .job _ => t.waiting.isNone
  | _ => false

def Task.canAnswer (t : Task) : Bool :=
  match t.kind with
  | .request .running _ => t.waiting.isNone
  | _ => false

def Task.isRequest (t : Task) : Bool :=
  match t.kind with
  | .request _ _ => true
  | _ => false

/-- Only a response to a client that is gone can be lost. -/
def Task.canRespond (t : Task) (response : Response) : Bool :=
  match t.kind with
  | .request .replying gone => response != .dropped || gone
  | _ => false

def Task.canEnd (t : Task) : Bool :=
  match t.kind with
  | .tick _ none => t.waiting.isNone
  | _ => false

def Task.canCatch (t : Task) : Bool :=
  match t.kind with
  | .tick _ (some _) => true
  | _ => false

def Enabled (s : State) : Event → Prop
  | .start _ | .arrive | .tick => True
  | .step i => (s.tasks i).any Task.canStep
  | .enter i => (s.tasks i).any fun t => t.canEnter s
  | .leave i => (s.tasks i).any Task.canLeave
  | .throws i => (s.tasks i).any Task.canThrow
  | .answer i _ => (s.tasks i).any Task.canAnswer
  | .disconnect i => (s.tasks i).any Task.isRequest
  | .respond i response => (s.tasks i).any fun t => t.canRespond response
  | .ends i _ => (s.tasks i).any Task.canEnd
  | .caught i => (s.tasks i).any Task.canCatch

instance (s : State) (e : Event) : Decidable (Enabled s e) := by
  cases e <;> unfold Enabled <;> infer_instance

/-- The event's task, where there is one. -/
def act (s : State) (i : Nat) (f : Task → State) : State := (s.tasks i).elim s f

def next (s : State) : Event → State
  | .start job => start s job
  | .arrive => arrive s
  | .tick => tick s
  | .step i => act s i (step s i)
  | .enter i => act s i fun t =>
      match t.waiting with
      | none => s
      | some (previous, own) => (s.outcome previous).elim s (enter s i t own)
  | .leave i => act s i (leave s i)
  | .throws i => act s i (throws s i)
  | .answer i _ => act s i (answer s i)
  | .disconnect i => act s i (disconnect s i)
  | .respond i response => act s i fun t => respond s i t response
  | .ends i ok => act s i fun t => ends s i t ok
  | .caught i => act s i (caught s i)

def system : System State Event where
  Initial s := s = initial
  Enabled := Enabled
  next := next

/-- The promise of the chain that a task answers for. -/
def Task.place (t : Task) : Option Nat :=
  match t.waiting with
  | some (_, own) => some own
  | none => t.held.head?

/-- It still runs, or its response is still being written. -/
def Task.Active (t : Task) : Prop :=
  match t.kind with
  | .job program => .release ∈ program
  | .request stage _ => stage ≠ .dropped
  | .tick _ _ => True

/-- Exclusive, in the order of arrival, and never waiting for the lock inside the lock. -/
structure Orderly (s : State) : Prop where
  exclusive : ∀ i j t u p q, s.tasks i = some t → s.tasks j = some u →
    p ∈ t.held → q ∈ u.held → i = j ∧ p = q
  fair : s.entered = List.range' 1 s.entered.length
  unwaiting : ∀ i t, s.tasks i = some t → t.held ≠ [] → t.waiting = none

/-- No lock is orphaned: a section entered and not left has its task, and if the end of the chain
is open then someone is inside or can enter. -/
structure Kept (s : State) : Prop where
  owned : ∀ p ∈ s.entered, s.outcome p = none →
    ∃ i t, s.tasks i = some t ∧ p ∈ t.held ∧ t.Active
  moving : s.outcome s.tail = none → ∃ i t, s.tasks i = some t ∧
    (t.held ≠ [] ∧ t.Active ∨ ∃ w, t.waiting = some w ∧ s.outcome w.1 = some true)

/-- No response is lost: the client stays until it is sent, or it fails with an error. -/
def Reported (_ : State) (e : Event) : Prop := ∀ i, e ≠ .respond i .dropped

/-! ## Programs -/

/-- A program in which every section ends and none is inside another. -/
def flat : Bool → List Op → Bool
  | inside, [] => !inside
  | inside, .work :: rest => flat inside rest
  | inside, .acquire :: rest => !inside && flat true rest
  | inside, .release :: rest => inside && flat false rest

section Programs

variable {inside : Bool} {program rest : List Op}

theorem flat_append (h : flat inside program = true) :
    flat inside (program ++ rest) = flat false rest := by
  induction program generalizing inside with
  | nil =>
    cases inside with
    | false => rfl
    | true => cases h
  | cons op program ih =>
    cases op with
    | work => exact ih h
    | acquire =>
      simp only [flat, Bool.and_eq_true] at h
      simp only [List.cons_append, flat, h.1, Bool.true_and]
      exact ih h.2
    | release =>
      simp only [flat, Bool.and_eq_true] at h
      simp only [List.cons_append, flat, h.1, Bool.true_and]
      exact ih h.2

theorem release_mem (h : flat true program = true) : .release ∈ program := by
  induction program with
  | nil => cases h
  | cons op program ih =>
    cases op with
    | work => exact List.mem_cons_of_mem _ (ih h)
    | acquire => cases h
    | release => exact List.mem_cons_self

theorem flat_flatMap {α : Type*} {f : α → List Op} {l : List α}
    (h : ∀ a, flat false (f a) = true) : flat false (l.flatMap f) = true := by
  induction l with
  | nil => rfl
  | cons a l ih =>
    rw [List.flatMap_cons, flat_append (h a)]
    exact ih

/-- None of the functions that call `serialized` does so inside one. -/
theorem code_flat (job : Job) : flat false (code job) = true := by
  cases job with
  | retryTorQueues => rfl
  | start saved => cases saved <;> rfl
  | receive => rfl
  | deliver accepted relayed =>
    cases accepted
    · cases relayed with
      | none => rfl
      | some relayed => cases relayed <;> rfl
    · cases relayed <;> rfl
  | download chunks =>
    refine flat_flatMap fun relayed => ?_
    cases relayed <;> rfl

end Programs

/-! ## The invariant -/

/-- What a task's kind says about its place. -/
def Task.Consistent (t : Task) (release : Option Nat) : Prop :=
  match t.kind with
  | .job program => flat t.place.isSome program = true
  | .request .running _ => ∃ p, release = some p ∧ t.place = some p
  | .request .replying _ => t.waiting = none ∧ ∃ p, release = some p ∧ t.held = [p]
  | .request .dropped _ => t.waiting = none
  | .tick own pending => t.place = some own ∧ (pending.isSome → t.waiting = none)

/-- A task waits behind those who have entered, or is inside the one section that is open. -/
structure Placed (turn entered made : Nat) (release : Option Nat) (t : Task) : Prop where
  waiting : ∀ w, t.waiting = some w →
    w.2 = w.1 + 1 ∧ entered < w.2 ∧ w.2 < made ∧ t.held = []
  held : t.held = [] ∨ t.held = [turn] ∧ entered = turn
  consistent : t.Consistent release

/-- The promises before `turn` are fulfilled, the others open; `turn` is awaited or has been
entered. -/
structure Sound (turn : Nat) (s : State) : Prop where
  chain : s.made = s.tail + 1
  range : 0 < turn ∧ turn ≤ s.made
  outcome : ∀ p, s.outcome p = if p < turn then some true else none
  fair : s.entered = List.range' 1 s.entered.length
  entered : s.entered.length + 1 = turn ∨ s.entered.length = turn ∧ turn < s.made
  fresh : ∀ i, s.count ≤ i → s.tasks i = none
  placed : ∀ i t, s.tasks i = some t →
    Placed turn s.entered.length s.made (s.releases i) t
  apart : ∀ i j t u p, s.tasks i = some t → s.tasks j = some u → t.place = some p →
    u.place = some p → i = j

/-- Every open promise has a task that will settle it. -/
def Owned (turn : Nat) (s : State) : Prop :=
  ∀ p, turn ≤ p → p < s.made → ∃ i t, s.tasks i = some t ∧ t.place = some p ∧ t.Active

section Places

variable {turn entered made p : Nat} {release : Option Nat} {t : Task}

theorem place_waiting {w : Nat × Nat} (h : t.waiting = some w) : t.place = some w.2 := by
  simp only [Task.place, h]

theorem place_held (h : t.waiting = none) : t.place = t.held.head? := by
  simp only [Task.place, h]

theorem Placed.unwaiting (h : Placed turn entered made release t) (hh : t.held ≠ []) :
    t.waiting = none := by
  cases hw : t.waiting with
  | none => rfl
  | some w => exact absurd (h.waiting w hw).2.2.2 hh

theorem Placed.of_mem (h : Placed turn entered made release t) (hp : p ∈ t.held) :
    t.held = [turn] ∧ entered = turn ∧ p = turn ∧ t.place = some turn := by
  obtain hh | ⟨hh, he⟩ := h.held
  · rw [hh] at hp
    cases hp
  · have hw : t.waiting = none := h.unwaiting (by simp [hh])
    refine ⟨hh, he, ?_, ?_⟩
    · simpa [hh] using hp
    · rw [place_held hw, hh]
      rfl

/-- A place is awaited or held. -/
theorem Placed.cases (h : Placed turn entered made release t) (hp : t.place = some p) :
    (t.waiting = some (p - 1, p) ∧ entered < p ∧ p < made ∧ t.held = []) ∨
    (t.waiting = none ∧ t.held = [turn] ∧ entered = turn ∧ p = turn) := by
  cases hw : t.waiting with
  | some w =>
    obtain ⟨hown, hentered, hmade, hheld⟩ := h.waiting w hw
    rw [place_waiting hw, Option.some.injEq] at hp
    subst hp
    have hprevious : w.1 = w.2 - 1 := by omega
    refine .inl ⟨?_, hentered, hmade, hheld⟩
    rw [← hprevious]
  | none =>
    obtain hh | ⟨hh, he⟩ := h.held
    · rw [place_held hw, hh] at hp
      cases hp
    · rw [place_held hw, hh] at hp
      exact .inr ⟨rfl, hh, he, (Option.some.inj hp).symm⟩

end Places

section Steps

variable {s s' : State} {turn turn' i : Nat} {t t' : Task} {o : Option Task}

theorem sound_initial : Sound 1 initial where
  chain := rfl
  range := ⟨Nat.one_pos, Nat.le_refl 1⟩
  outcome _ := rfl
  fair := rfl
  entered := .inl rfl
  fresh _ _ := rfl
  placed i t h := by cases h
  apart i j t u p h := by cases h

/-- A step changes one task and keeps the others in their places. -/
theorem Sound.update (h : Sound turn s) (htasks : s'.tasks = Function.update s.tasks i o)
    (hchain : s'.made = s'.tail + 1) (hrange : 0 < turn' ∧ turn' ≤ s'.made)
    (houtcome : ∀ p, s'.outcome p = if p < turn' then some true else none)
    (hfair : s'.entered = List.range' 1 s'.entered.length)
    (hentered : s'.entered.length + 1 = turn' ∨ s'.entered.length = turn' ∧ turn' < s'.made)
    (hcount : s.count ≤ s'.count) (hi : o.isSome → i < s'.count)
    (hnew : ∀ t, o = some t → Placed turn' s'.entered.length s'.made (s'.releases i) t)
    (hold : ∀ j t, j ≠ i → s.tasks j = some t →
      Placed turn' s'.entered.length s'.made (s'.releases j) t)
    (hapart : ∀ t p, o = some t → t.place = some p → ∀ j u, j ≠ i → s.tasks j = some u →
      u.place ≠ some p) : Sound turn' s' := by
  refine ⟨hchain, hrange, houtcome, hfair, hentered, ?_, ?_, ?_⟩
  · intro j hj
    rw [htasks]
    by_cases hji : j = i
    · subst hji
      rw [Function.update_self]
      cases o with
      | none => rfl
      | some t => exact absurd (hi rfl) (Nat.not_lt.mpr hj)
    · rw [Function.update_of_ne hji]
      exact h.fresh j (hcount.trans hj)
  · intro j t ht
    rw [htasks] at ht
    by_cases hji : j = i
    · subst hji
      rw [Function.update_self] at ht
      exact hnew t ht
    · rw [Function.update_of_ne hji] at ht
      exact hold j t hji ht
  · intro j k t u p ht hu htp hup
    rw [htasks] at ht hu
    by_cases hji : j = i
    · by_cases hki : k = i
      · rw [hji, hki]
      · rw [hji, Function.update_self] at ht
        rw [Function.update_of_ne hki] at hu
        exact absurd hup (hapart t p ht htp k u hki hu)
    · rw [Function.update_of_ne hji] at ht
      by_cases hki : k = i
      · rw [hki, Function.update_self] at hu
        exact absurd htp (hapart u p hu hup j t hji ht)
      · rw [Function.update_of_ne hki] at hu
        exact h.apart j k t u p ht hu htp hup

theorem lt_count (h : Sound turn s) (ht : s.tasks i = some t) : i < s.count := by
  by_contra hi
  rw [h.fresh i (Nat.not_lt.mp hi)] at ht
  cases ht

theorem place_congr (hw : t'.waiting = t.waiting) (hh : t'.held = t.held) :
    t'.place = t.place := by
  simp only [Task.place, hw, hh]

/-- A task that goes on without taking or leaving a place. -/
theorem sound_keep (h : Sound turn s) (ht : s.tasks i = some t) (hw : t'.waiting = t.waiting)
    (hh : t'.held = t.held) (hc : t'.Consistent (s.releases i)) :
    Sound turn (put s i (some t')) := by
  have hp := h.placed i t ht
  have hi : i < s.count := lt_count h ht
  refine h.update rfl h.chain h.range h.outcome h.fair h.entered (Nat.le_refl _) (fun _ => hi)
    ?_ (fun j u _ hu => h.placed j u hu) ?_
  · intro u hu
    cases hu
    refine ⟨?_, ?_, hc⟩
    · rw [hw, hh]
      exact hp.waiting
    · rw [hh]
      exact hp.held
  · intro u p hu hplace j v hji hv hvp
    cases hu
    rw [place_congr hw hh] at hplace
    exact hji (h.apart j i v t p hv ht hvp hplace)

/-- A task that takes the last place. -/
theorem sound_queue (h : Sound turn s)
    (htasks : s'.tasks =
      Function.update s.tasks i (some { t with waiting := some (s.tail, s.made) }))
    (htail : s'.tail = s.made) (hmade : s'.made = s.made + 1) (houtcome : s'.outcome = s.outcome)
    (hentered : s'.entered = s.entered) (hcount : s.count ≤ s'.count) (hi : i < s'.count)
    (hreleases : ∀ j, j ≠ i → s'.releases j = s.releases j) (hheld : t.held = [])
    (hc : Task.Consistent { t with waiting := some (s.tail, s.made) } (s'.releases i)) :
    Sound turn s' := by
  have hrange := h.range
  have hbound : s.entered.length < s.made := by
    obtain he | ⟨he, hlt⟩ := h.entered <;> omega
  refine h.update htasks (by rw [hmade, htail]) ?_ ?_ ?_ ?_ hcount (fun _ => hi) ?_ ?_ ?_
  · rw [hmade]
    omega
  · rw [houtcome]
    exact h.outcome
  · rw [hentered]
    exact h.fair
  · rw [hentered, hmade]
    exact h.entered.imp_right fun he => ⟨he.1, Nat.lt_succ_of_lt he.2⟩
  · intro u hu
    cases hu
    refine ⟨?_, .inl hheld, hc⟩
    intro w hw
    cases hw
    rw [hentered, hmade]
    exact ⟨h.chain, hbound, Nat.lt_succ_self _, hheld⟩
  · intro j u hji hu
    have hp := h.placed j u hu
    rw [hentered, hmade, hreleases j hji]
    refine ⟨fun w hw => ?_, hp.held, hp.consistent⟩
    obtain ⟨hown, hafter, hbefore, hno⟩ := hp.waiting w hw
    exact ⟨hown, hafter, Nat.lt_succ_of_lt hbefore, hno⟩
  · intro u p hu hplace j v _ hv hvp
    cases hu
    -- the new promise is nobody's place yet
    have hlast : p = s.made := (Option.some.inj hplace).symm
    obtain ⟨-, -, hlt, -⟩ | ⟨-, -, he, hturn⟩ := (h.placed j v hv).cases hvp
    · omega
    · omega

/-- A task whose turn has come enters. -/
theorem sound_enter (h : Sound turn s) (ht : s.tasks i = some t) {w : Nat × Nat}
    (hw : t.waiting = some w) (hprevious : (s.outcome w.1).isSome) :
    w.2 = turn ∧ s.outcome w.1 = some true ∧ Sound turn (enter s i t w.2 true) := by
  have hp := h.placed i t ht
  obtain ⟨hown, hafter, hbefore, hheld⟩ := hp.waiting w hw
  have hfulfilled : w.1 < turn := by
    by_contra hge
    rw [h.outcome, if_neg hge] at hprevious
    cases hprevious
  have hturn : w.2 = turn := by
    obtain he | ⟨he, -⟩ := h.entered <;> omega
  have hlength : s.entered.length + 1 = turn := by
    obtain he | ⟨he, -⟩ := h.entered <;> omega
  have hplace : t.place = some turn := by rw [place_waiting hw, hturn]
  have hi : i < s.count := lt_count h ht
  refine ⟨hturn, by rw [h.outcome, if_pos hfulfilled], ?_⟩
  have hlen : (enter s i t w.2 true).entered.length = turn := by
    simp [enter, hlength]
  refine h.update rfl h.chain h.range h.outcome ?_ (.inr ⟨hlen, hturn ▸ hbefore⟩)
    (Nat.le_refl _) (fun _ => hi) ?_ ?_ ?_
  · rw [hlen]
    change s.entered ++ [w.2] = _
    rw [h.fair, ← hlength, hturn, ← hlength, List.range'_concat]
    simp [Nat.add_comm]
  · intro u hu
    cases hu
    rw [hlen]
    refine ⟨fun w' hw' => (by cases hw'), .inr ⟨by rw [hheld, hturn], rfl⟩, ?_⟩
    have hc := hp.consistent
    have hnew : Task.place { t with waiting := none, held := w.2 :: t.held } = t.place := by
      rw [hplace, ← hturn]
      rfl
    revert hc hnew
    cases hk : t.kind with
    | job program =>
      intro hc hnew
      simp only [Task.Consistent, hk] at hc ⊢
      rw [hnew]
      exact hc
    | request stage gone =>
      intro hc hnew
      cases stage with
      | running =>
        simp only [Task.Consistent, hk] at hc ⊢
        rw [hnew]
        exact hc
      | replying =>
        simp only [Task.Consistent, hk, hw] at hc
        cases hc.1
      | dropped => simp only [Task.Consistent]
    | tick own pending =>
      intro hc hnew
      simp only [Task.Consistent, hk] at hc ⊢
      rw [hnew]
      exact ⟨hc.1, fun _ => trivial⟩
  · intro j u hji hu
    have hother := h.placed j u hu
    rw [hlen]
    refine ⟨fun w' hw' => ?_, ?_, hother.consistent⟩
    · obtain ⟨hown', hafter', hbefore', hno⟩ := hother.waiting w' hw'
      have hne : w'.2 ≠ turn := by
        intro heq
        exact hji (h.apart j i u t turn hu ht (by rw [place_waiting hw', heq]) hplace)
      exact ⟨hown', by omega, hbefore', hno⟩
    · obtain hno | ⟨-, he⟩ := hother.held
      · exact .inl hno
      · omega
  · intro u p hu hup j v hji hv hvp
    cases hu
    have hpt : p = turn := by
      rw [← hturn]
      exact (Option.some.inj hup).symm
    subst hpt
    exact hji (h.apart j i v t p hv ht hvp hplace)

/-- The task inside settles its promise: the turn passes on. -/
theorem sound_settle (h : Sound turn s) (ht : s.tasks i = some t) (hheld : turn ∈ t.held)
    (htasks : s'.tasks = Function.update s.tasks i o) (hrest : s'.tail = s.tail ∧
      s'.made = s.made ∧ s'.entered = s.entered ∧ s'.count = s.count)
    (houtcome : ∀ p, s'.outcome p = if p ∈ [turn] then some true else s.outcome p)
    (hreleases : ∀ j, j ≠ i → s'.releases j = s.releases j)
    (ho : ∀ u, o = some u → u.place = none ∧ u.held = [] ∧ u.Consistent (s'.releases i)) :
    Sound (turn + 1) s' := by
  obtain ⟨htail, hmade, hentered, hcount⟩ := hrest
  obtain ⟨-, hlength, -, hplace⟩ := (h.placed i t ht).of_mem hheld
  have hlt : turn < s.made := by
    obtain he | ⟨-, hlt⟩ := h.entered <;> omega
  have hi : i < s.count := lt_count h ht
  refine h.update htasks (by rw [hmade, htail]; exact h.chain) ⟨Nat.succ_pos _, hmade ▸ hlt⟩
    ?_ (by rw [hentered]; exact h.fair) (.inl (by rw [hentered, hlength]))
    (Nat.le_of_eq hcount.symm) (fun _ => hcount ▸ hi) ?_ ?_ ?_
  · intro p
    rw [houtcome, h.outcome]
    by_cases hp : p = turn
    · simp [hp]
    · have hiff : p < turn ↔ p < turn + 1 := by omega
      simp [hp, hiff]
  · intro u hu
    obtain ⟨hnone, hno, hc⟩ := ho u hu
    refine ⟨fun w hw => ?_, .inl hno, hc⟩
    rw [place_waiting hw] at hnone
    cases hnone
  · intro j u hji hu
    have hother := h.placed j u hu
    rw [hentered, hmade, hreleases j hji]
    refine ⟨hother.waiting, .inl ?_, hother.consistent⟩
    obtain hno | ⟨hin, -⟩ := hother.held
    · exact hno
    · have hmem : turn ∈ u.held := by simp [hin]
      exact absurd (h.apart j i u t turn hu ht (hother.of_mem hmem).2.2.2 hplace) hji
  · intro u p hu hup
    rw [(ho u hu).1] at hup
    cases hup

theorem sound_start (h : Sound turn s) (job : Job) : Sound turn (start s job) := by
  refine h.update rfl h.chain h.range h.outcome h.fair h.entered (Nat.le_succ _)
    (fun _ => Nat.lt_succ_self _) ?_ (fun j u _ hu => h.placed j u hu) ?_
  · intro u hu
    cases hu
    exact ⟨fun w hw => (by cases hw), .inl rfl, code_flat job⟩
  · intro u p hu hp
    cases hu
    cases hp

theorem sound_arrive (h : Sound turn s) : Sound turn (arrive s) := by
  refine sound_queue (i := s.count) h rfl rfl rfl rfl rfl (Nat.le_succ _) (Nat.lt_succ_self _)
    (fun j hj => Function.update_of_ne hj _ _) rfl ?_
  exact ⟨s.made, Function.update_self .., rfl⟩

theorem sound_tick (h : Sound turn s) : Sound turn (tick s) := by
  unfold tick
  by_cases hr : s.running = true
  · rw [if_pos hr]
    exact h
  · rw [if_neg hr]
    exact sound_queue (i := s.count) h rfl rfl rfl rfl rfl (Nat.le_succ _) (Nat.lt_succ_self _)
      (fun _ _ => rfl) rfl ⟨rfl, fun hp => by cases hp⟩

theorem sound_step (h : Sound turn s) (ht : s.tasks i = some t) (he : t.canStep = true) :
    Sound turn (step s i t) := by
  have hc := (h.placed i t ht).consistent
  unfold step
  split
  next rest hk =>
    simp only [Task.Consistent, hk] at hc
    exact sound_keep h ht rfl rfl hc
  next rest hk =>
    simp only [Task.canStep, hk, Option.isNone_iff_eq_none] at he
    simp only [Task.Consistent, hk] at hc
    -- a flat program calls `serialized` outside its sections only
    have hplace : t.place = none := by
      cases hp : t.place with
      | none => rfl
      | some p =>
        rw [hp] at hc
        cases hc
    have hheld : t.held = [] := by
      rw [place_held he] at hplace
      exact List.head?_eq_none_iff.mp hplace
    rw [hplace] at hc
    have hi : i < s.count := lt_count h ht
    refine sound_queue h rfl rfl rfl rfl rfl (Nat.le_refl _) hi (fun _ _ => rfl) hheld ?_
    exact hc
  next => exact h

/-- A job that ends a section is inside it. -/
theorem leaving (h : Sound turn s) (ht : s.tasks i = some t) (he : t.canLeave = true) :
    ∃ rest, t.kind = .job (.release :: rest) ∧ t.place = some turn := by
  have hp := h.placed i t ht
  have hc := hp.consistent
  unfold Task.canLeave at he
  split at he
  next rest hk =>
    simp only [Task.Consistent, hk, flat, Bool.and_eq_true] at hc
    obtain ⟨p, hplace⟩ := Option.isSome_iff_exists.mp hc.1
    obtain ⟨hw, -⟩ | ⟨-, -, -, hturn⟩ := hp.cases hplace
    · rw [hw] at he
      cases he
    · exact ⟨rest, hk, hturn ▸ hplace⟩
  next => cases he

theorem sound_leave (h : Sound turn s) (ht : s.tasks i = some t) (he : t.canLeave = true) :
    Sound (turn + 1) (leave s i t) := by
  have hp := h.placed i t ht
  have hc := hp.consistent
  obtain ⟨rest, hk, hplace⟩ := leaving h ht he
  simp only [Task.canLeave, hk, Option.isNone_iff_eq_none] at he
  simp only [Task.Consistent, hk, flat, Bool.and_eq_true] at hc
  obtain ⟨hw, -⟩ | ⟨-, hheld, -, -⟩ := hp.cases hplace
  · rw [he] at hw
    cases hw
  · have hmem : turn ∈ t.held := by simp [hheld]
    simp only [leave, hk]
    refine sound_settle h ht hmem rfl ⟨rfl, rfl, rfl, rfl⟩ (fun q => ?_) (fun _ _ => rfl) ?_
    · simp [settle, put, hheld]
    · intro u hu
      cases hu
      have hnone : Task.place ⟨.job rest, t.waiting, t.held.tail⟩ = none := by
        simp [Task.place, he, hheld]
      refine ⟨hnone, by simp [hheld], ?_⟩
      simp only [Task.Consistent, hnone]
      exact hc.2

theorem thrown_place (he : t.canThrow = true) : t.place = t.held.head? := by
  unfold Task.canThrow at he
  split at he
  · exact place_held (Option.isNone_iff_eq_none.mp he)
  · cases he

theorem sound_throws (h : Sound turn s) (ht : s.tasks i = some t) (he : t.canThrow = true) :
    (t.held = [] ∧ Sound turn (throws s i t)) ∨
    (turn ∈ t.held ∧ Sound (turn + 1) (throws s i t)) := by
  have hp := h.placed i t ht
  have hw : t.waiting = none := by
    unfold Task.canThrow at he
    split at he
    · exact Option.isNone_iff_eq_none.mp he
    · cases he
  obtain hheld | ⟨hheld, -⟩ := hp.held
  · refine .inl ⟨hheld, ?_⟩
    have hnone : Task.place ⟨.job [], t.waiting, []⟩ = none := place_held hw
    have hkeep : Sound turn (put s i (some ⟨.job [], t.waiting, []⟩)) := by
      refine sound_keep h ht rfl hheld.symm ?_
      simp only [Task.Consistent, hnone]
      rfl
    have hsame : throws s i t = put s i (some ⟨.job [], t.waiting, []⟩) := by
      simp [throws, settle, hheld, put]
    rw [hsame]
    exact hkeep
  · have hmem : turn ∈ t.held := by simp [hheld]
    refine .inr ⟨hmem, sound_settle h ht hmem rfl ⟨rfl, rfl, rfl, rfl⟩ (fun q => ?_)
      (fun _ _ => rfl) ?_⟩
    · simp [throws, settle, put, hheld]
    · intro u hu
      cases hu
      have hnone : Task.place ⟨.job [], t.waiting, []⟩ = none := place_held hw
      refine ⟨hnone, rfl, ?_⟩
      simp only [Task.Consistent, hnone]
      rfl

theorem sound_answer (h : Sound turn s) (ht : s.tasks i = some t) (he : t.canAnswer = true) :
    Sound turn (answer s i t) := by
  have hp := h.placed i t ht
  have hc := hp.consistent
  unfold Task.canAnswer at he
  split at he
  next gone hk =>
    have hw := Option.isNone_iff_eq_none.mp he
    simp only [Task.Consistent, hk] at hc
    obtain ⟨p, hrelease, hplace⟩ := hc
    obtain ⟨hwait, -⟩ | ⟨-, hheld, -, hturn⟩ := hp.cases hplace
    · rw [hw] at hwait
      cases hwait
    · simp only [answer, hk]
      exact sound_keep h ht rfl rfl ⟨hw, p, hrelease, by rw [hheld, hturn]⟩
  next => cases he

theorem sound_disconnect (h : Sound turn s) (ht : s.tasks i = some t) :
    Sound turn (disconnect s i t) := by
  have hc := (h.placed i t ht).consistent
  unfold disconnect
  split
  next stage gone hk =>
    refine sound_keep h ht rfl rfl ?_
    simp only [Task.Consistent, hk] at hc
    cases stage <;> exact hc
  next => exact h

theorem canRespond_replying {response : Response} (he : t.canRespond response = true) :
    ∃ gone, t.kind = .request .replying gone := by
  unfold Task.canRespond at he
  split at he
  next gone hk => exact ⟨gone, hk⟩
  next => cases he

/-- The response of a request that is inside. -/
theorem replying_held (h : Sound turn s) (ht : s.tasks i = some t) {gone : Bool}
    (hk : t.kind = .request .replying gone) :
    t.waiting = none ∧ s.releases i = some turn ∧ t.held = [turn] := by
  have hp := h.placed i t ht
  have hc := hp.consistent
  simp only [Task.Consistent, hk] at hc
  obtain ⟨hw, p, hrelease, hheld⟩ := hc
  obtain ⟨hone, -, rfl, -⟩ := hp.of_mem (p := p) (by simp [hheld])
  exact ⟨hw, hrelease, hone⟩

theorem sound_responded (h : Sound turn s) (ht : s.tasks i = some t) {response : Response}
    (he : t.canRespond response = true) (hr : response ≠ .dropped) :
    Sound (turn + 1) (respond s i t response) := by
  obtain ⟨gone, hk⟩ := canRespond_replying he
  obtain ⟨-, hrelease, hheld⟩ := replying_held h ht hk
  have hmem : turn ∈ t.held := by simp [hheld]
  have hnext : respond s i t response =
      { settle (put s i none) (s.releases i).toList with
        releases := Function.update s.releases i none } := by
    cases response with
    | finished => rfl
    | errored => rfl
    | dropped => exact absurd rfl hr
  rw [hnext]
  refine sound_settle h ht hmem rfl ⟨rfl, rfl, rfl, rfl⟩ (fun q => ?_)
    (fun j hj => Function.update_of_ne hj _ _) (fun u hu => by cases hu)
  simp [settle, put, hrelease]

theorem sound_dropped (h : Sound turn s) (ht : s.tasks i = some t)
    (he : t.canRespond .dropped = true) : Sound turn (respond s i t .dropped) := by
  obtain ⟨gone, hk⟩ := canRespond_replying he
  exact sound_keep h ht rfl rfl (replying_held h ht hk).1

theorem sound_ends (h : Sound turn s) (ht : s.tasks i = some t) (he : t.canEnd = true)
    (ok : Bool) : Sound turn (ends s i t ok) := by
  have hc := (h.placed i t ht).consistent
  unfold Task.canEnd at he
  split at he
  next own hk =>
    simp only [Task.Consistent, hk] at hc
    simp only [ends, hk]
    exact sound_keep h ht rfl rfl ⟨hc.1, fun _ => Option.isNone_iff_eq_none.mp he⟩
  next => cases he

theorem sound_caught (h : Sound turn s) (ht : s.tasks i = some t) (he : t.canCatch = true) :
    turn ∈ t.held ∧ Sound (turn + 1) (caught s i t) := by
  have hp := h.placed i t ht
  have hc := hp.consistent
  unfold Task.canCatch at he
  split at he
  next own ok hk =>
    simp only [Task.Consistent, hk] at hc
    obtain ⟨hwait, -⟩ | ⟨-, hheld, -, rfl⟩ := hp.cases hc.1
    · rw [hc.2 rfl] at hwait
      cases hwait
    · have hmem : own ∈ t.held := by simp [hheld]
      simp only [caught, hk]
      exact ⟨hmem, sound_settle h ht hmem rfl ⟨rfl, rfl, rfl, rfl⟩ (fun _ => rfl)
        (fun _ _ => rfl) (fun u hu => by cases hu)⟩
  next => cases he

theorem exists_of_any {α : Type*} {f : α → Bool} {o : Option α} (h : o.any f = true) :
    ∃ a, o = some a ∧ f a = true := by
  cases o with
  | none => cases h
  | some a => exact ⟨a, rfl, h⟩

theorem next_enter {w : Nat × Nat} {ok : Bool} (ht : s.tasks i = some t)
    (hw : t.waiting = some w) (ho : s.outcome w.1 = some ok) :
    next s (.enter i) = enter s i t w.2 ok := by
  simp only [next, act, ht, hw, ho, Option.elim_some]

theorem sound_next {e : Event} (h : Sound turn s) (he : Enabled s e) :
    ∃ turn', Sound turn' (next s e) := by
  cases e with
  | start job => exact ⟨turn, sound_start h job⟩
  | arrive => exact ⟨turn, sound_arrive h⟩
  | tick => exact ⟨turn, sound_tick h⟩
  | step i =>
    obtain ⟨t, ht, he⟩ := exists_of_any he
    simp only [next, act, ht, Option.elim_some]
    exact ⟨turn, sound_step h ht he⟩
  | enter i =>
    obtain ⟨t, ht, he⟩ := exists_of_any he
    obtain ⟨w, hw, hprevious⟩ := exists_of_any he
    obtain ⟨-, houtcome, hs⟩ := sound_enter h ht hw hprevious
    rw [next_enter ht hw houtcome]
    exact ⟨turn, hs⟩
  | leave i =>
    obtain ⟨t, ht, he⟩ := exists_of_any he
    simp only [next, act, ht, Option.elim_some]
    exact ⟨turn + 1, sound_leave h ht he⟩
  | throws i =>
    obtain ⟨t, ht, he⟩ := exists_of_any he
    simp only [next, act, ht, Option.elim_some]
    obtain ⟨-, hs⟩ | ⟨-, hs⟩ := sound_throws h ht he
    · exact ⟨turn, hs⟩
    · exact ⟨turn + 1, hs⟩
  | answer i how =>
    obtain ⟨t, ht, he⟩ := exists_of_any he
    simp only [next, act, ht, Option.elim_some]
    exact ⟨turn, sound_answer h ht he⟩
  | disconnect i =>
    obtain ⟨t, ht, -⟩ := exists_of_any he
    simp only [next, act, ht, Option.elim_some]
    exact ⟨turn, sound_disconnect h ht⟩
  | respond i response =>
    obtain ⟨t, ht, he⟩ := exists_of_any he
    simp only [next, act, ht, Option.elim_some]
    by_cases hr : response = .dropped
    · subst hr
      exact ⟨turn, sound_dropped h ht he⟩
    · exact ⟨turn + 1, sound_responded h ht he hr⟩
  | ends i ok =>
    obtain ⟨t, ht, he⟩ := exists_of_any he
    simp only [next, act, ht, Option.elim_some]
    exact ⟨turn, sound_ends h ht he ok⟩
  | caught i =>
    obtain ⟨t, ht, he⟩ := exists_of_any he
    simp only [next, act, ht, Option.elim_some]
    exact ⟨turn + 1, (sound_caught h ht he).2⟩

theorem reachable_sound (h : Reachable system s) : ∃ turn, Sound turn s := by
  refine reachable_invariant (I := fun s => ∃ turn, Sound turn s) ?_ (fun s e hs he => ?_) h
  · rintro s rfl
    exact ⟨1, sound_initial⟩
  · obtain ⟨turn, hs⟩ := hs
    exact sound_next hs he

theorem Sound.orderly (h : Sound turn s) : Orderly s := by
  refine ⟨?_, h.fair, ?_⟩
  · intro i j t u p q ht hu hp hq
    obtain ⟨-, -, rfl, hplace⟩ := (h.placed i t ht).of_mem hp
    obtain ⟨-, -, rfl, hplace'⟩ := (h.placed j u hu).of_mem hq
    exact ⟨h.apart i j t u q ht hu hplace hplace', rfl⟩
  · intro i t ht hheld
    exact (h.placed i t ht).unwaiting hheld

/-! ## Nothing is orphaned -/

theorem owned_initial : Owned 1 initial := by
  intro p hp hmade
  exact absurd hmade (Nat.not_lt.mpr hp)

theorem Owned.keep (ho : Owned turn s) (ht : s.tasks i = some t)
    (htasks : s'.tasks = Function.update s.tasks i (some t')) (hmade : s'.made = s.made)
    (hplace : t'.place = t.place) (hactive : t.Active → t'.Active) : Owned turn s' := by
  intro p hp hlt
  rw [hmade] at hlt
  obtain ⟨j, u, hu, hup, hua⟩ := ho p hp hlt
  by_cases hji : j = i
  · subst hji
    rw [ht, Option.some.injEq] at hu
    subst hu
    exact ⟨j, t', by rw [htasks, Function.update_self], hplace.trans hup, hactive hua⟩
  · exact ⟨j, u, by rw [htasks, Function.update_of_ne hji, hu], hup, hua⟩

theorem Owned.queue (ho : Owned turn s) (hfree : ∀ u, s.tasks i = some u → u.place = none)
    (htasks : s'.tasks =
      Function.update s.tasks i (some { t with waiting := some (s.tail, s.made) }))
    (hmade : s'.made = s.made + 1)
    (hactive : Task.Active { t with waiting := some (s.tail, s.made) }) : Owned turn s' := by
  intro p hp hlt
  by_cases hlast : p = s.made
  · exact ⟨i, _, by rw [htasks, Function.update_self], by rw [hlast]; rfl, hactive⟩
  · obtain ⟨j, u, hu, hup, hua⟩ := ho p hp (by omega)
    have hji : j ≠ i := by
      rintro rfl
      rw [hfree u hu] at hup
      cases hup
    exact ⟨j, u, by rw [htasks, Function.update_of_ne hji, hu], hup, hua⟩

theorem Owned.settle (ho : Owned turn s) (ht : s.tasks i = some t) (hplace : t.place = some turn)
    (htasks : s'.tasks = Function.update s.tasks i o) (hmade : s'.made = s.made) :
    Owned (turn + 1) s' := by
  intro p hp hlt
  obtain ⟨j, u, hu, hup, hua⟩ := ho p (by omega) (hmade ▸ hlt)
  have hji : j ≠ i := by
    rintro rfl
    rw [ht, Option.some.injEq] at hu
    subst hu
    rw [hplace, Option.some.injEq] at hup
    omega
  exact ⟨j, u, by rw [htasks, Function.update_of_ne hji, hu], hup, hua⟩

theorem owned_step (h : Sound turn s) (ho : Owned turn s) (ht : s.tasks i = some t) :
    Owned turn (step s i t) := by
  have hc := (h.placed i t ht).consistent
  unfold step
  split
  next rest hk =>
    refine ho.keep ht rfl rfl rfl fun hactive => ?_
    simpa only [Task.Active, hk, List.mem_cons, reduceCtorEq, false_or] using hactive
  next rest hk =>
    simp only [Task.Consistent, hk] at hc
    cases hp : t.place with
    | some p =>
      rw [hp] at hc
      cases hc
    | none =>
      rw [hp] at hc
      refine ho.queue (fun u hu => ?_) rfl rfl (release_mem hc)
      rw [ht, Option.some.injEq] at hu
      rw [← hu, hp]
  next => exact ho

theorem owned_next {e : Event} (h : Sound turn s) (ho : Owned turn s)
    (he : (system.Within Reported).Enabled s e) :
    ∃ turn', Sound turn' (next s e) ∧ Owned turn' (next s e) := by
  obtain ⟨he, hr⟩ := he
  have hfree (u : Task) (hu : s.tasks s.count = some u) : u.place = none := by
    rw [h.fresh s.count (Nat.le_refl _)] at hu
    cases hu
  cases e with
  | start job =>
    refine ⟨turn, sound_start h job, fun p hp hlt => ?_⟩
    obtain ⟨j, u, hu, hup, hua⟩ := ho p hp hlt
    exact ⟨j, u, (Function.update_of_ne (Nat.ne_of_lt (lt_count h hu)) _ _).trans hu, hup, hua⟩
  | arrive => exact ⟨turn, sound_arrive h, ho.queue hfree rfl rfl (by simp [Task.Active])⟩
  | tick =>
    refine ⟨turn, sound_tick h, ?_⟩
    change Owned turn (tick s)
    unfold tick
    by_cases hrun : s.running = true
    · rw [if_pos hrun]
      exact ho
    · rw [if_neg hrun]
      exact ho.queue hfree rfl rfl trivial
  | step i =>
    obtain ⟨t, ht, he⟩ := exists_of_any he
    simp only [next, act, ht, Option.elim_some]
    exact ⟨turn, sound_step h ht he, owned_step h ho ht⟩
  | enter i =>
    obtain ⟨t, ht, he⟩ := exists_of_any he
    obtain ⟨w, hw, hprevious⟩ := exists_of_any he
    obtain ⟨-, houtcome, hs⟩ := sound_enter h ht hw hprevious
    rw [next_enter ht hw houtcome]
    exact ⟨turn, hs, ho.keep ht rfl rfl (place_waiting hw).symm id⟩
  | leave i =>
    obtain ⟨t, ht, he⟩ := exists_of_any he
    simp only [next, act, ht, Option.elim_some]
    obtain ⟨rest, hk, hplace⟩ := leaving h ht he
    refine ⟨turn + 1, sound_leave h ht he, ?_⟩
    simp only [leave, hk]
    exact ho.settle ht hplace rfl rfl
  | throws i =>
    obtain ⟨t, ht, hthrow⟩ := exists_of_any he
    simp only [next, act, ht, Option.elim_some]
    obtain ⟨hheld, hs⟩ | ⟨hmem, hs⟩ := sound_throws h ht hthrow
    · refine ⟨turn, hs, fun p hp hlt => ?_⟩
      obtain ⟨j, u, hu, hup, hua⟩ := ho p hp hlt
      have hji : j ≠ i := by
        rintro rfl
        rw [ht, Option.some.injEq] at hu
        subst hu
        rw [thrown_place hthrow, hheld] at hup
        cases hup
      exact ⟨j, u, (Function.update_of_ne hji _ _).trans hu, hup, hua⟩
    · exact ⟨turn + 1, hs, ho.settle ht ((h.placed i t ht).of_mem hmem).2.2.2 rfl rfl⟩
  | answer i how =>
    obtain ⟨t, ht, he⟩ := exists_of_any he
    simp only [next, act, ht, Option.elim_some]
    refine ⟨turn, sound_answer h ht he, ?_⟩
    unfold answer
    split
    · exact ho.keep ht rfl rfl rfl fun _ => by simp [Task.Active]
    · exact ho
  | disconnect i =>
    obtain ⟨t, ht, -⟩ := exists_of_any he
    simp only [next, act, ht, Option.elim_some]
    refine ⟨turn, sound_disconnect h ht, ?_⟩
    unfold disconnect
    split
    next stage gone hk =>
      exact ho.keep ht rfl rfl rfl fun hactive => by simpa only [Task.Active, hk] using hactive
    next => exact ho
  | respond i response =>
    obtain ⟨t, ht, he⟩ := exists_of_any he
    simp only [next, act, ht, Option.elim_some]
    have hreported : response ≠ .dropped := by
      rintro rfl
      exact hr i rfl
    obtain ⟨gone, hk⟩ := canRespond_replying he
    obtain ⟨hw, -, hheld⟩ := replying_held h ht hk
    have hplace : t.place = some turn := by rw [place_held hw, hheld]; rfl
    refine ⟨turn + 1, sound_responded h ht he hreported, ?_⟩
    cases response with
    | finished => exact ho.settle ht hplace rfl rfl
    | errored => exact ho.settle ht hplace rfl rfl
    | dropped => exact absurd rfl hreported
  | ends i ok =>
    obtain ⟨t, ht, he⟩ := exists_of_any he
    simp only [next, act, ht, Option.elim_some]
    refine ⟨turn, sound_ends h ht he ok, ?_⟩
    unfold ends
    split
    · exact ho.keep ht rfl rfl rfl fun _ => trivial
    · exact ho
  | caught i =>
    obtain ⟨t, ht, he⟩ := exists_of_any he
    simp only [next, act, ht, Option.elim_some]
    obtain ⟨hmem, hs⟩ := sound_caught h ht he
    refine ⟨turn + 1, hs, ?_⟩
    unfold caught at hs ⊢
    split
    · exact ho.settle ht ((h.placed i t ht).of_mem hmem).2.2.2 rfl rfl
    next hk =>
      unfold Task.canCatch at he
      split at he
      next own ok hk' => exact absurd hk' (hk own (some ok))
      next => cases he

theorem kept_of_owned (h : Sound turn s) (ho : Owned turn s) : Kept s := by
  have hrange := h.range
  have hopen {p : Nat} (hp : s.outcome p = none) : turn ≤ p := by
    by_contra hlt
    rw [h.outcome, if_pos (Nat.lt_of_not_le hlt)] at hp
    cases hp
  constructor
  · intro p hp hout
    have hge := hopen hout
    rw [h.fair, List.mem_range'_1] at hp
    have hpt : p = turn := by
      obtain he | ⟨he, -⟩ := h.entered <;> omega
    have hlt : p < s.made := by
      obtain he | ⟨he, hlt⟩ := h.entered <;> omega
    subst hpt
    obtain ⟨i, t, ht, hplace, hactive⟩ := ho p hge hlt
    obtain ⟨-, hafter, -⟩ | ⟨-, hheld, -⟩ := (h.placed i t ht).cases hplace
    · omega
    · exact ⟨i, t, ht, by simp [hheld], hactive⟩
  · intro hout
    have hge := hopen hout
    have hchain := h.chain
    obtain ⟨i, t, ht, hplace, hactive⟩ := ho turn (Nat.le_refl _) (by omega)
    refine ⟨i, t, ht, ?_⟩
    obtain ⟨hw, -⟩ | ⟨-, hheld, -⟩ := (h.placed i t ht).cases hplace
    · refine .inr ⟨_, hw, ?_⟩
      rw [h.outcome, if_pos (Nat.sub_lt hrange.1 Nat.one_pos)]
    · exact .inl ⟨by simp [hheld], hactive⟩

theorem reachable_owned (h : Reachable (system.Within Reported) s) :
    ∃ turn, Sound turn s ∧ Owned turn s := by
  refine reachable_invariant (I := fun s => ∃ turn, Sound turn s ∧ Owned turn s) ?_
    (fun s e hs he => ?_) h
  · rintro s rfl
    exact ⟨1, sound_initial, owned_initial⟩
  · obtain ⟨turn, hs, ho⟩ := hs
    exact owned_next hs ho he

/-- The promise of a lost response stays open, and nobody is left to settle it. -/
theorem orphaned_of_dropped (h : Sound turn s) (ht : s.tasks i = some t)
    (he : t.canRespond .dropped = true) : ¬ Kept (respond s i t .dropped) := by
  intro hkept
  obtain ⟨gone, hk⟩ := canRespond_replying he
  obtain ⟨-, -, hheld⟩ := replying_held h ht hk
  have hmem : turn ∈ t.held := by simp [hheld]
  obtain ⟨-, hlength, -, hplace⟩ := (h.placed i t ht).of_mem hmem
  have hs := sound_dropped h ht he
  have hentered : turn ∈ (respond s i t .dropped).entered := by
    change turn ∈ s.entered
    rw [h.fair, List.mem_range'_1]
    have hrange := h.range
    omega
  have hopen : (respond s i t .dropped).outcome turn = none := by
    rw [hs.outcome, if_neg (Nat.lt_irrefl _)]
  obtain ⟨j, u, hu, hin, hactive⟩ := hkept.owned turn hentered hopen
  have hlost : (respond s i t .dropped).tasks i =
      some ⟨.request .dropped true, t.waiting, t.held⟩ := Function.update_self ..
  obtain ⟨rfl, -⟩ := hs.orderly.exclusive j i u _ turn turn hu hlost hin hmem
  rw [hlost, Option.some.injEq] at hu
  subst hu
  exact hactive rfl

/-- In every run the lock is exclusive, fair and never awaited from within. Where no response is
lost it is never orphaned; one lost response orphans it. -/
theorem kept_while_reported {s : State} :
    (Reachable system s → Orderly s) ∧
    (Reachable (system.Within Reported) s → Kept s ∧
      ∀ i, Enabled s (.respond i .dropped) → ¬ Kept (next s (.respond i .dropped))) := by
  refine ⟨fun h => ?_, fun h => ?_⟩
  · obtain ⟨turn, hs⟩ := reachable_sound h
    exact hs.orderly
  · obtain ⟨turn, hs, ho⟩ := reachable_owned h
    refine ⟨kept_of_owned hs ho, fun i he => ?_⟩
    obtain ⟨t, ht, he⟩ := exists_of_any he
    simp only [next, act, ht, Option.elim_some]
    exact orphaned_of_dropped hs ht he

/-- A request, an onion request behind it and a tick of the disappearing job; the client of the
request goes, and its response fails. -/
def contended : List Event :=
  [.arrive, .start .receive, .step 1, .step 1, .tick, .enter 0, .disconnect 0, .answer 0 .handler,
    .respond 0 .errored, .enter 1, .step 1, .leave 1, .enter 2]

theorem contended_kept :
    (system.replay initial contended).entered = [1, 2, 3] ∧
    Orderly (system.replay initial contended) ∧ Kept (system.replay initial contended) := by
  have hvalid : (system.Within Reported).Valid initial contended := by
    simp only [contended, System.Valid, System.Within, system, Reported]
    refine ⟨?_, ?_, ?_, ?_, ?_, ?_, ?_, ?_, ?_, ?_, ?_, ?_, ?_, trivial⟩ <;>
      exact ⟨by decide, by simp⟩
  have hreach : Reachable (system.Within Reported)
      ((system.Within Reported).replay initial contended) :=
    valid_trace_reachable (reachable_initial rfl) hvalid
  have hboth := kept_while_reported (s := (system.Within Reported).replay initial contended)
  exact ⟨by decide, hboth.1 (within_reachable hreach), (hboth.2 hreach).1⟩

def abandoned : List Event := [.arrive, .enter 0, .disconnect 0, .answer 0 .handler]

/-- A client that disconnects while its handler runs takes the lock with it. -/
theorem abandoned_orphans :
    system.Valid initial (abandoned ++ [.respond 0 .dropped]) ∧
    ¬ Kept (system.replay initial (abandoned ++ [.respond 0 .dropped])) := by
  have hvalid : system.Valid initial (abandoned ++ [.respond 0 .dropped]) := by
    simp only [abandoned, List.cons_append, List.nil_append, System.Valid, system]
    decide
  have hreach : Reachable system (system.replay initial abandoned) := by
    refine valid_trace_reachable (reachable_initial rfl) ?_
    simp only [abandoned, System.Valid, system]
    decide
  obtain ⟨turn, hs⟩ := reachable_sound hreach
  refine ⟨hvalid, ?_⟩
  rw [replay_append]
  have ht : (system.replay initial abandoned).tasks 0 =
      some ⟨.request .replying true, none, [1]⟩ := rfl
  exact orphaned_of_dropped hs ht rfl

end Steps

end RequestLock
