import CryptoPigeon.IncrementalReader

/-! # The control connection of Tor

`onData` and `command` of the onion transport: the buffer of the connection, the reply that is
being collected, the one command that waits for it, and what events say about the connection.
`poll` writes what a bootstrap reply says. The stream ends with `close()`. A wake-up is a microtask
that calls `onReady`. `accepted`, `unavailable` and `heard` are history. -/
namespace TorControl

open IncrementalReader

abbrev Line := List Char

local instance lineLawful : LawfulBEq Line := inferInstance

/-- The text up to the first `\r\n`, and what follows it. -/
def takeLine : List Char → Option (Line × List Char)
  | [] => none
  | [_] => none
  | c :: d :: rest =>
    if c = '\r' ∧ d = '\n' then some ([], rest)
    else (takeLine (d :: rest)).map fun r => (c :: r.1, r.2)

def startsWith (start line : Line) : Bool := start.isPrefixOf line

def isDigit (c : Char) : Bool := '0' ≤ c && c ≤ '9'

/-- `line.startsWith('650')`. -/
def isEvent (line : Line) : Bool := startsWith "650".toList line

/-- `/^\d{3} /`. -/
def isFinal : Line → Bool
  | a :: b :: c :: ' ' :: _ => isDigit a && isDigit b && isDigit c
  | _ => false

/-- What follows `650 ` or `650-`. -/
def eventBody : Line → Option Line
  | '6' :: '5' :: '0' :: sep :: body => if sep = ' ' ∨ sep = '-' then some body else none
  | _ => none

def isOnionDigit (c : Char) : Bool := ('a' ≤ c && c ≤ 'z') || ('2' ≤ c && c ≤ '7')

def uploadedStart : Line := "HS_DESC UPLOADED ".toList

def downStart : Line := "NETWORK_LIVENESS DOWN".toList

def upStart : Line := "NETWORK_LIVENESS UP".toList

def circStart : Line := "CIRC ".toList

/-- `HS_DESC UPLOADED ([a-z2-7]{56})(?:\.onion)?(?: |$)`. -/
def uploadedBody (body : Line) : Option Line :=
  if startsWith uploadedStart body then
    let rest := body.drop uploadedStart.length
    let id := rest.take 56
    let tail := rest.drop 56
    let tail := if startsWith ".onion".toList tail then tail.drop 6 else tail
    if id.length = 56 ∧ id.all isOnionDigit ∧ (tail = [] ∨ tail.head? = some ' ') then some id
    else none
  else none

/-- `CIRC \d+ BUILT`. -/
def isBuilt (body : Line) : Bool :=
  startsWith circStart body &&
    let rest := body.drop circStart.length
    !(rest.takeWhile isDigit).isEmpty && startsWith " BUILT".toList (rest.dropWhile isDigit)

def isUpBody (body : Line) : Bool := isBuilt body || startsWith upStart body

def isDownBody (body : Line) : Bool := startsWith downStart body

def number (digits : Line) : Nat := digits.foldl (fun n c => 10 * n + (c.toNat - '0'.toNat)) 0

/-- `/PROGRESS=(\d+)/`, at the first place where it matches. -/
def progress : Line → Option Nat
  | [] => none
  | c :: rest =>
    let digits := ((c :: rest).drop "PROGRESS=".length).takeWhile isDigit
    if startsWith "PROGRESS=".toList (c :: rest) ∧ digits ≠ [] then some (number digits)
    else progress rest

/-- `line.includes('BOOTSTRAP')`. -/
def mentionsBootstrap (line : Line) : Bool := line.tails.any (startsWith "BOOTSTRAP".toList)

structure Health where
  publishedServices : List Line
  circuitReady : Bool
  boot : Nat
  deriving DecidableEq, Repr

def publish (h : Health) (id : Line) : Health :=
  if id ∈ h.publishedServices then h
  else { h with publishedServices := h.publishedServices ++ [id] }

/-- What an event does with what its line says, in this order, and whether it wakes the retries. -/
def applyEvent (h : Health) (uploaded : Option Line) (down up : Bool) (progress : Option Nat) :
    Health × Bool :=
  let wake := uploaded.any fun id => id ∉ h.publishedServices
  let h := match uploaded with
    | some id => publish h id
    | none => h
  let h := if down then { h with circuitReady := false, publishedServices := [] } else h
  let rises := up && !h.circuitReady
  let h := if rises then { h with circuitReady := true } else h
  let wake := rises || wake
  match progress with
  | some progress =>
    let next := min 100 progress
    ({ h with boot := next }, wake || (h.boot != 100 && next == 100))
  | none => (h, wake)

def onEvent (h : Health) (line : Line) : Health × Bool :=
  let body := (eventBody line).getD []
  applyEvent h (uploadedBody body) (isDownBody body) (isUpBody body)
    (if mentionsBootstrap line then progress line else none)

inductive Reply where
  | resolved (lines : List Line)
  | rejected (code : Line)
  deriving DecidableEq, Repr

/-- What the final line of a reply makes of it. -/
def settle (reply : List Line) (line : Line) : Reply :=
  if startsWith "250 ".toList line then .resolved reply
  else .rejected ("TOR_CONTROL_".toList ++ line.take 3)

structure Control where
  replies : List Line
  waiter : Option Nat
  health : Health
  wakes : Nat
  commands : Nat
  accepted : List Nat
  unavailable : List Nat
  heard : List (Option Nat × Reply)
  deriving DecidableEq, Repr

def onLine (c : Control) (line : Line) : Control :=
  if isEvent line then
    let event := onEvent c.health line
    { c with health := event.1, wakes := if event.2 then c.wakes + 1 else c.wakes }
  else
    let replies := c.replies ++ [line]
    if isFinal line then
      { c with
        replies := []
        waiter := none
        heard := c.heard ++ [(c.waiter, settle replies line)] }
    else { c with replies := replies }

/-- `command`: one at a time. -/
def command (c : Control) : Control :=
  let id := c.commands
  if c.waiter.isSome then
    { c with commands := id + 1, unavailable := c.unavailable ++ [id] }
  else { c with commands := id + 1, waiter := some id, accepted := c.accepted ++ [id] }

def poll (c : Control) (boot : Nat) : Control := { c with health := { c.health with boot := boot } }

theorem takeLine_shorter {b x y : List Char} (h : takeLine x = some (b, y)) :
    y.length < x.length := by
  induction x generalizing b with
  | nil => cases h
  | cons c x ih =>
    cases x with
    | nil => cases h
    | cons d rest =>
      rw [takeLine] at h
      split at h
      · cases h
        exact Nat.lt_succ_of_lt (Nat.lt_succ_self _)
      · obtain ⟨r, hr, he⟩ := Option.map_eq_some_iff.mp h
        cases he
        exact Nat.lt_succ_of_lt (ih hr)

theorem takeLine_extend {b x y : List Char} (z : List Char) (h : takeLine x = some (b, y)) :
    takeLine (x ++ z) = some (b, y ++ z) := by
  induction x generalizing b with
  | nil => cases h
  | cons c x ih =>
    cases x with
    | nil => cases h
    | cons d rest =>
      rw [takeLine] at h
      rw [List.cons_append, List.cons_append, takeLine]
      split at h
      · next hcrlf =>
        cases h
        rw [if_pos hcrlf]
      · next hcrlf =>
        obtain ⟨r, hr, he⟩ := Option.map_eq_some_iff.mp h
        cases he
        rw [if_neg hcrlf, ← List.cons_append, ih hr]
        rfl

def lines : Framing Char Line where
  take := takeLine
  shorter := takeLine_shorter
  extend := takeLine_extend

inductive Event where
  | chunk (text : List Char)
  | command
  | poll (boot : Nat)
  deriving DecidableEq, Repr

abbrev Connection := Control × List Char

/-- `onData` takes the lines that are complete. -/
def step (c : Connection) : Event → Connection
  | .chunk text => (lines.reader onLine).feed c text
  | .command => (command c.1, c.2)
  | .poll boot => (poll c.1 boot, c.2)

def initial : Control where
  replies := []
  waiter := none
  health := ⟨[], false, 0⟩
  wakes := 0
  commands := 0
  accepted := []
  unavailable := []
  heard := []

def run (events : List Event) : Connection := events.foldl step (initial, [])

/-- A stream with what happens between two characters of it, however it was cut. -/
def marks : List Event → List (Char ⊕ Event)
  | [] => []
  | .chunk text :: events => text.map .inl ++ marks events
  | e :: events => .inr e :: marks events

/-- The whole stream. -/
def stream : List Event → List Char
  | [] => []
  | .chunk text :: events => text ++ stream events
  | _ :: events => stream events

/-- What happens, line by line. -/
inductive Item where
  | line (line : Line)
  | command
  | poll (boot : Nat)
  deriving DecidableEq, Repr

def items (buffer : List Char) : List Event → List Item
  | [] => []
  | .chunk text :: events =>
    (lines.items (buffer ++ text)).map .line ++ items (lines.rest (buffer ++ text)) events
  | .command :: events => .command :: items buffer events
  | .poll boot :: events => .poll boot :: items buffer events

/-- The replies of a whole stream without its events, each up to its final line. -/
def replies (reply : List Line) : List Line → List Reply
  | [] => []
  | line :: rest =>
    if isFinal line then settle (reply ++ [line]) line :: replies [] rest
    else replies (reply ++ [line]) rest

def lineOf : Item → Option Line
  | .line line => some line
  | _ => none

/-- Whom the replies go to: the oldest of the commands that are still waiting. A command is turned
away while another one waits. -/
def oldest (waiting : List Nat) (commands : Nat) : List Item → List (Option Nat)
  | [] => []
  | .line line :: rest =>
    if ¬ isEvent line ∧ isFinal line then waiting.head? :: oldest waiting.tail commands rest
    else oldest waiting commands rest
  | .command :: rest =>
    if waiting = [] then oldest [commands] (commands + 1) rest
    else oldest waiting (commands + 1) rest
  | .poll _ :: rest => oldest waiting commands rest

/-- What one item makes of the health of the connection. -/
def onHealth (h : Health) : Item → Health
  | .line line => if isEvent line then (onEvent h line).1 else h
  | .command => h
  | .poll boot => { h with boot := boot }

/-- Something new: a published service, a circuit, the end of the bootstrap. -/
def Rises (before now : Health) : Prop :=
  (∃ id ∈ now.publishedServices, id ∉ before.publishedServices) ∨
  (before.circuitReady = false ∧ now.circuitReady = true) ∨
  (before.boot ≠ 100 ∧ now.boot = 100)

instance (before now : Health) : Decidable (Rises before now) := by
  unfold Rises
  infer_instance

/-- The event lines at which something rises. -/
def edges (h : Health) : List Item → Nat
  | [] => 0
  | .line line :: rest =>
    (if isEvent line ∧ Rises h (onHealth h (.line line)) then 1 else 0) +
      edges (onHealth h (.line line)) rest
  | item :: rest => edges (onHealth h item) rest

section Events

variable {h : Health} {line body : Line}

theorem startsWith_startsWith {p q : Line} (hp : startsWith p line = true)
    (hq : startsWith q line = true) : startsWith p q = true ∨ startsWith q p = true := by
  simp only [startsWith, List.isPrefixOf_iff_prefix] at *
  exact List.prefix_or_prefix_of_prefix hp hq

theorem down_not_uploaded (hdown : isDownBody body = true) : uploadedBody body = none := by
  unfold uploadedBody
  refine if_neg fun hup => ?_
  rcases startsWith_startsWith hdown hup with h | h <;> exact absurd h (by decide)

theorem down_not_up (hdown : isDownBody body = true) : isUpBody body = false := by
  rw [Bool.eq_false_iff]
  intro hup
  rcases Bool.or_eq_true_iff.mp hup with hup | hup
  · have hcirc := (Bool.and_eq_true_iff.mp hup).1
    rcases startsWith_startsWith hdown hcirc with h | h <;> exact absurd h (by decide)
  · rcases startsWith_startsWith hdown hup with h | h <;> exact absurd h (by decide)

theorem publish_rises {id : Line} :
    (∃ x ∈ (publish h id).publishedServices, x ∉ h.publishedServices) ↔
      id ∉ h.publishedServices := by
  unfold publish
  split
  · next hm => simpa using hm
  · next hm => simp [hm]

theorem applyEvent_rises {uploaded : Option Line} {down up : Bool} {progress : Option Nat}
    (hdown : down = true → uploaded = none ∧ up = false) :
    (applyEvent h uploaded down up progress).2 = true ↔
      Rises h (applyEvent h uploaded down up progress).1 := by
  have hcircuit (id : Line) : (publish h id).circuitReady = h.circuitReady := by
    unfold publish
    split <;> rfl
  have hboot (id : Line) : (publish h id).boot = h.boot := by
    unfold publish
    split <;> rfl
  cases down with
  | true =>
    obtain ⟨rfl, rfl⟩ := hdown rfl
    cases progress <;> simp [applyEvent, Rises]
  | false =>
    cases uploaded with
    | none =>
      cases up <;> cases progress <;> cases hc : h.circuitReady <;>
        simp [applyEvent, Rises, hc]
    | some id =>
      have hid : (∃ x ∈ (publish h id).publishedServices, x ∉ h.publishedServices) ↔
          id ∉ h.publishedServices := publish_rises
      cases up <;> cases progress <;> cases hc : h.circuitReady <;>
        simp [applyEvent, Rises, hc, hcircuit, hboot, hid]

/-- An event wakes the retries exactly on a rising edge. -/
theorem onEvent_rises : (onEvent h line).2 = true ↔ Rises h (onEvent h line).1 :=
  applyEvent_rises fun hdown => ⟨down_not_uploaded hdown, down_not_up hdown⟩

end Events

section Runs

variable {c : Control} {buffer : List Char} {events : List Event}

def onItem (c : Control) : Item → Control
  | .line line => onLine c line
  | .command => command c
  | .poll boot => poll c boot

theorem feed_eq (c : Connection) (text : List Char) : (lines.reader onLine).feed c text =
    ((lines.items (c.2 ++ text)).foldl onLine c.1, lines.rest (c.2 ++ text)) :=
  drain_eq_foldl lines onLine c.1 (c.2 ++ text)

/-- A run is its lines, commands and polls, in order. -/
theorem foldl_step (events : List Event) (c : Connection) :
    (events.foldl step c).1 = (items c.2 events).foldl onItem c.1 := by
  induction events generalizing c with
  | nil => rfl
  | cons e events ih =>
    rw [List.foldl_cons, ih]
    cases e with
    | chunk text =>
      rw [step, feed_eq, items, List.foldl_append, List.foldl_map]
      rfl
    | command => rfl
    | poll boot => rfl

/-- The lines of a run are those of its stream. -/
theorem items_lines (events : List Event) (h : lines.take buffer = none) :
    (items buffer events).filterMap lineOf = lines.items (buffer ++ stream events) := by
  induction events generalizing buffer with
  | nil => simp [items, stream, items_none h]
  | cons e events ih =>
    cases e with
    | chunk text =>
      have hstuck : lines.take (lines.rest (buffer ++ text)) = none := rest_stuck lines _
      have hlines (ls : List Line) : (ls.map Item.line).filterMap lineOf = ls := by
        rw [List.filterMap_map]
        exact List.filterMap_some
      rw [items, List.filterMap_append, ih hstuck, hlines, stream, ← List.append_assoc,
        items_append lines (buffer ++ text)]
    | command => exact ih h
    | poll boot => exact ih h

/-- The replies heard are those of the stream without its events. -/
theorem heard_replies (is : List Item) (c : Control) :
    (is.foldl onItem c).heard.map Prod.snd = c.heard.map Prod.snd ++
      replies c.replies ((is.filterMap lineOf).filter fun line => !isEvent line) := by
  induction is generalizing c with
  | nil => simp [replies]
  | cons item is ih =>
    rw [List.foldl_cons, ih]
    cases item with
    | line line =>
      cases hevent : isEvent line with
      | true => simp [onItem, onLine, hevent, lineOf]
      | false =>
        cases hfinal : isFinal line <;>
          simp [onItem, onLine, hevent, hfinal, lineOf, replies]
    | command =>
      have hsame : (onItem c .command).heard = c.heard ∧
          (onItem c .command).replies = c.replies := by
        simp only [onItem, command]
        split <;> exact ⟨rfl, rfl⟩
      rw [hsame.1, hsame.2]
      rfl
    | poll boot => rfl

/-- They go to the commands in the order in which these were sent. -/
theorem heard_oldest (is : List Item) (c : Control) :
    (is.foldl onItem c).heard.map Prod.fst =
      c.heard.map Prod.fst ++ oldest c.waiter.toList c.commands is := by
  induction is generalizing c with
  | nil => simp [oldest]
  | cons item is ih =>
    rw [List.foldl_cons, ih]
    cases item with
    | line line =>
      cases hevent : isEvent line with
      | true => simp [onItem, onLine, hevent, oldest]
      | false =>
        cases hfinal : isFinal line <;> cases hw : c.waiter <;>
          simp [onItem, onLine, hevent, hfinal, oldest, hw]
    | command =>
      cases hw : c.waiter <;> simp [onItem, command, hw, oldest]
    | poll boot => rfl

/-- Every command that was sent is answered once, in order, or still waits. -/
theorem accepted_answered (is : List Item) (c : Control)
    (h : c.accepted = c.heard.filterMap Prod.fst ++ c.waiter.toList) :
    (is.foldl onItem c).accepted = (is.foldl onItem c).heard.filterMap Prod.fst ++
      (is.foldl onItem c).waiter.toList := by
  induction is generalizing c with
  | nil => exact h
  | cons item is ih =>
    rw [List.foldl_cons]
    apply ih
    cases item with
    | line line =>
      cases hevent : isEvent line with
      | true => simpa [onItem, onLine, hevent] using h
      | false =>
        cases hfinal : isFinal line <;> cases hw : c.waiter <;>
          simpa [onItem, onLine, hevent, hfinal, hw] using h
    | command =>
      cases hw : c.waiter <;> simpa [onItem, command, hw] using h
    | poll boot => exact h

theorem health_foldl (is : List Item) (c : Control) :
    (is.foldl onItem c).health = is.foldl onHealth c.health ∧
      (is.foldl onItem c).wakes = c.wakes + edges c.health is := by
  induction is generalizing c with
  | nil => exact ⟨rfl, rfl⟩
  | cons item is ih =>
    rw [List.foldl_cons, List.foldl_cons]
    have hnext := ih (onItem c item)
    cases item with
    | line line =>
      cases hevent : isEvent line with
      | false =>
        have hsame : (onItem c (.line line)).health = c.health ∧
            (onItem c (.line line)).wakes = c.wakes := by
          simp only [onItem, onLine, hevent, Bool.false_eq_true, if_false]
          split <;> exact ⟨rfl, rfl⟩
        rw [hsame.1, hsame.2] at hnext
        simpa [onHealth, edges, hevent] using hnext
      | true =>
        rw [hnext.1, hnext.2]
        simp only [onItem, onLine, onHealth, edges, hevent, if_true, true_and,
          ← onEvent_rises]
        split <;> omega
    | command =>
      have hsame : (onItem c .command).health = c.health ∧
          (onItem c .command).wakes = c.wakes := by
        simp only [onItem, command]
        split <;> exact ⟨rfl, rfl⟩
      rw [hsame.1, hsame.2] at hnext
      exact hnext
    | poll boot => exact hnext

/-- What is left in the buffer is never a whole line. -/
theorem step_stuck (c : Connection) (e : Event) (h : lines.take c.2 = none) :
    lines.take (step c e).2 = none := by
  cases e with
  | chunk text =>
    rw [step, feed_eq]
    exact rest_stuck lines _
  | command => exact h
  | poll boot => exact h

/-- One mark at a time. -/
def stepMark (c : Connection) : Char ⊕ Event → Connection
  | .inl char => step c (.chunk [char])
  | .inr e => step c e

/-- A chunk is read as if it came character by character. -/
theorem chunk_marks (text : List Char) (c : Connection) (h : lines.take c.2 = none) :
    step c (.chunk text) = (text.map .inl).foldl stepMark c := by
  induction text generalizing c with
  | nil =>
    rw [step, feed_eq, List.append_nil, items_none h, rest_none h]
    rfl
  | cons char text ih =>
    rw [List.map_cons, List.foldl_cons, stepMark, ← ih _ (step_stuck c _ h)]
    have happend := drain_append (lines.reader onLine) c.1 (c.2 ++ [char]) text
    rw [List.append_assoc, List.singleton_append] at happend
    exact happend

theorem run_marks (events : List Event) (c : Connection) (h : lines.take c.2 = none) :
    events.foldl step c = (marks events).foldl stepMark c := by
  induction events generalizing c with
  | nil => rfl
  | cons e events ih =>
    rw [List.foldl_cons, ih _ (step_stuck c e h)]
    cases e with
    | chunk text => rw [marks, List.foldl_append, ← chunk_marks text c h]
    | command => rfl
    | poll boot => rfl

/-- Without polls, what is known of the connection is what the event lines say. -/
theorem health_events (is : List Item) (h : Health) (hpoll : ∀ boot, .poll boot ∉ is) :
    is.foldl onHealth h =
      ((is.filterMap lineOf).filter isEvent).foldl (fun h line => (onEvent h line).1) h := by
  induction is generalizing h with
  | nil => rfl
  | cons item is ih =>
    have hrest (boot : Nat) : .poll boot ∉ is := fun hm => hpoll boot (List.mem_cons_of_mem _ hm)
    rw [List.foldl_cons, ih _ hrest]
    cases item with
    | line line => cases hevent : isEvent line <;> simp [onHealth, lineOf, hevent]
    | command => rfl
    | poll boot => exact absurd List.mem_cons_self (hpoll boot)

theorem items_poll {boot : Nat} (h : .poll boot ∈ items buffer events) : .poll boot ∈ events := by
  induction events generalizing buffer with
  | nil => cases h
  | cons e events ih =>
    cases e with
    | chunk text =>
      rw [items, List.mem_append] at h
      rcases h with h | h
      · simp at h
      · exact List.mem_cons_of_mem _ (ih h)
    | command =>
      rcases List.mem_cons.mp h with h | h
      · cases h
      · exact List.mem_cons_of_mem _ (ih h)
    | poll n =>
      rcases List.mem_cons.mp h with h | h
      · cases h
        exact List.mem_cons_self
      · exact List.mem_cons_of_mem _ (ih h)

end Runs

end TorControl
