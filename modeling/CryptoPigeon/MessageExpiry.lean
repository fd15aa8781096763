import CryptoPigeon.TransitionSystem
import Mathlib.Data.List.Basic

/-! # Disappearing messages

Rows and files of both clients: a message with its attachment is received or sent, the attachment's
file is cached and its path recorded, and expiry deletes files and rows. The desktop finds the files
of an expired message through the recorded paths, Android through the attachments' ids. One
operation runs at a time; a crash, or an error in it, ends it where it is. A file is named by its
attachment. Columns that expiry does not read are left out. -/
namespace MessageExpiry

open TransitionSystem

inductive Client where
  | desktop
  | android
  deriving DecidableEq, Repr

structure Message where
  messageId : Nat
  disappearAt : Option Nat
  deriving DecidableEq, Repr

structure Attachment where
  attachmentId : Nat
  messageId : Nat
  localPath : Option Nat
  deriving DecidableEq, Repr

structure Queued where
  envelopeId : Nat
  messageId : Nat
  deriving DecidableEq, Repr

structure Link where
  messageId : Nat
  remoteId : Nat
  deriving DecidableEq, Repr

/-- What the client is in the middle of. -/
inductive Activity where
  | idle
  /-- A download's file is cached, its path is not recorded yet. -/
  | fetched (attachmentId : Nat)
  /-- Android: the path is recorded, the download's row is still there. -/
  | recorded (attachmentId : Nat)
  /-- The desktop's loop: the messages left, and the paths left of the first. -/
  | expiring (now : Nat) (messages : List Nat) (paths : List Nat)
  /-- Android's: the files left; all messages are deleted at once. -/
  | sweeping (now : Nat) (paths : List Nat)
  deriving DecidableEq, Repr

/-- `erased` are the attachments of messages that expiry has deleted; this is history. -/
structure State where
  messages : List Message
  attachments : List Attachment
  downloads : List Nat
  outbox : List Queued
  links : List Link
  files : List Nat
  activity : Activity
  erased : List Nat
  deriving DecidableEq, Repr

def initial : State := ⟨[], [], [], [], [], [], .idle, []⟩

/-- `disappear_at IS NOT NULL AND disappear_at <= ?`. -/
def expired (now : Nat) (m : Message) : Bool := m.disappearAt.any fun t => t ≤ now

/-- The transaction of a received message. -/
def receive (s : State) (m : Message) (attachment remote : Option Nat) : State :=
  { s with
    messages := s.messages ++ [m]
    attachments := s.attachments ++ attachment.toList.map fun x => ⟨x, m.messageId, none⟩
    downloads := s.downloads ++ attachment.toList
    links := s.links ++ remote.toList.map fun r => ⟨m.messageId, r⟩ }

/-- `cacheAttachment`, before a message names the file. -/
def cache (s : State) (attachment : Nat) : State := { s with files := attachment :: s.files }

/-- The transaction of a sent message. -/
def send (s : State) (m : Message) (envelope : Nat) (attachment : Option Nat) : State :=
  { s with
    messages := s.messages ++ [m]
    attachments := s.attachments ++ attachment.toList.map fun x => ⟨x, m.messageId, some x⟩
    outbox := s.outbox ++ [⟨envelope, m.messageId⟩] }

def sent (s : State) (envelope : Nat) : State :=
  { s with outbox := s.outbox.filter fun q => q.envelopeId != envelope }

/-- A download up to its `cacheAttachment`. -/
def fetch (s : State) (attachment : Nat) : State :=
  { s with files := attachment :: s.files, activity := .fetched attachment }

def setPath (s : State) (attachment : Nat) : State :=
  { s with
    attachments := s.attachments.map fun a =>
      if a.attachmentId = attachment then { a with localPath := some attachment } else a }

def dropDownload (s : State) (attachment : Nat) : State :=
  { s with downloads := s.downloads.filter fun x => x != attachment, activity := .idle }

/-- The end of a download: one transaction on the desktop, two statements on Android. -/
def record (client : Client) (s : State) : State :=
  match s.activity with
  | .fetched x =>
    match client with
    | .desktop => dropDownload (setPath s x) x
    | .android => { setPath s x with activity := .recorded x }
  | .recorded x => dropDownload s x
  | _ => s

/-- `SELECT encrypted_local_path FROM attachments WHERE message_id = ?`, without the nulls. -/
def pathsOf (s : State) (messageId : Nat) : List Nat :=
  (s.attachments.filter fun a => a.messageId == messageId).filterMap Attachment.localPath

/-- The next message of the desktop's loop. -/
def proceed (s : State) (now : Nat) (messages : List Nat) : State :=
  match messages with
  | [] => { s with activity := .idle }
  | m :: ms => { s with activity := .expiring now (m :: ms) (pathsOf s m) }

/-- The message of a row is one of the doomed. -/
def dead (s : State) (doomed : Message → Bool) (messageId : Nat) : Bool :=
  s.messages.any fun m => m.messageId == messageId && doomed m

/-- `SELECT a.attachment_id FROM attachments a JOIN messages m ..`. -/
def expiredAttachments (s : State) (now : Nat) : List Nat :=
  (s.attachments.filter fun a => dead s (expired now) a.messageId).map Attachment.attachmentId

def expire (client : Client) (s : State) (now : Nat) : State :=
  match client with
  | .desktop => proceed s now ((s.messages.filter (expired now)).map Message.messageId)
  | .android => { s with activity := .sweeping now (expiredAttachments s now) }

def remove (s : State) (path : Nat) (ok : Bool) : List Nat :=
  if ok then s.files.filter fun x => x != path else s.files

/-- `unlink` of the next path; its failure is caught or not looked at. -/
def unlink (s : State) (ok : Bool) : State :=
  match s.activity with
  | .expiring now ms (p :: ps) =>
    { s with files := remove s p ok, activity := .expiring now ms ps }
  | .sweeping now (p :: ps) => { s with files := remove s p ok, activity := .sweeping now ps }
  | _ => s

/-- `DELETE FROM messages`, with the cascades of the foreign keys. -/
def deleteMessages (s : State) (doomed : Message → Bool) : State :=
  { s with
    messages := s.messages.filter fun m => !doomed m
    attachments := s.attachments.filter fun a => !dead s doomed a.messageId
    downloads := s.downloads.filter fun x =>
      !s.attachments.any fun a => a.attachmentId == x && dead s doomed a.messageId
    outbox := s.outbox.filter fun q => !dead s doomed q.messageId
    links := s.links.filter fun l => !dead s doomed l.messageId
    erased := s.erased ++
      (s.attachments.filter fun a => dead s doomed a.messageId).map Attachment.attachmentId }

def delete (s : State) : State :=
  match s.activity with
  | .expiring now (m :: ms) [] =>
    proceed (deleteMessages s fun message => message.messageId == m) now ms
  | .sweeping now [] => { deleteMessages s (expired now) with activity := .idle }
  | _ => s

inductive Event where
  | receive (message : Message) (attachment remote : Option Nat)
  | cache (attachment : Nat)
  | send (message : Message) (envelope : Nat) (attachment : Option Nat)
  | sent (envelope : Nat)
  | fetch (attachment : Nat) (now : Nat)
  | record
  | expire (now : Nat)
  | unlink (ok : Bool)
  | delete
  | crash
  deriving DecidableEq, Repr

def next (client : Client) (s : State) : Event → State
  | .receive m attachment remote => receive s m attachment remote
  | .cache attachment => cache s attachment
  | .send m envelope attachment => send s m envelope attachment
  | .sent envelope => sent s envelope
  | .fetch attachment _ => fetch s attachment
  | .record => record client s
  | .expire now => expire client s now
  | .unlink ok => unlink s ok
  | .delete => delete s
  | .crash => { s with activity := .idle }

/-- No row has the key of a row that is inserted. -/
def Fresh (s : State) (m : Message) (attachment : Option Nat) : Prop :=
  (∀ n ∈ s.messages, n.messageId ≠ m.messageId) ∧
  ∀ x ∈ attachment, ∀ a ∈ s.attachments, a.attachmentId ≠ x

instance (s : State) (m : Message) (attachment : Option Nat) :
    Decidable (Fresh s m attachment) :=
  inferInstanceAs (Decidable (_ ∧ _))

/-- A name for a new file is random. Android sends only what is cached; the desktop downloads
nothing for a message that has expired. -/
def Enabled (client : Client) (s : State) : Event → Prop
  | .receive m attachment _ => s.activity = .idle ∧ Fresh s m attachment
  | .cache x => s.activity = .idle ∧ x ∉ s.files ∧ x ∉ s.erased ∧
      ∀ a ∈ s.attachments, a.attachmentId ≠ x
  | .send m envelope attachment => s.activity = .idle ∧ Fresh s m attachment ∧
      (∀ q ∈ s.outbox, q.envelopeId ≠ envelope) ∧
      (client = .android → ∀ x ∈ attachment, x ∈ s.files)
  | .sent envelope => s.activity = .idle ∧ ∃ q ∈ s.outbox, q.envelopeId = envelope
  | .fetch x now => s.activity = .idle ∧ x ∈ s.downloads ∧ (client = .desktop →
      ∀ a ∈ s.attachments, a.attachmentId = x → dead s (expired now) a.messageId = false)
  | .record =>
    match s.activity with
    | .fetched _ | .recorded _ => True
    | _ => False
  | .expire _ => s.activity = .idle
  | .unlink _ =>
    match s.activity with
    | .expiring _ _ (_ :: _) | .sweeping _ (_ :: _) => True
    | _ => False
  | .delete =>
    match s.activity with
    | .expiring _ (_ :: _) [] | .sweeping _ [] => True
    | _ => False
  | .crash => True

def system (client : Client) : System State Event where
  Initial s := s = initial
  Enabled := Enabled client
  next := next client

/-! ## What expiry promises -/

/-- No row refers to the message. -/
structure Unreferenced (s : State) (messageId : Nat) : Prop where
  attachments : ∀ a ∈ s.attachments, a.messageId ≠ messageId
  downloads : ∀ x ∈ s.downloads, ∃ a ∈ s.attachments, a.attachmentId = x ∧ a.messageId ≠ messageId
  outbox : ∀ q ∈ s.outbox, q.messageId ≠ messageId
  links : ∀ l ∈ s.links, l.messageId ≠ messageId

/-- A file named after an attachment of a deleted message belongs to a message that has since
come with the same attachment. -/
def Clean (s : State) : Prop :=
  ∀ x ∈ s.erased, x ∈ s.files → ∃ a ∈ s.attachments, a.attachmentId = x

instance (s : State) : Decidable (Clean s) :=
  inferInstanceAs (Decidable (∀ x ∈ s.erased, _ → _))

/-- A list lost nothing but what the predicate allows, and gained nothing. -/
def Lost {α : Type*} (allowed : α → Prop) (before after : List α) : Prop :=
  after ⊆ before ∧ ∀ x ∈ before, x ∈ after ∨ allowed x

/-- Only expired messages, their rows and the files of their attachments are gone. -/
structure Spared (now : Nat) (s t : State) : Prop where
  messages : Lost (fun m => expired now m = true) s.messages t.messages
  attachments : Lost (fun a => dead s (expired now) a.messageId = true) s.attachments t.attachments
  downloads : Lost (fun x => ∃ a ∈ s.attachments, a.attachmentId = x ∧
    dead s (expired now) a.messageId = true) s.downloads t.downloads
  outbox : Lost (fun q => dead s (expired now) q.messageId = true) s.outbox t.outbox
  links : Lost (fun l => dead s (expired now) l.messageId = true) s.links t.links
  files : Lost (fun x => ∃ a ∈ s.attachments, a.attachmentId = x ∧
    dead s (expired now) a.messageId = true) s.files t.files

/-- A step of an expiry pass at the time `now`. -/
def PassStep (s : State) (now : Nat) : Event → Prop
  | .expire time => time = now
  | .unlink _ | .delete =>
    match s.activity with
    | .expiring time _ _ | .sweeping time _ => time = now
    | _ => False
  | _ => False

/-- Where a pass begins on the desktop, cached files of expired messages have their path recorded;
and an existing file can be deleted. -/
def Careful (client : Client) (s : State) : Event → Prop
  | .expire now => client = .desktop → ∀ a ∈ s.attachments,
      dead s (expired now) a.messageId = true → a.attachmentId ∈ s.files →
      a.localPath = some a.attachmentId
  | .unlink ok =>
    match s.activity with
    | .expiring _ _ (p :: _) | .sweeping _ (p :: _) => ok = true ∨ p ∉ s.files
    | _ => True
  | _ => True

/-! ## The tables -/

/-- Keys are unique, references point to rows, and a recorded path is the attachment's own. -/
structure Tables (s : State) : Prop where
  keys : ∀ m ∈ s.messages, ∀ n ∈ s.messages, m.messageId = n.messageId → m = n
  attachments : ∀ a ∈ s.attachments, ∃ m ∈ s.messages, m.messageId = a.messageId
  downloads : ∀ x ∈ s.downloads, ∃ a ∈ s.attachments, a.attachmentId = x
  outbox : ∀ q ∈ s.outbox, ∃ m ∈ s.messages, m.messageId = q.messageId
  links : ∀ l ∈ s.links, ∃ m ∈ s.messages, m.messageId = l.messageId
  paths : ∀ a ∈ s.attachments, ∀ p, a.localPath = some p → p = a.attachmentId

section TableSteps

variable {s : State} {m : Message} {x id : Nat} {doomed : Message → Bool}

theorem dead_iff : dead s doomed id = true ↔
    ∃ m ∈ s.messages, m.messageId = id ∧ doomed m = true := by
  simp only [dead, List.any_eq_true, Bool.and_eq_true, beq_iff_eq]

theorem tables_initial : Tables initial := by
  constructor <;> intro a ha <;> cases ha

theorem keys_append {messages : List Message}
    (h : ∀ m ∈ messages, ∀ n ∈ messages, m.messageId = n.messageId → m = n)
    (hfresh : ∀ n ∈ messages, n.messageId ≠ m.messageId) :
    ∀ n ∈ messages ++ [m], ∀ k ∈ messages ++ [m], n.messageId = k.messageId → n = k := by
  intro n hn k hk heq
  rw [List.mem_append, List.mem_singleton] at hn hk
  obtain hn | rfl := hn
  · obtain hk | rfl := hk
    · exact h n hn k hk heq
    · exact absurd heq (hfresh n hn)
  · obtain hk | rfl := hk
    · exact absurd heq.symm (hfresh k hk)
    · rfl

/-- A new message with rows of its own. -/
theorem Tables.insert (h : Tables s) (hfresh : ∀ n ∈ s.messages, n.messageId ≠ m.messageId)
    (attachments : List Attachment) (downloads : List Nat) (outbox : List Queued)
    (links : List Link) (ha : ∀ a ∈ attachments, a.messageId = m.messageId)
    (hp : ∀ a ∈ attachments, ∀ p, a.localPath = some p → p = a.attachmentId)
    (hd : ∀ x ∈ downloads, ∃ a ∈ attachments, a.attachmentId = x)
    (ho : ∀ q ∈ outbox, q.messageId = m.messageId) (hl : ∀ l ∈ links, l.messageId = m.messageId) :
    Tables { s with
      messages := s.messages ++ [m]
      attachments := s.attachments ++ attachments
      downloads := s.downloads ++ downloads
      outbox := s.outbox ++ outbox
      links := s.links ++ links } := by
  have hold {id : Nat} (hm : ∃ n ∈ s.messages, n.messageId = id) :
      ∃ n ∈ s.messages ++ [m], n.messageId = id := by
    obtain ⟨n, hn, hid⟩ := hm
    exact ⟨n, List.mem_append_left _ hn, hid⟩
  have hnew {id : Nat} (hid : id = m.messageId) : ∃ n ∈ s.messages ++ [m], n.messageId = id :=
    ⟨m, List.mem_append_right _ (List.mem_singleton.mpr rfl), hid.symm⟩
  constructor
  · exact keys_append h.keys hfresh
  · intro a hmem
    obtain hmem | hmem := List.mem_append.mp hmem
    · exact hold (h.attachments a hmem)
    · exact hnew (ha a hmem)
  · intro x hmem
    obtain hmem | hmem := List.mem_append.mp hmem
    · obtain ⟨a, hin, hx⟩ := h.downloads x hmem
      exact ⟨a, List.mem_append_left _ hin, hx⟩
    · obtain ⟨a, hin, hx⟩ := hd x hmem
      exact ⟨a, List.mem_append_right _ hin, hx⟩
  · intro q hmem
    obtain hmem | hmem := List.mem_append.mp hmem
    · exact hold (h.outbox q hmem)
    · exact hnew (ho q hmem)
  · intro l hmem
    obtain hmem | hmem := List.mem_append.mp hmem
    · exact hold (h.links l hmem)
    · exact hnew (hl l hmem)
  · intro a hmem
    obtain hmem | hmem := List.mem_append.mp hmem
    · exact h.paths a hmem
    · exact hp a hmem

theorem tables_receive {attachment remote : Option Nat} (h : Tables s)
    (hf : Fresh s m attachment) : Tables (receive s m attachment remote) := by
  have hinsert := h.insert hf.1 (attachment.toList.map fun x => ⟨x, m.messageId, none⟩)
    attachment.toList [] (remote.toList.map fun r => ⟨m.messageId, r⟩)
    (by simp) (by simp) (by simp) (by simp) (by simp)
  simpa only [receive, List.append_nil] using hinsert

theorem tables_send {envelope : Nat} {attachment : Option Nat} (h : Tables s)
    (hf : Fresh s m attachment) : Tables (send s m envelope attachment) := by
  have hinsert := h.insert hf.1 (attachment.toList.map fun x => ⟨x, m.messageId, some x⟩)
    [] [⟨envelope, m.messageId⟩] [] (by simp) (by simp) (by simp) (by simp) (by simp)
  simpa only [send, List.append_nil] using hinsert

theorem tables_sent (h : Tables s) (envelope : Nat) : Tables (sent s envelope) :=
  ⟨h.keys, h.attachments, h.downloads, fun q hq => h.outbox q (List.mem_of_mem_filter hq),
    h.links, h.paths⟩

/-- Recording a path keeps the ids of the rows. -/
theorem mem_setPath {a : Attachment} (ha : a ∈ s.attachments) :
    ∃ b ∈ (setPath s x).attachments, b.attachmentId = a.attachmentId ∧
      b.messageId = a.messageId := by
  refine ⟨_, List.mem_map_of_mem ha, ?_⟩
  split <;> exact ⟨rfl, rfl⟩

theorem of_mem_setPath {b : Attachment} (hb : b ∈ (setPath s x).attachments) :
    ∃ a ∈ s.attachments, b.attachmentId = a.attachmentId ∧ b.messageId = a.messageId ∧
      (b.localPath = a.localPath ∨ b.localPath = some b.attachmentId) := by
  obtain ⟨a, ha, rfl⟩ := List.mem_map.mp hb
  refine ⟨a, ha, ?_⟩
  split
  next hx => exact ⟨rfl, rfl, .inr (by rw [← hx])⟩
  next => exact ⟨rfl, rfl, .inl rfl⟩

theorem tables_setPath (h : Tables s) : Tables (setPath s x) := by
  refine ⟨h.keys, ?_, ?_, h.outbox, h.links, ?_⟩
  · intro b hb
    obtain ⟨a, ha, -, hmessage, -⟩ := of_mem_setPath hb
    rw [hmessage]
    exact h.attachments a ha
  · intro y hy
    obtain ⟨a, ha, hid⟩ := h.downloads y hy
    obtain ⟨b, hb, hb', -⟩ := mem_setPath (x := x) ha
    exact ⟨b, hb, hb'.trans hid⟩
  · intro b hb p hp
    obtain ⟨a, ha, hid, -, hpath | hpath⟩ := of_mem_setPath hb
    · rw [hid]
      exact h.paths a ha p (hpath ▸ hp)
    · rw [hpath, Option.some.injEq] at hp
      exact hp.symm

theorem tables_drop (h : Tables s) : Tables (dropDownload s x) :=
  ⟨h.keys, h.attachments, fun y hy => h.downloads y (List.mem_of_mem_filter hy), h.outbox,
    h.links, h.paths⟩

/-- A row that is not deleted keeps its message. -/
theorem kept_message (hm : ∃ m ∈ s.messages, m.messageId = id)
    (hd : dead s doomed id = false) :
    ∃ m ∈ (deleteMessages s doomed).messages, m.messageId = id := by
  obtain ⟨m, hmem, hid⟩ := hm
  refine ⟨m, List.mem_filter.mpr ⟨hmem, ?_⟩, hid⟩
  rw [Bool.not_eq_true']
  by_contra hdoomed
  rw [Bool.not_eq_false] at hdoomed
  have hdead := dead_iff.mpr ⟨m, hmem, hid, hdoomed⟩
  rw [hd] at hdead
  cases hdead

theorem mem_kept {a : Attachment} : a ∈ (deleteMessages s doomed).attachments ↔
    a ∈ s.attachments ∧ dead s doomed a.messageId = false := by
  simp only [deleteMessages, List.mem_filter, Bool.not_eq_true']

theorem tables_delete (h : Tables s) : Tables (deleteMessages s doomed) := by
  constructor
  · intro m hm n hn
    exact h.keys m (List.mem_of_mem_filter hm) n (List.mem_of_mem_filter hn)
  · intro a ha
    obtain ⟨hmem, hd⟩ := mem_kept.mp ha
    exact kept_message (h.attachments a hmem) hd
  · intro x hx
    obtain ⟨hmem, hd⟩ := List.mem_filter.mp hx
    obtain ⟨a, ha, hid⟩ := h.downloads x hmem
    refine ⟨a, mem_kept.mpr ⟨ha, ?_⟩, hid⟩
    simp only [Bool.not_eq_true', List.any_eq_false, Bool.and_eq_true, beq_iff_eq, not_and,
      Bool.not_eq_true] at hd
    exact hd a ha hid
  · intro q hq
    obtain ⟨hmem, hd⟩ := List.mem_filter.mp hq
    exact kept_message (h.outbox q hmem) (by simpa using hd)
  · intro l hl
    obtain ⟨hmem, hd⟩ := List.mem_filter.mp hl
    exact kept_message (h.links l hmem) (by simpa using hd)
  · intro a ha
    exact h.paths a (mem_kept.mp ha).1

theorem Tables.unreferenced (h : Tables s) (hid : ∀ m ∈ s.messages, m.messageId ≠ id) :
    Unreferenced s id := by
  have hnone {row : Nat} (hr : ∃ m ∈ s.messages, m.messageId = row) : row ≠ id := by
    obtain ⟨m, hm, rfl⟩ := hr
    exact hid m hm
  refine ⟨fun a ha => hnone (h.attachments a ha), ?_, fun q hq => hnone (h.outbox q hq),
    fun l hl => hnone (h.links l hl)⟩
  intro x hx
  obtain ⟨a, ha, hax⟩ := h.downloads x hx
  exact ⟨a, ha, hax, hnone (h.attachments a ha)⟩

end TableSteps

/-! ## A pass -/

/-- What the client is in the middle of fits the tables. -/
def Coherent (s : State) : Prop :=
  match s.activity with
  | .idle | .recorded _ => True
  | .fetched x => x ∈ s.downloads
  | .expiring now ms ps =>
    (∀ m ∈ s.messages, expired now m = true → m.messageId ∈ ms) ∧
    (∀ m ∈ s.messages, m.messageId ∈ ms → expired now m = true) ∧
    ∀ p ∈ ps, ∃ a ∈ s.attachments, a.attachmentId = p ∧ ms.head? = some a.messageId
  | .sweeping now ps =>
    ∀ p ∈ ps, ∃ a ∈ s.attachments, a.attachmentId = p ∧ dead s (expired now) a.messageId = true

structure Sound (s : State) : Prop where
  tables : Tables s
  coherent : Coherent s

section Steps

variable {client : Client} {s : State} {e : Event} {now : Nat}

theorem Sound.of_idle (h : Tables s) (hi : s.activity = .idle) : Sound s := by
  refine ⟨h, ?_⟩
  unfold Coherent
  rw [hi]
  trivial

theorem mem_pathsOf {messageId p : Nat} : p ∈ pathsOf s messageId ↔
    ∃ a ∈ s.attachments, a.messageId = messageId ∧ a.localPath = some p := by
  simp only [pathsOf, List.mem_filterMap, List.mem_filter, beq_iff_eq, and_assoc]

/-- The loop's next message, the expired ones being those that are left. -/
theorem sound_proceed (h : Tables s) {ms : List Nat}
    (hall : ∀ m ∈ s.messages, expired now m = true → m.messageId ∈ ms)
    (honly : ∀ m ∈ s.messages, m.messageId ∈ ms → expired now m = true) :
    Sound (proceed s now ms) := by
  cases ms with
  | nil => exact .of_idle ⟨h.keys, h.attachments, h.downloads, h.outbox, h.links, h.paths⟩ rfl
  | cons id ms =>
    refine ⟨⟨h.keys, h.attachments, h.downloads, h.outbox, h.links, h.paths⟩, hall, honly, ?_⟩
    intro p hp
    obtain ⟨a, ha, hid, hpath⟩ := mem_pathsOf.mp hp
    exact ⟨a, ha, (h.paths a ha p hpath).symm, by rw [hid]; rfl⟩

theorem sound_expire (h : Tables s) : Sound (expire client s now) := by
  cases client with
  | desktop =>
    refine sound_proceed h ?_ ?_
    · intro m hm he
      exact List.mem_map_of_mem (List.mem_filter.mpr ⟨hm, he⟩)
    · intro m hm hmem
      obtain ⟨n, hn, hid⟩ := List.mem_map.mp hmem
      obtain ⟨hn, he⟩ := List.mem_filter.mp hn
      rw [← h.keys n hn m hm hid]
      exact he
  | android =>
    refine ⟨⟨h.keys, h.attachments, h.downloads, h.outbox, h.links, h.paths⟩, ?_⟩
    intro p hp
    obtain ⟨a, ha, rfl⟩ := List.mem_map.mp hp
    obtain ⟨ha, hd⟩ := List.mem_filter.mp ha
    exact ⟨a, ha, rfl, hd⟩

theorem sound_unlink (h : Sound s) (ok : Bool) : Sound (unlink s ok) := by
  obtain ⟨ht, hc⟩ := h
  unfold Coherent at hc
  unfold unlink
  split
  next time ms p ps heq =>
    rw [heq] at hc
    obtain ⟨hall, honly, hpaths⟩ := hc
    exact ⟨⟨ht.keys, ht.attachments, ht.downloads, ht.outbox, ht.links, ht.paths⟩, hall, honly,
      fun q hq => hpaths q (List.mem_cons_of_mem _ hq)⟩
  next time p ps heq =>
    rw [heq] at hc
    exact ⟨⟨ht.keys, ht.attachments, ht.downloads, ht.outbox, ht.links, ht.paths⟩,
      fun q hq => hc q (List.mem_cons_of_mem _ hq)⟩
  next => exact ⟨ht, hc⟩

theorem sound_delete (h : Sound s) : Sound (delete s) := by
  obtain ⟨ht, hc⟩ := h
  have hsame := hc
  unfold Coherent at hc
  unfold delete
  split
  next time id ms heq =>
    rw [heq] at hc
    obtain ⟨hall, honly, -⟩ := hc
    refine sound_proceed (tables_delete ht) ?_ ?_
    · intro m hm he
      obtain ⟨hm, hne⟩ := List.mem_filter.mp hm
      obtain hid | hid := List.mem_cons.mp (hall m hm he)
      · simp [hid] at hne
      · exact hid
    · intro m hm hid
      exact honly m (List.mem_of_mem_filter hm) (List.mem_cons_of_mem _ hid)
  next time heq =>
    have hd : Tables (deleteMessages s (expired time)) := tables_delete ht
    exact .of_idle ⟨hd.keys, hd.attachments, hd.downloads, hd.outbox, hd.links, hd.paths⟩ rfl
  next => exact ⟨ht, hsame⟩

theorem sound_record (h : Sound s) : Sound (record client s) := by
  obtain ⟨ht, hc⟩ := h
  unfold record
  split
  next x heq =>
    cases client with
    | desktop => exact .of_idle (tables_drop (tables_setPath ht)) rfl
    | android =>
      have hp := tables_setPath (x := x) ht
      exact ⟨⟨hp.keys, hp.attachments, hp.downloads, hp.outbox, hp.links, hp.paths⟩, trivial⟩
  next x heq => exact .of_idle (tables_drop ht) rfl
  next => exact ⟨ht, hc⟩

theorem sound_next (h : Sound s) (he : Enabled client s e) : Sound (next client s e) := by
  have ht := h.tables
  cases e with
  | receive m attachment remote => exact .of_idle (tables_receive ht he.2) he.1
  | cache x =>
    exact .of_idle ⟨ht.keys, ht.attachments, ht.downloads, ht.outbox, ht.links, ht.paths⟩ he.1
  | send m envelope attachment => exact .of_idle (tables_send ht he.2.1) he.1
  | sent envelope => exact .of_idle (tables_sent ht envelope) he.1
  | fetch x time =>
    exact ⟨⟨ht.keys, ht.attachments, ht.downloads, ht.outbox, ht.links, ht.paths⟩, he.2.1⟩
  | record => exact sound_record h
  | expire time => exact sound_expire ht
  | unlink ok => exact sound_unlink h ok
  | delete => exact sound_delete h
  | crash =>
    exact .of_idle ⟨ht.keys, ht.attachments, ht.downloads, ht.outbox, ht.links, ht.paths⟩ rfl

theorem reachable_sound (h : Reachable (system client) s) : Sound s := by
  refine reachable_invariant ?_ (fun s e hs he => sound_next hs he) h
  rintro s rfl
  exact .of_idle tables_initial rfl

end Steps

/-! ## What a pass spares -/

theorem lost_refl {α : Type*} {allowed : α → Prop} {l : List α} : Lost allowed l l :=
  ⟨fun _ h => h, fun _ h => .inl h⟩

/-- A filter that drops only what is allowed. -/
theorem lost_filter {α : Type*} {allowed : α → Prop} {l : List α} {f : α → Bool}
    (h : ∀ x ∈ l, f x = false → allowed x) : Lost allowed l (l.filter f) := by
  refine ⟨List.filter_subset_self l, fun x hx => ?_⟩
  cases hf : f x with
  | true => exact .inl (List.mem_filter.mpr ⟨hx, hf⟩)
  | false => exact .inr (h x hx hf)

section Passes

variable {client : Client} {s : State} {e : Event} {now : Nat} {doomed : Message → Bool}

theorem spared_files {t : State} (hm : t.messages = s.messages)
    (ha : t.attachments = s.attachments) (hd : t.downloads = s.downloads)
    (ho : t.outbox = s.outbox) (hl : t.links = s.links)
    (hf : Lost (fun x => ∃ a ∈ s.attachments, a.attachmentId = x ∧
      dead s (expired now) a.messageId = true) s.files t.files) : Spared now s t := by
  refine ⟨?_, ?_, ?_, ?_, ?_, hf⟩
  · rw [hm]
    exact lost_refl
  · rw [ha]
    exact lost_refl
  · rw [hd]
    exact lost_refl
  · rw [ho]
    exact lost_refl
  · rw [hl]
    exact lost_refl

theorem dead_mono {id : Nat} (h : ∀ m ∈ s.messages, doomed m = true → expired now m = true)
    (hd : dead s doomed id = true) : dead s (expired now) id = true := by
  obtain ⟨m, hm, hid, hdoomed⟩ := dead_iff.mp hd
  exact dead_iff.mpr ⟨m, hm, hid, h m hm hdoomed⟩

/-- Deleting expired messages. -/
theorem spared_delete (h : ∀ m ∈ s.messages, doomed m = true → expired now m = true) :
    Spared now s (deleteMessages s doomed) := by
  have hdead {id : Nat} (hf : (!dead s doomed id) = false) :
      dead s (expired now) id = true := by
    rw [Bool.not_eq_false'] at hf
    exact dead_mono h hf
  refine ⟨lost_filter ?_, lost_filter ?_, lost_filter ?_, lost_filter ?_, lost_filter ?_,
    lost_refl⟩
  · intro m hm hf
    rw [Bool.not_eq_false'] at hf
    exact h m hm hf
  · intro a _ hf
    exact hdead hf
  · intro x _ hf
    rw [Bool.not_eq_false', List.any_eq_true] at hf
    obtain ⟨a, ha, hand⟩ := hf
    rw [Bool.and_eq_true, beq_iff_eq] at hand
    exact ⟨a, ha, hand.1, dead_mono h hand.2⟩
  · intro q _ hf
    exact hdead hf
  · intro l _ hf
    exact hdead hf

theorem proceed_tables (s : State) (now : Nat) (ms : List Nat) :
    (proceed s now ms).messages = s.messages ∧
    (proceed s now ms).attachments = s.attachments ∧
    (proceed s now ms).downloads = s.downloads ∧ (proceed s now ms).outbox = s.outbox ∧
    (proceed s now ms).links = s.links ∧ (proceed s now ms).files = s.files ∧
    (proceed s now ms).erased = s.erased := by
  cases ms <;> exact ⟨rfl, rfl, rfl, rfl, rfl, rfl, rfl⟩

theorem lost_remove {p : Nat} {ok : Bool} {allowed : Nat → Prop} (h : allowed p) :
    Lost allowed s.files (remove s p ok) := by
  unfold remove
  split
  · refine lost_filter fun x _ hx => ?_
    simp only [bne_eq_false_iff_eq] at hx
    exact hx ▸ h
  · exact lost_refl

theorem spared_expire : Spared now s (expire client s now) := by
  cases client with
  | desktop =>
    unfold expire
    obtain ⟨hm, ha, hd, ho, hl, hf, -⟩ := proceed_tables s now _
    refine spared_files hm ha hd ho hl ?_
    rw [hf]
    exact lost_refl
  | android => exact spared_files rfl rfl rfl rfl rfl lost_refl

theorem spared_unlink (h : Sound s) {ok : Bool} (hp : PassStep s now (.unlink ok)) :
    Spared now s (unlink s ok) := by
  have hc := h.coherent
  unfold Coherent at hc
  simp only [PassStep] at hp
  unfold unlink
  split
  next time ms p ps heq =>
    rw [heq] at hc hp
    subst hp
    obtain ⟨-, honly, hpaths⟩ := hc
    obtain ⟨a, ha, hid, hhead⟩ := hpaths p List.mem_cons_self
    refine spared_files rfl rfl rfl rfl rfl (lost_remove ⟨a, ha, hid, ?_⟩)
    obtain ⟨m, hm, hmessage⟩ := h.tables.attachments a ha
    refine dead_iff.mpr ⟨m, hm, hmessage, honly m hm ?_⟩
    rw [hmessage]
    exact List.mem_of_mem_head? hhead
  next time p ps heq =>
    rw [heq] at hc hp
    subst hp
    obtain ⟨a, ha, hid, hd⟩ := hc p List.mem_cons_self
    exact spared_files rfl rfl rfl rfl rfl (lost_remove ⟨a, ha, hid, hd⟩)
  next => exact spared_files rfl rfl rfl rfl rfl lost_refl

theorem Spared.proceed {t : State} {ms : List Nat} {time : Nat} (h : Spared now s t) :
    Spared now s (proceed t time ms) := by
  obtain ⟨hm, ha, hd, ho, hl, hf, -⟩ := proceed_tables t time _
  refine ⟨?_, ?_, ?_, ?_, ?_, ?_⟩
  · rw [hm]
    exact h.messages
  · rw [ha]
    exact h.attachments
  · rw [hd]
    exact h.downloads
  · rw [ho]
    exact h.outbox
  · rw [hl]
    exact h.links
  · rw [hf]
    exact h.files

theorem spared_step (h : Sound s) (hp : PassStep s now e) : Spared now s (next client s e) := by
  cases e with
  | expire time =>
    cases hp
    exact spared_expire
  | unlink ok => exact spared_unlink h hp
  | delete =>
    have hc := h.coherent
    unfold Coherent at hc
    simp only [PassStep] at hp
    change Spared now s (delete s)
    unfold delete
    split
    next time id ms heq =>
      rw [heq] at hc hp
      subst hp
      refine (spared_delete fun m hm hid => ?_).proceed
      rw [beq_iff_eq] at hid
      exact hc.2.1 m hm (by rw [hid]; exact List.mem_cons_self)
    next time heq =>
      rw [heq] at hp
      subst hp
      have hs : Spared time s (deleteMessages s (expired time)) := spared_delete fun _ _ hm => hm
      exact ⟨hs.messages, hs.attachments, hs.downloads, hs.outbox, hs.links, hs.files⟩
    next => exact spared_files rfl rfl rfl rfl rfl lost_refl
  | _ => exact hp.elim

/-- When a pass is over no message is left that had expired. -/
theorem pass_complete (h : Sound s) (he : Enabled client s e) (hp : PassStep s now e)
    (hi : (next client s e).activity = .idle) :
    ∀ m ∈ (next client s e).messages, expired now m = false := by
  have hproceed {t : State} {ms : List Nat} (hi : (proceed t now ms).activity = .idle) :
      ms = [] := by
    cases ms with
    | nil => rfl
    | cons id ms => cases hi
  intro m hm
  by_contra hexp
  rw [Bool.not_eq_false] at hexp
  cases e with
  | expire time =>
    cases hp
    cases client with
    | desktop =>
      have hnone := hproceed hi
      have hin : m ∈ s.messages.filter (expired now) := by
        refine List.mem_filter.mpr ⟨?_, hexp⟩
        exact (proceed_tables s _ _).1 ▸ hm
      rw [List.map_eq_nil_iff] at hnone
      rw [hnone] at hin
      cases hin
    | android => cases hi
  | unlink ok =>
    simp only [Enabled] at he
    simp only [next, unlink] at hi
    split at he
    next heq =>
      rw [heq] at hi
      cases hi
    next heq =>
      rw [heq] at hi
      cases hi
    next => exact he
  | delete =>
    have hc := h.coherent
    unfold Coherent at hc
    simp only [PassStep] at hp
    simp only [next, delete] at hi hm
    split at hi
    next time id ms heq =>
      rw [heq] at hc hp hm
      subst hp
      have hms := hproceed hi
      subst hms
      obtain ⟨hm, hne⟩ := List.mem_filter.mp hm
      have hid := hc.1 m hm hexp
      rw [List.mem_singleton] at hid
      simp [hid] at hne
    next time heq =>
      rw [heq] at hp hm
      subst hp
      obtain ⟨hm, hne⟩ := List.mem_filter.mp hm
      rw [hexp] at hne
      cases hne
    next => simp only [Enabled, hi] at he
  | _ => exact hp

end Passes

/-! ## What a pass leaves -/

/-- Every file that the pass still has to delete is on its list. -/
def Listed (s : State) : Prop :=
  match s.activity with
  | .idle | .fetched _ | .recorded _ => True
  | .expiring _ ms ps =>
    (∀ a ∈ s.attachments, ms.head? = some a.messageId → a.attachmentId ∈ s.files →
      a.attachmentId ∈ ps) ∧
    ∀ a ∈ s.attachments, a.messageId ∈ ms.tail → a.attachmentId ∈ s.files →
      a.localPath = some a.attachmentId
  | .sweeping now ps =>
    ∀ a ∈ s.attachments, dead s (expired now) a.messageId = true → a.attachmentId ∈ s.files →
      a.attachmentId ∈ ps

structure Swept (s : State) : Prop where
  clean : Clean s
  listed : Listed s

section Files

variable {client : Client} {s : State} {e : Event} {now : Nat} {doomed : Message → Bool}

theorem Swept.of_idle (h : Clean s) (hi : s.activity = .idle) : Swept s := by
  refine ⟨h, ?_⟩
  unfold Listed
  rw [hi]
  trivial

/-- Nothing was erased or deleted, and what was there is still named. -/
theorem Clean.mono {t : State} (h : Clean s) (he : t.erased = s.erased)
    (ha : ∀ a ∈ s.attachments, ∃ b ∈ t.attachments, b.attachmentId = a.attachmentId)
    (hf : ∀ x ∈ t.files, x ∈ s.files ∨ x ∉ s.erased ∨
      ∃ a ∈ t.attachments, a.attachmentId = x) : Clean t := by
  intro x hx hfile
  rw [he] at hx
  obtain hold | hnew | hnamed := hf x hfile
  · obtain ⟨a, hmem, rfl⟩ := h x hx hold
    exact ha a hmem
  · exact absurd hx hnew
  · exact hnamed

theorem clean_delete (h : Clean s)
    (hgone : ∀ a ∈ s.attachments, dead s doomed a.messageId = true →
      a.attachmentId ∉ s.files) : Clean (deleteMessages s doomed) := by
  intro x hx hfile
  have hlive {a : Attachment} (ha : a ∈ s.attachments) (hid : a.attachmentId = x) :
      ∃ b ∈ (deleteMessages s doomed).attachments, b.attachmentId = x := by
    refine ⟨a, mem_kept.mpr ⟨ha, ?_⟩, hid⟩
    by_contra hd
    rw [Bool.not_eq_false] at hd
    exact hgone a ha hd (hid ▸ hfile)
  obtain hx | hx := List.mem_append.mp hx
  · obtain ⟨a, ha, hid⟩ := h x hx hfile
    exact hlive ha hid
  · obtain ⟨a, ha, rfl⟩ := List.mem_map.mp hx
    obtain ⟨ha, hd⟩ := List.mem_filter.mp ha
    exact absurd hfile (hgone a ha hd)

theorem mem_remove {x p : Nat} {ok : Bool} (h : x ∈ remove s p ok) : x ∈ s.files := by
  unfold remove at h
  split at h
  · exact List.mem_of_mem_filter h
  · exact h

theorem not_mem_remove {p : Nat} {ok : Bool} (h : ok = true ∨ p ∉ s.files) :
    p ∉ remove s p ok := by
  intro hmem
  obtain rfl | hno := h
  · obtain ⟨-, hne⟩ := List.mem_filter.mp hmem
    simp at hne
  · exact hno (mem_remove hmem)

/-- The files of the loop's next message are found through their paths. -/
theorem swept_proceed (h : Clean s) {ms : List Nat}
    (hpaths : ∀ a ∈ s.attachments, a.messageId ∈ ms → a.attachmentId ∈ s.files →
      a.localPath = some a.attachmentId) : Swept (proceed s now ms) := by
  cases ms with
  | nil => exact .of_idle h rfl
  | cons id ms =>
    refine ⟨h, fun a ha hhead hfile => ?_, fun a ha hrest => ?_⟩
    · have hid : id = a.messageId := Option.some.inj hhead
      refine mem_pathsOf.mpr ⟨a, ha, hid.symm, hpaths a ha ?_ hfile⟩
      rw [hid]
      exact List.mem_cons_self
    · exact hpaths a ha (List.mem_cons_of_mem _ hrest)

theorem swept_expire (h : Clean s) (hc : Careful client s (.expire now)) :
    Swept (expire client s now) := by
  cases client with
  | desktop =>
    refine swept_proceed h fun a ha hmem hfile => ?_
    obtain ⟨m, hm, hid⟩ := List.mem_map.mp hmem
    obtain ⟨hm, hexp⟩ := List.mem_filter.mp hm
    exact hc rfl a ha (dead_iff.mpr ⟨m, hm, hid, hexp⟩) hfile
  | android =>
    refine ⟨h, fun a ha hd _ => ?_⟩
    exact List.mem_map_of_mem (List.mem_filter.mpr ⟨ha, hd⟩)

theorem swept_unlink (h : Swept s) {ok : Bool} (hc : Careful client s (.unlink ok)) :
    Swept (unlink s ok) := by
  obtain ⟨hclean, hl⟩ := h
  have hsame := hl
  unfold Listed at hl
  simp only [Careful] at hc
  have hmono {p : Nat} {activity : Activity} :
      Clean { s with files := remove s p ok, activity := activity } :=
    hclean.mono rfl (fun a ha => ⟨a, ha, rfl⟩) fun x hx => .inl (mem_remove hx)
  -- the file on top of the list is gone, so the others are all that is left
  have hrest {x p : Nat} {ps : List Nat} (hp : ok = true ∨ p ∉ s.files) (hx : x ∈ remove s p ok)
      (hmem : x ∈ p :: ps) : x ∈ ps := by
    obtain rfl | hmem := List.mem_cons.mp hmem
    · exact absurd hx (not_mem_remove hp)
    · exact hmem
  unfold unlink
  split
  next time ms p ps heq =>
    rw [heq] at hl hc
    refine ⟨hmono, fun a ha hhead hfile => ?_, fun a ha hin hfile => ?_⟩
    · exact hrest hc hfile (hl.1 a ha hhead (mem_remove hfile))
    · exact hl.2 a ha hin (mem_remove hfile)
  next time p ps heq =>
    rw [heq] at hl hc
    exact ⟨hmono, fun a ha hd hfile => hrest hc hfile (hl a ha hd (mem_remove hfile))⟩
  next => exact ⟨hclean, hsame⟩

theorem swept_delete (h : Swept s) : Swept (delete s) := by
  obtain ⟨hclean, hl⟩ := h
  have hsame := hl
  unfold Listed at hl
  unfold delete
  split
  next time id ms heq =>
    rw [heq] at hl
    obtain ⟨hhead, htail⟩ := hl
    refine swept_proceed (clean_delete hclean fun a ha hd hfile => ?_) fun a ha hin hfile => ?_
    · obtain ⟨m, -, hid, hm⟩ := dead_iff.mp hd
      rw [beq_iff_eq] at hm
      have hnone := hhead a ha (by rw [← hid, hm]; rfl) hfile
      cases hnone
    · exact htail a (mem_kept.mp ha).1 hin hfile
  next time heq =>
    rw [heq] at hl
    have hd := clean_delete hclean fun a ha hd hfile => List.not_mem_nil (hl a ha hd hfile)
    exact .of_idle hd rfl
  next => exact ⟨hclean, hsame⟩

theorem clean_setPath (h : Clean s) (x : Nat) : Clean (setPath s x) := by
  refine h.mono rfl (fun a ha => ?_) fun y hy => .inl hy
  obtain ⟨b, hb, hid, -⟩ := mem_setPath (x := x) ha
  exact ⟨b, hb, hid⟩

theorem swept_next (h : Sound s) (hs : Swept s)
    (he : ((system client).Within (Careful client)).Enabled s e) : Swept (next client s e) := by
  obtain ⟨he, hc⟩ := he
  have hclean := hs.clean
  cases e with
  | receive m attachment remote =>
    refine .of_idle (hclean.mono rfl (fun a ha => ?_) fun x hx => .inl hx) he.1
    exact ⟨a, List.mem_append_left _ ha, rfl⟩
  | cache x =>
    refine .of_idle (hclean.mono rfl (fun a ha => ⟨a, ha, rfl⟩) fun y hy => ?_) he.1
    obtain rfl | hy := List.mem_cons.mp hy
    · exact .inr (.inl he.2.2.1)
    · exact .inl hy
  | send m envelope attachment =>
    refine .of_idle (hclean.mono rfl (fun a ha => ?_) fun x hx => .inl hx) he.1
    exact ⟨a, List.mem_append_left _ ha, rfl⟩
  | sent envelope => exact .of_idle hclean he.1
  | fetch x time =>
    refine ⟨hclean.mono rfl (fun a ha => ⟨a, ha, rfl⟩) fun y hy => ?_, trivial⟩
    obtain rfl | hy := List.mem_cons.mp hy
    · exact .inr (.inr (h.tables.downloads y he.2.1))
    · exact .inl hy
  | record =>
    change Swept (record client s)
    unfold record
    split
    next x heq =>
      cases client with
      | desktop => exact .of_idle (clean_setPath hclean x) rfl
      | android => exact ⟨clean_setPath hclean x, trivial⟩
    next x heq => exact .of_idle hclean rfl
    next => exact hs
  | expire time => exact swept_expire hclean hc
  | unlink ok => exact swept_unlink hs hc
  | delete => exact swept_delete hs
  | crash => exact .of_idle hclean rfl

/-- Rows of a deleted message are gone and nothing else is, in every run. No cached file of its
attachments stays where the desktop's paths were recorded and no unlink failed. -/
theorem expiry_leaves_nothing (client : Client) (s : State) :
    (Reachable (system client) s →
      (∀ id, (∀ m ∈ s.messages, m.messageId ≠ id) → Unreferenced s id) ∧
      ∀ e now, Enabled client s e → PassStep s now e →
        Spared now s (next client s e) ∧
        ((next client s e).activity = .idle →
          ∀ m ∈ (next client s e).messages, expired now m = false)) ∧
    (Reachable ((system client).Within (Careful client)) s → Clean s) := by
  refine ⟨fun h => ?_, fun h => ?_⟩
  · have hs := reachable_sound h
    refine ⟨fun id hid => hs.tables.unreferenced hid, fun e now he hp => ⟨spared_step hs hp, ?_⟩⟩
    exact pass_complete hs he hp
  · have hboth : Sound s ∧ Swept s := by
      refine reachable_invariant (I := fun s => Sound s ∧ Swept s) ?_ (fun s e hs he => ?_) h
      · rintro s rfl
        exact ⟨.of_idle tables_initial rfl, .of_idle (fun x hx => by cases hx) rfl⟩
      · exact ⟨sound_next hs.1 he.1, swept_next hs.1 hs.2 he⟩
    exact hboth.2.clean

/-- A sent file is deleted with its message, a received one of another message stays. -/
def passed : List Event :=
  [.cache 7, .send ⟨1, some 5⟩ 1 (some 7), .receive ⟨2, none⟩ (some 8) (some 3), .fetch 8 0,
    .record, .expire 9, .unlink true, .delete]

theorem passed_clean :
    ((system .desktop).replay initial passed).files = [8] ∧
    ((system .desktop).replay initial passed).erased = [7] ∧
    Clean ((system .desktop).replay initial passed) ∧
    Unreferenced ((system .desktop).replay initial passed) 1 := by
  have hvalid : ((system .desktop).Within (Careful .desktop)).Valid initial passed := by
    simp only [passed, System.Valid, System.Within, system]
    refine ⟨?_, ?_, ?_, ?_, ?_, ?_, ?_, ?_, trivial⟩
    · exact ⟨⟨rfl, by decide, by decide, by decide⟩, trivial⟩
    · exact ⟨⟨rfl, by decide, by decide, by decide⟩, trivial⟩
    · exact ⟨⟨rfl, by decide⟩, trivial⟩
    · exact ⟨⟨rfl, by decide, by decide⟩, trivial⟩
    · exact ⟨trivial, trivial⟩
    · exact ⟨rfl, fun _ => by decide⟩
    · exact ⟨trivial, .inl rfl⟩
    · exact ⟨trivial, trivial⟩
  have hreach : Reachable ((system .desktop).Within (Careful .desktop))
      (((system .desktop).Within (Careful .desktop)).replay initial passed) :=
    valid_trace_reachable (reachable_initial rfl) hvalid
  have hboth := expiry_leaves_nothing .desktop
    (((system .desktop).Within (Careful .desktop)).replay initial passed)
  exact ⟨by decide, by decide, hboth.2 hreach, (hboth.1 (within_reachable hreach)).1 1 (by decide)⟩

/-- The process ends between caching a download's file and recording its path. -/
def interrupted : List Event :=
  [.receive ⟨1, some 5⟩ (some 7) none, .fetch 7 0, .crash, .expire 9, .delete]

def undeletable : List Event :=
  [.receive ⟨1, some 5⟩ (some 7) none, .fetch 7 0, .record, .record, .expire 9, .unlink false,
    .delete]

/-- The desktop's loop does not see the file, and the deletion that fails on Android is not
repeated: the rows are gone and the file is left. -/
theorem interrupted_leaves_file :
    ((system .desktop).Valid initial interrupted ∧
      ¬ Clean ((system .desktop).replay initial interrupted)) ∧
    ((system .android).Valid initial undeletable ∧
      ¬ Clean ((system .android).replay initial undeletable)) := by
  refine ⟨⟨?_, by decide⟩, ⟨?_, by decide⟩⟩
  · refine ⟨⟨rfl, by decide⟩, ⟨rfl, by decide, by decide⟩, trivial, rfl, trivial, trivial⟩
  · exact ⟨⟨rfl, by decide⟩, ⟨rfl, by decide, by decide⟩, trivial, trivial, rfl, trivial,
      trivial, trivial⟩

end Files

end MessageExpiry
