import CryptoPigeon.OnionListener
import Mathlib.Data.Option.Basic

/-! # Whether a failed send leaves the database as it was

`sendMessage` of the desktop with every operation that may throw, and the spool cleanup that
reads the table one of its writes goes to. The Signal tables are a value of any type `σ`. -/
namespace SendAtomicity

structure Manifest where
  attachmentId : String
  blobId : String
  originalFilename : String
  totalPlaintextSize : Nat
  chunkCount : Nat
  chunkNonces : List String
  fullFileDigest : String
  attachmentKey : String
  deriving DecidableEq

structure Contact where
  contactId : String
  identityChanged : Int
  deriving DecidableEq

structure Remote where
  contactId : String
  userId : String
  deviceId : String
  signalDeviceId : Nat
  deriving DecidableEq

structure Conversation where
  conversationId : String
  contactId : String
  disappearingSeconds : Option Nat
  deriving DecidableEq

structure Message where
  messageId : String
  conversationId : String
  direction : OnionListener.Direction
  plaintext : String
  sentAt : Int
  status : String
  disappearAt : Option Int
  deriving DecidableEq

structure OutboxRow where
  envelopeId : String
  messageId : String
  mailboxId : String
  ciphertext : String
  createdAt : Int
  deriving DecidableEq

structure Attachment where
  attachmentId : String
  messageId : String
  encryptedLocalPath : String
  fileNameEncrypted : String
  fileSize : Nat
  fileHash : String
  fileKey : String
  deriving DecidableEq

structure Link where
  attachmentId : String
  blobId : String
  deriving DecidableEq

structure Blob where
  blobId : String
  chunkCount : Nat
  totalSize : Nat
  createdAt : Int
  deriving DecidableEq

structure Chunk where
  blobId : String
  chunkIndex : Nat
  nonce : String
  ciphertext : String
  deriving DecidableEq

structure Database (σ : Type) where
  contacts : List Contact
  remotes : List Remote
  conversations : List Conversation
  messages : List Message
  signal : σ
  outbox : List OutboxRow
  attachments : List Attachment
  links : List Link
  blobs : List Blob
  chunks : List Chunk
  downloads : List String
  downloadChunks : List Chunk
  deriving DecidableEq

/-- The operations of `sendMessage` that may throw for a reason outside the database. -/
inductive Step where
  | lookup
  | profile
  | link
  | begin
  | encrypt
  | message
  | outbox
  | attachment
  | commit
  deriving DecidableEq

/-- A call, with the random ids and the clock it takes, whether its manifest passes the schema
and the relay client has Tor routing, and what throws. -/
structure Call where
  conversationId : String
  plaintext : String
  manifest : Option Manifest
  wellFormed : Bool
  torRouting : Bool
  messageId : String
  envelopeId : String
  payload : String
  fileNameEncrypted : String
  now : Int
  throws : Step → Bool

/-- Whether the call has returned to its caller's `await` or thrown, before any flush. -/
inductive Result (σ : Type) where
  | threw (d : Database σ)
  | committed (d : Database σ)
  deriving DecidableEq

structure Destination where
  contactId : String
  userId : String
  deviceId : String
  signalDeviceId : Nat
  identityChanged : Int
  disappearingSeconds : Option Nat

variable {σ : Type}

def destination (conversationId : String) (d : Database σ) : Option Destination := do
  let c ← d.conversations.find? (fun c => c.conversationId == conversationId)
  let r ← d.remotes.find? (fun r => r.contactId == c.contactId)
  let k ← d.contacts.find? (fun k => k.contactId == c.contactId)
  return ⟨c.contactId, r.userId, r.deviceId, r.signalDeviceId, k.identityChanged,
    c.disappearingSeconds⟩

/-- `dest.disappearing_seconds ? now + seconds * 1000 : null`. -/
def disappearAt (dest : Destination) (now : Int) : Option Int :=
  dest.disappearingSeconds.bind fun s => if s = 0 then none else some (now + s * 1000)

/-- `INSERT OR REPLACE INTO tor_attachment_links`. -/
def replaceLink (m : Manifest) (d : Database σ) : Database σ :=
  if ⟨m.attachmentId, m.blobId⟩ ∈ d.links then d
  else { d with
    links := d.links.filter (fun l => l.attachmentId != m.attachmentId) ++
      [⟨m.attachmentId, m.blobId⟩] }

section Send

-- `encryptPayload`: the message type and bytes together, and the advanced Signal tables.
variable (encrypt : σ → String → Nat → String → Option (String × σ))

/-- The statements between `BEGIN IMMEDIATE` and `COMMIT`; `none` is a throw. -/
def transaction (c : Call) (dest : Destination) (d : Database σ) : Option (Database σ) := do
  guard (c.throws .encrypt = false)
  let (combined, signal) ← encrypt d.signal dest.userId dest.signalDeviceId c.payload
  guard (c.throws .message = false ∧ ∀ m ∈ d.messages, m.messageId ≠ c.messageId)
  let message := ⟨c.messageId, c.conversationId, .sent, c.plaintext, c.now, "queued",
    disappearAt dest c.now⟩
  guard (c.throws .outbox = false ∧
    ∀ o ∈ d.outbox, o.envelopeId ≠ c.envelopeId ∧ o.messageId ≠ c.messageId)
  let row := ⟨c.envelopeId, c.messageId, dest.deviceId, combined, c.now⟩
  guard (c.manifest.isSome → c.throws .attachment = false)
  guard (∀ m ∈ c.manifest, ∀ a ∈ d.attachments, a.attachmentId ≠ m.attachmentId)
  let added := c.manifest.toList.map fun m =>
    ⟨m.attachmentId, c.messageId, "attachments/" ++ m.attachmentId, c.fileNameEncrypted,
      m.totalPlaintextSize, m.fullFileDigest, m.attachmentKey⟩
  guard (c.throws .commit = false)
  return { d with
    signal := signal
    messages := d.messages ++ [message]
    outbox := d.outbox ++ [row]
    attachments := d.attachments ++ added }

/-- The link of the attachment is written before the transaction begins. -/
def linkAttachment (c : Call) (d : Database σ) : Option (Database σ) :=
  match c.manifest with
  | none => some d
  | some m =>
    if c.torRouting then
      if c.throws .link then none else some (replaceLink m d)
    else some d

def sendMessage (c : Call) (d : Database σ) : Result σ :=
  if c.manifest.isSome ∧ c.wellFormed = false then .threw d
  else if c.throws .lookup then .threw d
  else match destination c.conversationId d with
    | none => .threw d
    | some dest =>
      if dest.identityChanged = 1 then .threw d
      else if c.throws .profile then .threw d
      else match linkAttachment c d with
        | none => .threw d
        | some linked =>
          if c.throws .begin then .threw linked
          else match transaction encrypt c dest linked with
            | none => .threw linked
            | some sent => .committed sent

end Send

def linked (blobId : String) (d : Database σ) : Bool := d.links.any (fun l => l.blobId == blobId)

/-- A link whose attachment row is missing. -/
def orphaned (l : Link) (d : Database σ) : Bool :=
  d.attachments.all (fun a => a.attachmentId != l.attachmentId)

def spooled (now : Int) (b : Blob) (d : Database σ) : Bool :=
  !d.links.any (fun l => l.blobId == b.blobId && orphaned l d) &&
  !(decide (b.createdAt < now - 86400000) && !linked b.blobId d)

/-- `cleanupTorSpool`; the chunks of a deleted blob go with it. -/
def cleanupTorSpool (now : Int) (d : Database σ) : Database σ :=
  let blobs := d.blobs.filter (fun b => spooled now b d)
  { d with
    blobs := blobs
    chunks := d.chunks.filter (fun k => blobs.any (fun b => b.blobId == k.blobId))
    links := d.links.filter (fun l => !orphaned l d)
    downloadChunks := d.downloadChunks.filter (fun k => d.downloads.contains k.blobId) }

/-- The tables that the onion listener reads. -/
def served (d : Database σ) : OnionListener.Database where
  peers := []
  contacts := d.contacts.map fun c => ⟨c.contactId, c.identityChanged⟩
  conversations := d.conversations.map fun c => ⟨c.conversationId, c.contactId⟩
  messages := d.messages.map fun m => ⟨m.messageId, m.conversationId, m.direction, m.disappearAt⟩
  attachments := d.attachments.map fun a => ⟨a.attachmentId, a.messageId⟩
  links := d.links.map fun l => ⟨l.attachmentId, l.blobId⟩
  chunks := d.chunks.map fun k => ⟨k.blobId, k.chunkIndex, k.nonce, k.ciphertext⟩
  inbox := []

/-- The bytes of the manifest are in the spool. -/
def HasChunks (m : Manifest) (d : Database σ) : Prop :=
  ∀ i < m.chunkCount, ∃ k ∈ d.chunks, k.blobId = m.blobId ∧ k.chunkIndex = i

instance (m : Manifest) (d : Database σ) : Decidable (HasChunks m d) :=
  inferInstanceAs (Decidable (∀ i < m.chunkCount, ∃ k ∈ d.chunks, _))

/-- The contact can fetch every chunk of the manifest from this device. -/
def Downloadable (m : Manifest) (contactId : String) (now : Int) (d : Database σ) : Prop :=
  OnionListener.Linked contactId m.blobId now (served d) ∧ HasChunks m d

section Atomic

variable (encrypt : σ → String → Nat → String → Option (String × σ))

/-- A call that throws has changed nothing; and after a cleanup of the spool, a retry with
the manifest that commits leaves an attachment that the contact can download, if its bytes
would have survived the cleanup without the call. -/
def Atomic (c : Call) (d : Database σ) : Prop :=
  ∀ f, sendMessage encrypt c d = .threw f →
    f = d ∧
    ∀ m dest retry now g, c.manifest = some m → destination c.conversationId d = some dest →
      retry.manifest = some m → retry.torRouting = true →
      retry.conversationId = c.conversationId →
      sendMessage encrypt retry (cleanupTorSpool now f) = .committed g →
      HasChunks m (cleanupTorSpool now d) → Downloadable m dest.contactId retry.now g

/-- Some operation after the link's insert throws. -/
def Fails (c : Call) (dest : Destination) (d : Database σ) : Prop :=
  c.throws .begin = true ∨ c.throws .encrypt = true ∨
  encrypt d.signal dest.userId dest.signalDeviceId c.payload = none ∨
  c.throws .message = true ∨ (∃ m ∈ d.messages, m.messageId = c.messageId) ∨
  c.throws .outbox = true ∨
  (∃ o ∈ d.outbox, o.envelopeId = c.envelopeId ∨ o.messageId = c.messageId) ∨
  c.manifest.isSome ∧ c.throws .attachment = true ∨
  (∃ m ∈ c.manifest, ∃ a ∈ d.attachments, a.attachmentId = m.attachmentId) ∨
  c.throws .commit = true

/-- The call reaches the insert of a new link and fails after it. -/
def LeavesLink (c : Call) (d : Database σ) : Prop :=
  ∃ m dest, c.manifest = some m ∧ c.wellFormed = true ∧ c.torRouting = true ∧
    c.throws .lookup = false ∧ destination c.conversationId d = some dest ∧
    dest.identityChanged ≠ 1 ∧ c.throws .profile = false ∧ c.throws .link = false ∧
    Fails encrypt c dest d ∧ ⟨m.attachmentId, m.blobId⟩ ∉ d.links

end Atomic

variable {encrypt : σ → String → Nat → String → Option (String × σ)} {c : Call}
  {d linked sent : Database σ} {dest : Destination} {m : Manifest}

theorem guard_bind_none {p : Prop} [Decidable p] {α : Type} {f : Unit → Option α} :
    ((guard p : Option Unit) >>= f) = none ↔ (p → f () = none) := by
  by_cases h : p
  · simp [guard, h]
  · simp [guard, h, failure]

theorem transaction_none_iff :
    (c.throws .begin = true ∨ transaction encrypt c dest d = none) ↔ Fails encrypt c dest d := by
  unfold Fails transaction
  refine or_congr Iff.rfl ?_
  rw [guard_bind_none]
  cases he : encrypt d.signal dest.userId dest.signalDeviceId c.payload with
  | none => simp
  | some out =>
    simp only [Option.bind_eq_bind, Option.bind_some]
    simp only [← Option.bind_eq_bind, guard_bind_none]
    simp
    grind

theorem replaceLink_mem : ⟨m.attachmentId, m.blobId⟩ ∈ (replaceLink m d).links := by
  unfold replaceLink
  split
  · assumption
  · exact List.mem_append_right _ List.mem_cons_self

/-- The link row is all that `linkAttachment` can change. -/
theorem linkAttachment_frame (h : linkAttachment c d = some linked) :
    linked = { d with links := linked.links } := by
  unfold linkAttachment replaceLink at h
  split at h
  · cases h
    rfl
  split at h
  · split at h
    · cases h
    · cases h
      split <;> rfl
  · cases h
    rfl

/-- What a committed transaction has written, and what it has not touched. -/
structure Committed (c : Call) (dest : Destination) (d sent : Database σ) : Prop where
  message : ⟨c.messageId, c.conversationId, .sent, c.plaintext, c.now, "queued",
    disappearAt dest c.now⟩ ∈ sent.messages
  attachment : ∀ m, c.manifest = some m →
    ∃ a ∈ sent.attachments, a.attachmentId = m.attachmentId ∧ a.messageId = c.messageId
  conversations : sent.conversations = d.conversations
  links : sent.links = d.links
  chunks : sent.chunks = d.chunks

theorem transaction_committed (h : transaction encrypt c dest d = some sent) :
    Committed c dest d sent := by
  simp only [transaction, Option.bind_eq_bind, Option.bind_eq_some_iff, Option.guard_eq_some',
    Option.pure_def, Option.some.injEq] at h
  obtain ⟨_, -, out, -, _, -, _, -, _, -, _, -, _, -, rfl⟩ := h
  refine ⟨by simp, fun m hm => ?_, rfl, rfl, rfl⟩
  exact ⟨_, List.mem_append_right _ (by rw [hm]; exact List.mem_cons_self), rfl, rfl⟩

theorem destination_conversation {conversationId : String}
    (h : destination conversationId d = some dest) :
    ∃ k ∈ d.conversations, k.conversationId = conversationId ∧ k.contactId = dest.contactId := by
  simp only [destination, Option.bind_eq_bind, Option.bind_eq_some_iff, Option.pure_def,
    Option.some.injEq] at h
  obtain ⟨k, hk, r, -, contact, -, rfl⟩ := h
  exact ⟨k, List.mem_of_find?_eq_some hk, by simpa using List.find?_some hk, rfl⟩

theorem disappearAt_later {t now : Int} (h : disappearAt dest now = some t) : now < t := by
  simp only [disappearAt, Option.bind_eq_some_iff] at h
  obtain ⟨s, -, h⟩ := h
  split at h
  · cases h
  · cases h
    omega

/-- A committed message with a manifest can be downloaded if its bytes are spooled. -/
theorem committed_downloadable (h : sendMessage encrypt c d = .committed sent)
    (hm : c.manifest = some m) (htor : c.torRouting = true) (hchunks : HasChunks m d)
    (hdest : destination c.conversationId d = some dest) :
    Downloadable m dest.contactId c.now sent := by
  unfold sendMessage at h
  split at h
  · cases h
  split at h
  · cases h
  rw [hdest] at h
  dsimp only at h
  split at h
  · cases h
  split at h
  · cases h
  split at h
  · cases h
  rename_i linked hlinked
  split at h
  · cases h
  split at h
  · cases h
  rename_i hsent
  cases h
  have written := transaction_committed hsent
  have frame := linkAttachment_frame hlinked
  have link : ⟨m.attachmentId, m.blobId⟩ ∈ linked.links := by
    rw [linkAttachment, hm] at hlinked
    simp only [htor, if_true] at hlinked
    split at hlinked
    · cases hlinked
    · cases hlinked
      exact replaceLink_mem
  obtain ⟨a, ha, haid, hamessage⟩ := written.attachment m hm
  obtain ⟨k, hk, hkid, hkcontact⟩ := destination_conversation hdest
  have hk' : k ∈ sent.conversations := by
    rw [written.conversations, frame]
    exact hk
  refine ⟨⟨_, List.mem_map_of_mem ha, _, List.mem_map_of_mem written.message, _,
    List.mem_map_of_mem hk', _, List.mem_map_of_mem (written.links ▸ link), hamessage.symm, hkid,
    hkcontact, rfl, fun t ht => disappearAt_later ht, haid.symm, rfl⟩, fun i hi => ?_⟩
  rw [written.chunks, frame]
  exact hchunks i hi

theorem replaceLink_ne (h : ⟨m.attachmentId, m.blobId⟩ ∉ d.links) : replaceLink m d ≠ d :=
  fun e => h (e ▸ replaceLink_mem)

theorem cleanupTorSpool_destination (conversationId : String) (now : Int) :
    destination conversationId (cleanupTorSpool now d) = destination conversationId d := rfl

/-- A call that throws leaves the database alone unless it leaves a link behind. -/
theorem sendMessage_threw {f : Database σ} (h : sendMessage encrypt c d = .threw f)
    (hleft : ¬LeavesLink encrypt c d) : f = d := by
  unfold sendMessage at h
  split at h
  · cases h
    rfl
  rename_i hformed
  split at h
  · cases h
    rfl
  rename_i hlookup
  split at h
  · cases h
    rfl
  rename_i dest hdest
  split at h
  · cases h
    rfl
  rename_i hidentity
  split at h
  · cases h
    rfl
  rename_i hprofile
  split at h
  · cases h
    rfl
  rename_i linked hlinked
  have late : linked = f ∧ Fails encrypt c dest linked := by
    split at h
    · rename_i hbegin
      cases h
      exact ⟨rfl, .inl hbegin⟩
    split at h
    · rename_i hnone
      cases h
      exact ⟨rfl, transaction_none_iff.mp (.inr hnone)⟩
    · cases h
  obtain ⟨rfl, hfails⟩ := late
  have frame := linkAttachment_frame hlinked
  have fails : Fails encrypt c dest d := by
    rw [frame] at hfails
    exact hfails
  unfold linkAttachment at hlinked
  split at hlinked
  · cases hlinked
    rfl
  rename_i m hm
  split at hlinked
  · rename_i htor
    split at hlinked
    · cases hlinked
    rename_i hthrows
    cases hlinked
    by_cases hmem : ⟨m.attachmentId, m.blobId⟩ ∈ d.links
    · rw [replaceLink, if_pos hmem]
    · refine absurd ⟨m, dest, hm, ?_, htor, by simpa using hlookup, hdest, hidentity,
        by simpa using hprofile, by simpa using hthrows, fails, hmem⟩ hleft
      by_contra hbad
      exact hformed ⟨by rw [hm]; rfl, by simpa using hbad⟩
  · cases hlinked
    rfl

/-- What a call does that reaches the link's insert and fails after it. -/
theorem leavesLink_threw (h : LeavesLink encrypt c d) :
    ∃ m, ⟨m.attachmentId, m.blobId⟩ ∉ d.links ∧
      sendMessage encrypt c d = .threw (replaceLink m d) := by
  obtain ⟨m, dest, hm, hformed, htor, hlookup, hdest, hidentity, hprofile, hlink, hfails, hmem⟩ := h
  refine ⟨m, hmem, ?_⟩
  have linked : linkAttachment c d = some (replaceLink m d) := by
    simp [linkAttachment, hm, htor, hlink]
  have frame := linkAttachment_frame linked
  have fails : Fails encrypt c dest (replaceLink m d) := by
    rw [frame]
    exact hfails
  have throws := transaction_none_iff.mpr fails
  simp only [sendMessage, hformed, hlookup, hdest, hidentity, hprofile, linked]
  rcases throws with hbegin | hnone
  · simp [hbegin]
  · simp [hnone]

/-- `sendMessage` is atomic, and a retry after a cleanup can be downloaded, unless the call
fails between the insert of a new link and its commit. -/
theorem sendMessage_atomic_iff (encrypt : σ → String → Nat → String → Option (String × σ))
    (c : Call) (d : Database σ) : Atomic encrypt c d ↔ ¬LeavesLink encrypt c d := by
  constructor
  · intro h hleft
    obtain ⟨m, hmem, hthrew⟩ := leavesLink_threw hleft
    exact replaceLink_ne hmem (h _ hthrew).1
  · intro hleft f hthrew
    have same := sendMessage_threw hthrew hleft
    refine ⟨same, fun m dest retry now g hm hdest hretry htor hconversation hcommitted hchunks => ?_⟩
    rw [same] at hcommitted
    refine committed_downloadable hcommitted hretry htor hchunks ?_
    rw [hconversation, cleanupTorSpool_destination]
    exact hdest

section Example

def photo : Manifest where
  attachmentId := "photo"
  blobId := "blob"
  originalFilename := "photo.png"
  totalPlaintextSize := 1
  chunkCount := 1
  chunkNonces := ["nonce"]
  fullFileDigest := "digest"
  attachmentKey := "key"

def call : Call where
  conversationId := "to-bob"
  plaintext := "see photo"
  manifest := some photo
  wellFormed := true
  torRouting := true
  messageId := "m"
  envelopeId := "e"
  payload := "payload"
  fileNameEncrypted := "name"
  now := 1000
  throws step := step == .message

def retry : Call := { call with throws := fun _ => false, now := 2000 }

def sessions (ratchet : Nat) (_ : String) (_ : Nat) (_ : String) : Option (String × Nat) :=
  some ("bytes", ratchet + 1)

def uploaded : Database Nat where
  contacts := [⟨"bob.1", 0⟩]
  remotes := [⟨"bob.1", "bob", "bob-device", 1⟩]
  conversations := [⟨"to-bob", "bob.1", none⟩]
  messages := []
  signal := 0
  outbox := []
  attachments := []
  links := []
  blobs := [⟨"blob", 1, 1, 900⟩]
  chunks := [⟨"blob", 0, "nonce", "bytes"⟩]
  downloads := []
  downloadChunks := []

/-- The insert of the message fails; the cleanup then deletes the blob by the link that stayed
behind, and the retry sends a message whose attachment is gone. -/
theorem failed_insert_loses_attachment :
    ¬Atomic sessions call uploaded ∧
    ∃ f g, sendMessage sessions call uploaded = .threw f ∧
      sendMessage sessions retry (cleanupTorSpool 1500 f) = .committed g ∧
      HasChunks photo (cleanupTorSpool 1500 uploaded) ∧ ¬HasChunks photo g := by
  have threw : sendMessage sessions call uploaded = .threw (replaceLink photo uploaded) := by
    decide
  refine ⟨fun h => absurd (h _ threw).1 (by decide), _, _, threw, rfl, by decide, by decide⟩

end Example

end SendAtomicity
