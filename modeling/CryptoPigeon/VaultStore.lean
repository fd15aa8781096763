import Mathlib.Data.List.Basic

/-! # The message tables of a vault

The tables that sending, receiving and acknowledging read or write, as lists of rows in
rowid order. Signal sessions and keys stay behind the outcomes of the steps that use
them. -/
namespace VaultStore

inductive Direction where
  | sent
  | received
  deriving DecidableEq, Repr

inductive Status where
  | queued
  | sent
  | delivered
  | read
  | received
  deriving DecidableEq, Repr

structure Contact where
  contactId : String
  username : String
  publicUid : Option String
  identityKey : String
  safetyNumber : Option String
  verified : Bool
  identityChanged : Bool
  deriving DecidableEq, Repr

structure RemoteContact where
  contactId : String
  userId : String
  deviceId : String
  signalDeviceId : Nat
  deriving DecidableEq, Repr

structure Conversation where
  conversationId : String
  contactId : String
  deriving DecidableEq, Repr

structure Message where
  messageId : String
  conversationId : String
  direction : Direction
  text : String
  remoteBlobId : Option String
  status : Status
  disappearAt : Option Nat
  deriving DecidableEq, Repr

structure MessageLink where
  messageId : String
  remoteId : String
  deriving DecidableEq, Repr

structure PeerProfile where
  contactId : String
  displayName : String
  statusLine : String
  deriving DecidableEq, Repr

structure Attachment where
  attachmentId : String
  messageId : String
  manifest : String
  deriving DecidableEq, Repr

structure OutboxRow where
  envelopeId : String
  messageId : String
  mailboxId : String
  ciphertext : String
  createdAt : Nat
  deriving DecidableEq, Repr

structure ControlRow where
  envelopeId : String
  contactId : String
  mailboxId : String
  ciphertext : String
  createdAt : Nat
  expiresAt : Option Nat
  deriving DecidableEq, Repr

/-- `seen` is `seen_envelope_ids`; Android also keeps `processed_envelope_ids`. -/
structure Vault where
  contacts : List Contact
  remoteContacts : List RemoteContact
  conversations : List Conversation
  messages : List Message
  messageLinks : List MessageLink
  peerProfiles : List PeerProfile
  attachments : List Attachment
  attachmentDownloads : List String
  outbox : List OutboxRow
  controlOutbox : List ControlRow
  seen : List String
  processed : List String
  deriving DecidableEq, Repr

def Vault.empty : Vault := ⟨[], [], [], [], [], [], [], [], [], [], [], []⟩

def contactOf (v : Vault) (contactId : String) : Option Contact :=
  v.contacts.find? (fun c => c.contactId == contactId)

def identityChanged (v : Vault) (contactId : String) : Bool :=
  match contactOf v contactId with
  | none => false
  | some c => c.identityChanged

def remoteOfDevice (v : Vault) (deviceId : Option String) : Option RemoteContact :=
  match deviceId with
  | none => none
  | some d => v.remoteContacts.find? (fun r => r.deviceId == d)

def conversationOf (v : Vault) (contactId : String) : Option String :=
  (v.conversations.find? (fun c => c.contactId == contactId)).map Conversation.conversationId

/-- The conversation of a contact, with a new row if there is none. -/
def findOrCreateConversation (v : Vault) (contactId newId : String) : Vault × String :=
  match conversationOf v contactId with
  | some id => (v, id)
  | none => ({ v with conversations := v.conversations ++ [⟨newId, contactId⟩] }, newId)

def putProfile (v : Vault) (p : PeerProfile) : Vault :=
  { v with peerProfiles := v.peerProfiles.filter (fun q => q.contactId != p.contactId) ++ [p] }

def markDelivered (v : Vault) (conversation messageId : String) : Vault :=
  { v with messages := v.messages.map (fun m =>
      if m.messageId = messageId ∧ m.conversationId = conversation ∧ m.direction = .sent ∧
        (m.status = .queued ∨ m.status = .sent)
      then { m with status := .delivered } else m) }

def isSentIn (conversation : String) (m : Message) : Bool :=
  m.conversationId == conversation && m.direction == .sent

/-- Every sent message of the conversation up to the named one, in rowid order. -/
def markReadUpTo (conversation messageId : String) : List Message → List Message
  | [] => []
  | m :: rest =>
    if (m :: rest).any (fun x => isSentIn conversation x && x.messageId == messageId) then
      (if isSentIn conversation m then { m with status := .read } else m) ::
        markReadUpTo conversation messageId rest
    else m :: rest

def markRead (v : Vault) (conversation messageId : String) : Vault :=
  { v with messages := markReadUpTo conversation messageId v.messages }

/-- The envelope ids of the received messages. -/
def receivedIds (messages : List Message) : List String :=
  messages.filterMap Message.remoteBlobId

theorem receivedIds_append (l : List Message) (m : Message) :
    receivedIds (l ++ [m]) = receivedIds l ++ m.remoteBlobId.toList := by
  unfold receivedIds
  cases h : m.remoteBlobId <;> simp [h]

@[simp] theorem receivedIds_markDelivered (v : Vault) (conversation messageId : String) :
    receivedIds (markDelivered v conversation messageId).messages = receivedIds v.messages := by
  simp only [receivedIds, markDelivered, List.filterMap_map]
  congr 1
  funext m
  simp only [Function.comp]
  split <;> rfl

theorem receivedIds_markReadUpTo (conversation messageId : String) (l : List Message) :
    receivedIds (markReadUpTo conversation messageId l) = receivedIds l := by
  induction l with
  | nil => rfl
  | cons m rest ih =>
    unfold markReadUpTo
    split
    · have hid : (if isSentIn conversation m then { m with status := .read } else m).remoteBlobId =
          m.remoteBlobId := by split <;> rfl
      unfold receivedIds at ih ⊢
      rw [List.filterMap_cons, List.filterMap_cons, ih, hid]
    · rfl

/-- `w` is `v` except for its contacts and their conversations. -/
def SameMail (v w : Vault) : Prop :=
  w = { v with
    contacts := w.contacts, remoteContacts := w.remoteContacts, conversations := w.conversations }

theorem SameMail.refl (v : Vault) : SameMail v v := rfl

/-- `w` records the same deliveries as `v`: ids seen, ids of received messages, outbox. -/
structure SameDelivery (v w : Vault) : Prop where
  seen : w.seen = v.seen
  processed : w.processed = v.processed
  outbox : w.outbox = v.outbox
  received : receivedIds w.messages = receivedIds v.messages

theorem SameDelivery.refl (v : Vault) : SameDelivery v v := ⟨rfl, rfl, rfl, rfl⟩

theorem SameDelivery.trans {u v w : Vault} (h : SameDelivery u v) (k : SameDelivery v w) :
    SameDelivery u w :=
  ⟨k.seen.trans h.seen, k.processed.trans h.processed, k.outbox.trans h.outbox,
    k.received.trans h.received⟩

theorem SameMail.delivery {v w : Vault} (h : SameMail v w) : SameDelivery v w := by
  rw [h]
  exact ⟨rfl, rfl, rfl, rfl⟩

theorem findOrCreateConversation_delivery (v : Vault) (contactId newId : String) :
    SameDelivery v (findOrCreateConversation v contactId newId).1 := by
  unfold findOrCreateConversation
  split <;> exact ⟨rfl, rfl, rfl, rfl⟩

/-- `w` knows the contacts and devices that `v` knows. -/
structure SameContacts (v w : Vault) : Prop where
  contacts : w.contacts = v.contacts
  remoteContacts : w.remoteContacts = v.remoteContacts

theorem SameContacts.trans {u v w : Vault} (h : SameContacts u v) (k : SameContacts v w) :
    SameContacts u w :=
  ⟨k.contacts.trans h.contacts, k.remoteContacts.trans h.remoteContacts⟩

theorem SameContacts.identityChanged {v w : Vault} (h : SameContacts v w) (contactId : String) :
    identityChanged w contactId = identityChanged v contactId := by
  unfold VaultStore.identityChanged contactOf
  rw [h.contacts]

theorem SameContacts.remoteOfDevice {v w : Vault} (h : SameContacts v w)
    (deviceId : Option String) : remoteOfDevice w deviceId = remoteOfDevice v deviceId := by
  unfold VaultStore.remoteOfDevice
  rw [h.remoteContacts]

theorem findOrCreateConversation_contacts (v : Vault) (contactId newId : String) :
    SameContacts v (findOrCreateConversation v contactId newId).1 := by
  unfold findOrCreateConversation
  split <;> exact ⟨rfl, rfl⟩

/-- `w` is `v` with one envelope consumed: its id seen, at most one received message
added, and that message under the envelope's id. -/
structure Commit (v : Vault) (id : String) (w : Vault) : Prop where
  fresh : id ∉ v.seen
  seen : w.seen = v.seen ++ [id]
  processed : w.processed = v.processed ∨ w.processed = v.processed ++ [id]
  outbox : w.outbox = v.outbox
  received : receivedIds w.messages = receivedIds v.messages ∨
    receivedIds w.messages = receivedIds v.messages ++ [id]

theorem Commit.after {u v w : Vault} {id : String} (h : SameDelivery u v) (k : Commit v id w) :
    Commit u id w := by
  refine ⟨?_, ?_, ?_, k.outbox.trans h.outbox, ?_⟩
  · rw [← h.seen]; exact k.fresh
  · rw [k.seen, h.seen]
  · rw [← h.processed]; exact k.processed
  · rw [← h.received]; exact k.received

end VaultStore
