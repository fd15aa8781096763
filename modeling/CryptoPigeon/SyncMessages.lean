import CryptoPigeon.ConsumingLoop
import CryptoPigeon.VaultStore
import Mathlib

/-! # Consuming pending envelopes

The loops of `syncMessages` (desktop) and `consumeIncoming` (Android) over a list of
JSON entries the relay or the Tor inbox supplies. What parts outside the loop answer for
one entry (the bundle request, session establishment, decryption, queued receipts,
SQLite) comes with the entry. Acknowledgements are collected and sent after the loop. -/
namespace SyncMessages

open ConsumingLoop VaultStore

/-- A JSON field as the loops read it: `text` is what a text column stores of it, `parsed`
the number a numeric string stands for. -/
inductive Value where
  | undefined
  | null
  | bool (b : Bool)
  | num (truncated : Int) (integral : Bool) (text : String)
  | str (s : String) (parsed : Option Int)
  | array (text : String)
  | object (text : String) (arrayLike : Bool)
  deriving DecidableEq, Repr

structure Fields where
  version : Value
  envelopeId : Value
  ciphertext : Value
  senderId : Value
  deriving DecidableEq, Repr

/-- Reading a field of `null` throws; of any other non-object it is undefined. -/
inductive Entry where
  | null
  | scalar
  | object (fields : Fields)
  deriving DecidableEq, Repr

structure Manifest where
  attachmentId : String
  json : String
  deriving DecidableEq, Repr

/-- `none` stands for a field that is not a string. -/
structure RawProfile where
  displayName : Option String
  statusLine : Option String
  deriving DecidableEq, Repr

inductive Kind where
  | text
  | typing
  | delivered
  | readReceipt
  | other
  deriving DecidableEq, Repr

/-- The decrypted payload, parsed and with its attachment manifest validated. -/
structure Payload where
  kind : Kind
  upToMessageId : String
  senderUid : String
  profile : Option RawProfile
  text : String
  messageId : Option String
  disappearingSeconds : Option Nat
  attachment : Option Manifest
  deriving DecidableEq, Repr

structure Bundle where
  recipientUserId : String
  recipientDeviceId : String
  recipientUsername : String
  signalDeviceId : Nat
  publicUid : Option String
  identityPublicKey : String
  safetyNumber : String
  deriving DecidableEq, Repr

/-- Where adding an unknown sender throws apart from its identity check: on an unusable
bundle, at the session, before or after the device row, at Android's conversation row. -/
inductive ContactFault where
  | none
  | bundle
  | session
  | deviceRow
  | safetyNumber
  | conversation
  deriving DecidableEq, Repr

inductive BundleAnswer where
  | throws
  | refused
  | answered (bundle : Bundle) (fault : ContactFault)
  deriving DecidableEq, Repr

/-- What the rest of the program answers while one entry is processed. -/
structure Outcome where
  now : Nat
  bundle : BundleAnswer
  begins : Bool
  payload : Option Payload
  messageId : String
  conversationId : String
  receipt : Option ControlRow
  persists : Bool
  rollsBack : Bool
  deriving DecidableEq, Repr

structure Pending where
  entry : Entry
  outcome : Outcome
  deriving DecidableEq, Repr

namespace Value

def falsy : Value → Bool
  | .undefined | .null => true
  | .bool b => !b
  | .num v integral _ => v == 0 && integral
  | .str s _ => s == ""
  | .array _ | .object _ _ => false

def isOne : Value → Bool
  | .num v integral _ => v == 1 && integral
  | _ => false

/-- Binding a statement parameter: `none` throws, `some none` is NULL. -/
def bind : Value → Option (Option String)
  | .undefined | .null => some none
  | .num _ _ text => some (some text)
  | .str s _ => some (some s)
  | .bool _ | .array _ | .object _ _ => none

/-- Whether `Buffer.from(value,'base64')` returns. -/
def bufferFrom : Value → Bool
  | .str _ _ | .array _ => true
  | .object _ arrayLike => arrayLike
  | _ => false

/-- `JSONObject.getString`: any present value has a text. -/
def getString : Value → Option String
  | .undefined => none
  | .null => some "null"
  | .bool b => some (if b then "true" else "false")
  | .num _ _ text => some text
  | .str s _ => some s
  | .array text => some text
  | .object text _ => some text

/-- `JSONObject.getInt`: numbers are truncated, numeric strings converted. -/
def getInt : Value → Option Int
  | .num v _ _ => some v
  | .str _ parsed => parsed
  | _ => none

end Value

def contactIdOf (b : Bundle) : String := b.recipientUserId ++ "." ++ toString b.signalDeviceId

def isTrustedIdentity (v : Vault) (b : Bundle) : Bool :=
  match contactOf v (contactIdOf b) with
  | none => true
  | some c => c.identityKey == b.identityPublicKey

/-- `saveIdentity`: pin a new contact, or record that a known one changed its key. -/
def saveIdentity (v : Vault) (b : Bundle) : Vault :=
  match contactOf v (contactIdOf b) with
  | none =>
    { v with contacts := v.contacts ++
        [⟨contactIdOf b, b.recipientUserId, none, b.identityPublicKey, none, false, false⟩] }
  | some _ =>
    { v with contacts := v.contacts.map (fun c =>
        if c.contactId = contactIdOf b then
          { c with
            identityKey := b.identityPublicKey
            verified := c.verified && c.identityKey == b.identityPublicKey
            identityChanged := c.identityChanged || c.identityKey != b.identityPublicKey }
        else c) }

def putRemote (v : Vault) (b : Bundle) : Vault :=
  { v with remoteContacts :=
      v.remoteContacts.filter (fun r => r.contactId != contactIdOf b) ++
        [⟨contactIdOf b, b.recipientUserId, b.recipientDeviceId, b.signalDeviceId⟩] }

def nameContact (v : Vault) (b : Bundle) : Vault :=
  { v with contacts := v.contacts.map (fun c =>
      if c.contactId = contactIdOf b then
        { c with
          username := b.recipientUsername
          publicUid := b.publicUid
          safetyNumber := some b.safetyNumber }
      else c) }

/-- How the sender of an entry is resolved. -/
inductive Sender where
  | escaped (v : Vault)
  | skipped
  | known (v : Vault) (contactId : String)

def pinContact (v : Vault) (b : Bundle) : Vault :=
  nameContact (putRemote (saveIdentity v b) b) b

/-- What the loop does with a bundle: `establishSession` refuses an untrusted identity. -/
def addContact (v : Vault) (b : Bundle) (fault : ContactFault) : Sender :=
  if fault = .bundle ∨ isTrustedIdentity v b = false ∨ fault = .session then .escaped v
  else
    match fault with
    | .deviceRow => .escaped (saveIdentity v b)
    | .safetyNumber => .escaped (putRemote (saveIdentity v b) b)
    | _ => .known (pinContact v b) (contactIdOf b)

def resolveSender (v : Vault) (deviceId : Option String) (answer : BundleAnswer) : Sender :=
  match remoteOfDevice v deviceId with
  | some r => .known v r.contactId
  | none =>
    match answer with
    | .throws => .escaped v
    | .refused => .skipped
    | .answered b fault => addContact v b fault

/-- The length of a JavaScript or Java string, in UTF-16 units. -/
def utf16Length (s : String) : Nat :=
  (s.toList.map (fun c => if c.toNat < 65536 then 1 else 2)).sum

def applyProfile (v : Vault) (contactId : String) (p : Payload) : Vault :=
  match p.profile with
  | some ⟨some name, some line⟩ =>
    if utf16Length name ≤ 64 ∧ utf16Length line ≤ 140 then putProfile v ⟨contactId, name, line⟩ else v
  | _ => v

def applyControl (v : Vault) (conversation : String) (p : Payload) : Vault :=
  match p.kind with
  | .delivered => markDelivered v conversation p.upToMessageId
  | .readReceipt => markRead v conversation p.upToMessageId
  | _ => v

def disappearAt (now : Nat) (seconds : Option Nat) : Option Nat :=
  match seconds with
  | some s => if s = 3600 ∨ s = 86400 ∨ s = 604800 then some (now + s * 1000) else none
  | none => none

/-- `/^[a-f0-9-]{36}$/`. -/
def isRemoteId (s : String) : Bool :=
  s.length == 36 && s.toList.all (fun c =>
    c == '-' || ('a' ≤ c && c ≤ 'f') || ('0' ≤ c && c ≤ '9'))

def storeMessage (v : Vault) (conversation id : String) (p : Payload) (o : Outcome) : Vault :=
  { v with messages := v.messages ++
      [⟨o.messageId, conversation, .received, p.text, some id, .received,
        disappearAt o.now p.disappearingSeconds⟩] }

/-- The link to the sender's message id and the delivery receipt queued for it. -/
def queueReceipt (v : Vault) (p : Payload) (o : Outcome) : Option Vault :=
  match p.messageId with
  | none => some v
  | some remote =>
    if isRemoteId remote then
      match o.receipt with
      | none => none
      | some row =>
        some { v with
          messageLinks := v.messageLinks ++ [⟨o.messageId, remote⟩]
          controlOutbox := v.controlOutbox ++ [row] }
    else some v

def storeAttachment (v : Vault) (p : Payload) (o : Outcome) : Vault :=
  match p.attachment with
  | none => v
  | some manifest =>
    { v with
      attachments := v.attachments ++ [⟨manifest.attachmentId, o.messageId, manifest.json⟩]
      attachmentDownloads := v.attachmentDownloads ++ [manifest.attachmentId] }

/-- `INSERT … ON CONFLICT DO NOTHING`. -/
def markSeen (v : Vault) (id : String) : Vault :=
  if id ∈ v.seen then v else { v with seen := v.seen ++ [id] }

/-- The transaction of one envelope; `none` is a throw, which rolls it back. -/
def commitEnvelope (v : Vault) (contactId id : String) (o : Outcome) : Option Vault :=
  match o.payload with
  | none => none
  | some p =>
    if o.persists = false then none
    else
      let found := findOrCreateConversation v contactId o.conversationId
      let named := applyProfile found.1 contactId p
      if p.kind ≠ .text then some (markSeen (applyControl named found.2 p) id)
      else
        match queueReceipt (storeMessage named found.2 id p o) p o with
        | none => none
        | some queued => some (markSeen (storeAttachment queued p o) id)

def transact (id : String) (o : Outcome) (v : Vault) (contactId : String) :
    Progress Vault String :=
  if o.begins = false then .escaped v
  else
    match commitEnvelope v contactId id o with
    | some w => .next w (some id)
    | none => if o.rollsBack then .next v none else .escaped v

/-- The rest of an iteration, up to its transaction, once the sender is resolved. -/
def receiveFrom (transact : Vault → String → Progress Vault String) (v : Vault) :
    Sender → Progress Vault String
  | .escaped w => .escaped w
  | .skipped => .next v none
  | .known w contactId => if identityChanged w contactId then .next w none else transact w contactId

def malformed (f : Fields) : Bool :=
  !f.version.isOne || f.envelopeId.falsy || f.ciphertext.falsy

/-- One iteration of the loop of `syncMessages`. -/
def processFields (v : Vault) (f : Fields) (o : Outcome) : Progress Vault String :=
  if malformed f then .next v none
  else
    match f.envelopeId.bind with
    | none => .escaped v
    | some key =>
      let id := key.getD ""
      if id ∈ v.seen then .next v (some id)
      else if f.ciphertext.bufferFrom = false then .escaped v
      else
        match f.senderId.bind with
        | none => .escaped v
        | some device => receiveFrom (transact id o) v (resolveSender v device o.bundle)

def processEnvelope (v : Vault) (p : Pending) : Progress Vault String :=
  match p.entry with
  | .null => .escaped v
  | .scalar => .next v none
  | .object f => processFields v f p.outcome

/-- The loop of a desktop pass: its vault, the acknowledgements it would send, and
whether an exception left it before they are sent. -/
def syncMessages (v : Vault) (pending : List Pending) : Result Vault String :=
  consume processEnvelope v pending

/-- What one iteration can do: leave the mail as it is, with or without escaping,
acknowledge a known envelope, or consume a new one. -/
inductive Iteration (known : Vault → List String) (v : Vault) : Progress Vault String → Prop
  | skipped {w : Vault} : SameMail v w → Iteration known v (.next w none)
  | escaped {w : Vault} : SameMail v w → Iteration known v (.escaped w)
  | again {id : String} : id ∈ known v → Iteration known v (.next v (some id))
  | committed {w : Vault} {id : String} : Commit v id w → Iteration known v (.next w (some id))

section Desktop

variable {v w : Vault} {id contactId : String} {o : Outcome} {p : Payload} {b : Bundle}

theorem saveIdentity_sameMail : SameMail v (saveIdentity v b) := by
  unfold saveIdentity
  split <;> rfl

theorem putRemote_sameMail (h : SameMail v w) : SameMail v (putRemote w b) := by
  rw [h]; rfl

theorem nameContact_sameMail (h : SameMail v w) : SameMail v (nameContact w b) := by
  rw [h]; rfl

theorem pinContact_sameMail : SameMail v (pinContact v b) :=
  nameContact_sameMail (putRemote_sameMail saveIdentity_sameMail)

/-- Where resolving a sender leaves the mail. -/
def Sender.Keeps (v : Vault) : Sender → Prop
  | .escaped w => SameMail v w
  | .skipped => True
  | .known w _ => SameMail v w

theorem addContact_keeps {fault : ContactFault} : (addContact v b fault).Keeps v := by
  unfold addContact
  split
  · exact SameMail.refl v
  · split
    · exact saveIdentity_sameMail
    · exact putRemote_sameMail saveIdentity_sameMail
    · exact pinContact_sameMail

theorem resolveSender_keeps {device : Option String} {answer : BundleAnswer} :
    (resolveSender v device answer).Keeps v := by
  unfold resolveSender
  split
  · exact SameMail.refl v
  · split
    · exact SameMail.refl v
    · trivial
    · exact addContact_keeps

theorem applyProfile_delivery : SameDelivery v (applyProfile v contactId p) := by
  unfold applyProfile putProfile
  split
  · split <;> exact ⟨rfl, rfl, rfl, rfl⟩
  · exact SameDelivery.refl v

theorem applyControl_delivery (v : Vault) (conversation : String) (p : Payload) :
    SameDelivery v (applyControl v conversation p) := by
  unfold applyControl
  split
  · exact ⟨rfl, rfl, rfl, receivedIds_markDelivered v conversation p.upToMessageId⟩
  · exact ⟨rfl, rfl, rfl, receivedIds_markReadUpTo conversation p.upToMessageId v.messages⟩
  · exact SameDelivery.refl v

theorem queueReceipt_delivery (h : queueReceipt v p o = some w) : SameDelivery v w := by
  unfold queueReceipt at h
  split at h
  · cases h; exact SameDelivery.refl v
  · split at h
    · split at h
      · cases h
      · cases h; exact ⟨rfl, rfl, rfl, rfl⟩
    · cases h; exact SameDelivery.refl v

theorem storeAttachment_delivery : SameDelivery v (storeAttachment v p o) := by
  unfold storeAttachment
  split <;> exact ⟨rfl, rfl, rfl, rfl⟩

theorem markSeen_fresh (hid : id ∉ v.seen) : markSeen v id = { v with seen := v.seen ++ [id] } := by
  simp [markSeen, hid]

theorem markSeen_commit (hid : id ∉ v.seen) : Commit v id (markSeen v id) := by
  rw [markSeen_fresh hid]
  exact ⟨hid, rfl, .inl rfl, rfl, .inl rfl⟩

theorem storeMessage_received {conversation : String} :
    receivedIds (storeMessage v conversation id p o).messages = receivedIds v.messages ++ [id] :=
  receivedIds_append v.messages _

/-- A text envelope: its message is stored, then what follows it, then its id. -/
theorem stored_commit {conversation : String} (hid : id ∉ v.seen)
    (h : SameDelivery (storeMessage v conversation id p o) w) : Commit v id (markSeen w id) := by
  have hw : id ∉ w.seen := by rw [h.seen]; exact hid
  rw [markSeen_fresh hw]
  refine ⟨hid, congrArg (· ++ [id]) h.seen, .inl h.processed, h.outbox, .inr ?_⟩
  exact h.received.trans storeMessage_received

/-- A committed envelope is consumed, whichever kind of payload it carries. -/
theorem commitEnvelope_commit (hid : id ∉ v.seen) (h : commitEnvelope v contactId id o = some w) :
    Commit v id w := by
  unfold commitEnvelope at h
  split at h
  · cases h
  · next p _ =>
    split at h
    · cases h
    dsimp only at h
    have hnamed : SameDelivery v
        (applyProfile (findOrCreateConversation v contactId o.conversationId).1 contactId p) :=
      (findOrCreateConversation_delivery v contactId o.conversationId).trans applyProfile_delivery
    have hfresh := hid
    rw [← hnamed.seen] at hfresh
    split at h
    · cases h
      have hcontrol := hnamed.trans (applyControl_delivery _
        (findOrCreateConversation v contactId o.conversationId).2 p)
      refine Commit.after hcontrol (markSeen_commit ?_)
      rw [hcontrol.seen]
      exact hid
    · split at h
      · cases h
      · next queued hqueued =>
        cases h
        exact Commit.after hnamed
          (stored_commit hfresh ((queueReceipt_delivery hqueued).trans storeAttachment_delivery))

theorem applyProfile_contacts : SameContacts v (applyProfile v contactId p) := by
  unfold applyProfile putProfile
  split
  · split <;> exact ⟨rfl, rfl⟩
  · exact ⟨rfl, rfl⟩

theorem applyControl_contacts {conversation : String} :
    SameContacts v (applyControl v conversation p) := by
  unfold applyControl
  split <;> exact ⟨rfl, rfl⟩

theorem queueReceipt_contacts (h : queueReceipt v p o = some w) : SameContacts v w := by
  unfold queueReceipt at h
  split at h
  · cases h; exact ⟨rfl, rfl⟩
  · split at h
    · split at h <;> cases h
      exact ⟨rfl, rfl⟩
    · cases h; exact ⟨rfl, rfl⟩

theorem storeAttachment_contacts : SameContacts v (storeAttachment v p o) := by
  unfold storeAttachment
  split <;> exact ⟨rfl, rfl⟩

theorem markSeen_contacts : SameContacts v (markSeen v id) := by
  unfold markSeen
  split <;> exact ⟨rfl, rfl⟩

/-- A committed envelope adds no contact. -/
theorem commitEnvelope_contacts (h : commitEnvelope v contactId id o = some w) :
    SameContacts v w := by
  unfold commitEnvelope at h
  split at h
  · cases h
  · next p _ =>
    split at h
    · cases h
    dsimp only at h
    have hnamed : SameContacts v
        (applyProfile (findOrCreateConversation v contactId o.conversationId).1 contactId p) :=
      (findOrCreateConversation_contacts v contactId o.conversationId).trans applyProfile_contacts
    split at h
    · cases h
      exact (hnamed.trans applyControl_contacts).trans markSeen_contacts
    · split at h
      · cases h
      · next queued hqueued =>
        cases h
        have hstored (u : Vault) (conversation : String) :
            SameContacts u (storeMessage u conversation id p o) := ⟨rfl, rfl⟩
        have hqueued := (hnamed.trans (hstored _ _)).trans (queueReceipt_contacts hqueued)
        exact (hqueued.trans storeAttachment_contacts).trans markSeen_contacts

theorem transact_iteration (hid : id ∉ v.seen) (h : SameMail v w) :
    Iteration Vault.seen v (transact id o w contactId) := by
  have hfresh : id ∉ w.seen := by rw [(SameMail.delivery h).seen]; exact hid
  unfold transact
  split
  · exact .escaped h
  · split
    · next x hx =>
      exact .committed (Commit.after (SameMail.delivery h) (commitEnvelope_commit hfresh hx))
    · split
      · exact .skipped h
      · exact .escaped h

theorem receiveFrom_iteration {known : Vault → List String}
    {transact : Vault → String → Progress Vault String} {sender : Sender}
    (htransact : ∀ w c, SameMail v w → Iteration known v (transact w c)) (h : sender.Keeps v) :
    Iteration known v (receiveFrom transact v sender) := by
  cases sender with
  | escaped w => exact .escaped h
  | skipped => exact .skipped (SameMail.refl v)
  | known w c =>
    change Iteration known v (if identityChanged w c then .next w none else transact w c)
    split
    · exact .skipped h
    · exact htransact w c h

/-- The iteration of the desktop loop does one of these things, whatever the entry and
whatever the rest of the program answers. -/
theorem processEnvelope_iteration (v : Vault) (p : Pending) :
    Iteration Vault.seen v (processEnvelope v p) := by
  unfold processEnvelope
  split
  · exact .escaped (SameMail.refl v)
  · exact .skipped (SameMail.refl v)
  · next f =>
    unfold processFields
    split
    · exact .skipped (SameMail.refl v)
    split
    · exact .escaped (SameMail.refl v)
    · next key _ =>
      dsimp only
      split
      · next hseen => exact .again hseen
      · next hid =>
        split
        · exact .escaped (SameMail.refl v)
        · split
          · exact .escaped (SameMail.refl v)
          · exact receiveFrom_iteration (fun w c => transact_iteration hid) resolveSender_keeps

end Desktop

section Loop

variable {known : Vault → List String} {v : Vault} {id : String} {l : List Pending}

theorem iteration_seen {r : Progress Vault String} (h : Iteration known v r)
    (hid : id ∈ v.seen) : id ∈ r.state.seen := by
  cases h with
  | skipped hw => exact (SameMail.delivery hw).seen ▸ hid
  | escaped hw => exact (SameMail.delivery hw).seen ▸ hid
  | again _ => exact hid
  | committed hw => exact hw.seen ▸ List.mem_append_left _ hid

theorem iteration_outbox {r : Progress Vault String} (h : Iteration known v r) :
    r.state.outbox = v.outbox := by
  cases h with
  | skipped hw => exact (SameMail.delivery hw).outbox
  | escaped hw => exact (SameMail.delivery hw).outbox
  | again _ => rfl
  | committed hw => exact hw.outbox

/-- No two received messages under one envelope id, and each of those ids seen. -/
structure OncePerEnvelope (v : Vault) : Prop where
  nodup : (receivedIds v.messages).Nodup
  seen : ∀ id ∈ receivedIds v.messages, id ∈ v.seen

theorem sameDelivery_once {w : Vault} (h : SameDelivery v w) (hv : OncePerEnvelope v) :
    OncePerEnvelope w := by
  constructor
  · rw [h.received]; exact hv.nodup
  · rw [h.received, h.seen]; exact hv.seen

theorem commit_once {w : Vault} (h : Commit v id w) (hv : OncePerEnvelope v) :
    OncePerEnvelope w := by
  have hnew : id ∉ receivedIds v.messages := fun hid => h.fresh (hv.seen id hid)
  rcases h.received with hr | hr
  · constructor
    · rw [hr]; exact hv.nodup
    · rw [hr, h.seen]
      exact fun x hx => List.mem_append_left _ (hv.seen x hx)
  · constructor
    · rw [hr]
      exact List.nodup_append.mpr ⟨hv.nodup, (List.pairwise_singleton _ id), by
        intro x hx y hy hxy
        obtain rfl := List.mem_singleton.mp hy
        exact hnew (hxy ▸ hx)⟩
    · rw [hr, h.seen]
      intro x hx
      rcases List.mem_append.mp hx with hx | hx
      · exact List.mem_append_left _ (hv.seen x hx)
      · exact List.mem_append_right _ hx

theorem iteration_once {r : Progress Vault String} (h : Iteration known v r)
    (hv : OncePerEnvelope v) : OncePerEnvelope r.state := by
  cases h with
  | skipped hw => exact sameDelivery_once (SameMail.delivery hw) hv
  | escaped hw => exact sameDelivery_once (SameMail.delivery hw) hv
  | again _ => exact hv
  | committed hw => exact commit_once hw hv

/-- Every processed id is a seen id. -/
def ProcessedSeen (v : Vault) : Prop := ∀ id ∈ v.processed, id ∈ v.seen

theorem sameDelivery_processedSeen {w : Vault} (h : SameDelivery v w) (hv : ProcessedSeen v) :
    ProcessedSeen w := by
  intro x hx
  rw [h.processed] at hx
  rw [h.seen]
  exact hv x hx

theorem commit_processedSeen {w : Vault} (h : Commit v id w) (hv : ProcessedSeen v) :
    ProcessedSeen w := by
  intro x hx
  rw [h.seen]
  rcases h.processed with hp | hp <;> rw [hp] at hx
  · exact List.mem_append_left _ (hv x hx)
  · rcases List.mem_append.mp hx with hx | hx
    · exact List.mem_append_left _ (hv x hx)
    · exact List.mem_append_right _ hx

theorem iteration_processedSeen {r : Progress Vault String} (h : Iteration known v r)
    (hv : ProcessedSeen v) : ProcessedSeen r.state := by
  cases h with
  | skipped hw => exact sameDelivery_processedSeen (SameMail.delivery hw) hv
  | escaped hw => exact sameDelivery_processedSeen (SameMail.delivery hw) hv
  | again _ => exact hv
  | committed hw => exact commit_processedSeen hw hv

section Consume

variable {step : Vault → Pending → Progress Vault String}
  (hstep : ∀ v p, Iteration known v (step v p))

include hstep

theorem consume_seen (hid : id ∈ v.seen) : id ∈ (consume step v l).state.seen :=
  consume_invariant (I := fun w => id ∈ w.seen)
    (fun w p h => iteration_seen (hstep w p) h) hid l

/-- A pass does not touch the outbox. -/
theorem consume_outbox : (consume step v l).state.outbox = v.outbox :=
  consume_invariant (I := fun w => w.outbox = v.outbox)
    (fun w p h => (iteration_outbox (hstep w p)).trans h) rfl l

theorem consume_processedSeen (hv : ProcessedSeen v) :
    ProcessedSeen (consume step v l).state :=
  consume_invariant (I := ProcessedSeen)
    (fun w p h => iteration_processedSeen (hstep w p) h) hv l

theorem consume_once (hv : OncePerEnvelope v) : OncePerEnvelope (consume step v l).state :=
  consume_invariant (I := OncePerEnvelope)
    (fun w p h => iteration_once (hstep w p) h) hv l

/-- Every id a pass would acknowledge is in `seen_envelope_ids` when the loop ends. -/
theorem consume_acknowledges
    {I : Vault → Prop} (hI : ∀ v p, I v → I (step v p).state)
    (hknown : ∀ v, I v → ∀ id ∈ known v, id ∈ v.seen) (hv : I v) :
    ∀ id ∈ (consume step v l).emitted, id ∈ (consume step v l).state.seen := by
  refine consume_emitted (R := fun (w : Vault) id => id ∈ w.seen) hI ?_ ?_ hv l
  · intro w p x id hw h
    have hi := hstep w p
    rw [h] at hi
    cases hi with
    | again hid => exact hknown w hw id hid
    | committed hx => exact hx.seen ▸ List.mem_append_right _ (List.mem_singleton_self id)
  · exact fun w p id hid => iteration_seen (hstep w p) hid

end Consume

theorem sync_acknowledges_seen : ∀ id ∈ (syncMessages v l).emitted,
    id ∈ (syncMessages v l).state.seen :=
  consume_acknowledges (I := fun _ => True) processEnvelope_iteration (fun _ _ h => h)
    (fun _ _ _ h => h) trivial

end Loop

end SyncMessages
