import CryptoPigeon.StatementRun
import CryptoPigeon.VaultStore

/-! # Contacts, their keys and their routes

The tables that adding, importing and verifying a contact read and write on either
client. libsignal asks `isTrustedIdentity` before it uses a key and throws without saving
when the answer is no; a session it builds comes with the bundle. The desktop runs
`addContactAndSession` and the unknown sender's part of `syncMessages` statement by
statement, and so does Android its `addContact`; an invite is imported in one
transaction. -/
namespace ContactStore

open StatementRun
open VaultStore (Contact RemoteContact Conversation)

/-- The local user id is missing until the device is registered. -/
structure Account where
  userId : Option String
  deviceId : String
  identityKey : String
  deriving DecidableEq, Repr

structure Session where
  contactId : String
  ratchet : String
  deriving DecidableEq, Repr

structure PeerOnion where
  deviceId : String
  contactId : String
  onion : String
  authKey : String
  invite : String
  deriving DecidableEq, Repr

structure Store where
  account : Account
  contacts : List Contact
  remoteContacts : List RemoteContact
  sessions : List Session
  peerOnions : List PeerOnion
  conversations : List Conversation
  deriving DecidableEq, Repr

/-- What a bundle response says: `readable` if its address and identity key parse, `usable`
if libsignal accepts its prekeys; `session` is the ratchet it builds from them. A missing
text column value is `none`. -/
structure Bundle where
  recipientUserId : String
  recipientDeviceId : Option String
  signalDeviceId : Nat
  identityPublicKey : String
  recipientUsername : Option String
  publicUid : Option String
  readable : Bool
  usable : Bool
  session : String
  deriving DecidableEq, Repr

/-- A parsed invite: its signature under its own device key has been checked. -/
structure Invite where
  userId : String
  deviceId : String
  signalDeviceId : Nat
  username : String
  publicUid : String
  onion : String
  deviceAuthPublicKey : String
  identityPublicKey : String
  usable : Bool
  session : String
  uri : String
  deriving DecidableEq, Repr

/-- `ProtocolAddress.toString()`. -/
def addressOf (userId : String) (signalDeviceId : Nat) : String :=
  userId ++ "." ++ toString signalDeviceId

def Bundle.contact (b : Bundle) : String := addressOf b.recipientUserId b.signalDeviceId

def Invite.contact (i : Invite) : String := addressOf i.userId i.signalDeviceId

def Invite.bundle (i : Invite) : Bundle where
  recipientUserId := i.userId
  recipientDeviceId := some i.deviceId
  signalDeviceId := i.signalDeviceId
  identityPublicKey := i.identityPublicKey
  recipientUsername := some i.username
  publicUid := some i.publicUid
  readable := true
  usable := i.usable
  session := i.session

def contactOf (s : Store) (contactId : String) : Option Contact :=
  s.contacts.find? (fun c => c.contactId == contactId)

def sessionOf (s : Store) (contactId : String) : Option Session :=
  s.sessions.find? (fun x => x.contactId == contactId)

def updateContact (contactId : String) (f : Contact → Contact) (s : Store) : Store :=
  { s with contacts := s.contacts.map (fun c => if c.contactId = contactId then f c else c) }

/-- Not pinned yet, or pinned to this key. -/
def isTrustedIdentity (s : Store) (contactId key : String) : Bool :=
  match contactOf s contactId with
  | none => true
  | some c => c.identityKey == key

def insertContact (contactId username key : String) (s : Store) : Store :=
  { s with contacts := s.contacts ++ [⟨contactId, username, none, key, none, false, false⟩] }

/-- `UPDATE contacts SET identity_public_key=?, verified=…, identity_changed=…`. -/
def repin (key : String) (c : Contact) : Contact :=
  { c with
    identityKey := key
    verified := c.verified && c.identityKey == key
    identityChanged := c.identityChanged || c.identityKey != key }

/-- The desktop's `saveIdentity`. -/
def saveIdentity (contactId userId key : String) (s : Store) : Store :=
  match contactOf s contactId with
  | none => insertContact contactId userId key s
  | some _ => updateContact contactId (repin key) s

/-- `INSERT … ON CONFLICT(contact_id) DO UPDATE SET ratchet_state`. -/
def saveSession (contactId ratchet : String) (s : Store) : Store :=
  { s with sessions :=
      s.sessions.filter (fun x => x.contactId != contactId) ++ [⟨contactId, ratchet⟩] }

def findOrCreateConversation (contactId newId : String) (s : Store) : Store :=
  if s.conversations.any (fun c => c.contactId == contactId) then s
  else { s with conversations := s.conversations ++ [⟨newId, contactId⟩] }

variable (fingerprint : String → String → String → String → String)

/-- `computeSafetyNumber`: over the local identity and the key pinned for the address. -/
def computeSafetyNumber (contactId userId : String) (s : Store) : Option String :=
  match s.account.userId, contactOf s contactId with
  | some localId, some c => some (fingerprint localId s.account.identityKey userId c.identityKey)
  | _, _ => none

/-- A row inserted or updated in place. -/
def upsertRemote (r : RemoteContact) (s : Store) : Store :=
  { s with remoteContacts :=
      if s.remoteContacts.any (fun q => q.contactId == r.contactId) then
        s.remoteContacts.map (fun q => if q.contactId = r.contactId then r else q)
      else s.remoteContacts ++ [r] }

/-- `INSERT OR REPLACE` deletes the row before it inserts it. -/
def replaceRemote (r : RemoteContact) (s : Store) : Store :=
  { s with remoteContacts := s.remoteContacts.filter (fun q => q.contactId != r.contactId) ++ [r] }

/-- `INSERT OR IGNORE`. -/
def insertRemote (r : RemoteContact) (s : Store) : Store :=
  if s.remoteContacts.any (fun q => q.contactId == r.contactId) then s
  else { s with remoteContacts := s.remoteContacts ++ [r] }

def replacePeer (p : PeerOnion) (s : Store) : Store :=
  { s with peerOnions := s.peerOnions.filter (fun q => q.deviceId != p.deviceId) ++ [p] }

def Bundle.remote (b : Bundle) : Option RemoteContact :=
  b.recipientDeviceId.map (fun d => ⟨b.contact, b.recipientUserId, d, b.signalDeviceId⟩)

namespace Desktop

/-- What libsignal checks before it saves the identity: a registered account, usable
prekeys and a trusted key. -/
def pinIdentity (b : Bundle) : Statement Store := fun s =>
  if s.account.userId.isSome && b.readable && b.usable &&
      isTrustedIdentity s b.contact b.identityPublicKey then
    some (saveIdentity b.contact b.recipientUserId b.identityPublicKey s)
  else none

/-- `establishSession`: `processPreKeyBundle`, then `saveIdentity` once more. -/
def establishSession (b : Bundle) : List (Statement Store) :=
  [pinIdentity b, fun s => some (saveSession b.contact b.session s),
    fun s => some (saveIdentity b.contact b.recipientUserId b.identityPublicKey s)]

def putRemote (b : Bundle) : Statement Store := fun s =>
  b.remote.map (fun r => upsertRemote r s)

/-- The update of `addContactAndSession`. -/
def nameAdded (username : String) (b : Bundle) : Statement Store := fun s =>
  (computeSafetyNumber fingerprint b.contact b.recipientUserId s).map (fun number =>
    updateContact b.contact (fun c =>
      { c with
        username := b.recipientUsername.getD username
        publicUid := b.publicUid
        safetyNumber := some number
        identityChanged := false }) s)

/-- The update for an unknown sender in `syncMessages`. -/
def nameSender (b : Bundle) : Statement Store := fun s =>
  match computeSafetyNumber fingerprint b.contact b.recipientUserId s, b.recipientUsername with
  | some number, some username =>
    some (updateContact b.contact (fun c =>
      { c with username := username, publicUid := b.publicUid, safetyNumber := some number }) s)
  | _, _ => none

def addContactAndSession (username newId : String) (b : Bundle) : List (Statement Store) :=
  establishSession b ++ [putRemote b, nameAdded fingerprint username b,
    fun s => some (findOrCreateConversation b.contact newId s)]

def addUnknownSender (b : Bundle) : List (Statement Store) :=
  establishSession b ++ [putRemote b, nameSender fingerprint b]

end Desktop

namespace Android

def markChanged (contactId : String) (s : Store) : Store :=
  updateContact contactId (fun c => { c with identityChanged := true, verified := false }) s

/-- `isTrustedIdentity` marks the contact before it answers no. -/
def markUntrusted (b : Bundle) : Statement Store := fun s =>
  if b.readable then
    some (if isTrustedIdentity s b.contact b.identityPublicKey then s else markChanged b.contact s)
  else none

/-- `saveIdentity` of a trusted key inserts the contact or does nothing. -/
def pinIdentity (b : Bundle) : Statement Store := fun s =>
  if isTrustedIdentity s b.contact b.identityPublicKey then
    some (if (contactOf s b.contact).isNone then
      insertContact b.contact b.recipientUserId b.identityPublicKey s else s)
  else none

def buildSession (b : Bundle) : Statement Store := fun s =>
  if s.account.userId.isSome && b.usable then some (saveSession b.contact b.session s) else none

def establish (b : Bundle) : List (Statement Store) :=
  [markUntrusted b, pinIdentity b, buildSession b]

def putRemote (b : Bundle) : Statement Store := fun s =>
  if (computeSafetyNumber fingerprint b.contact b.recipientUserId s).isSome then
    b.remote.map (fun r => replaceRemote r s)
  else none

def nameContact (b : Bundle) : Statement Store := fun s =>
  (computeSafetyNumber fingerprint b.contact b.recipientUserId s).map (fun number =>
    updateContact b.contact (fun c =>
      { c with
        username := b.recipientUsername.getD b.recipientUserId
        publicUid := b.publicUid
        safetyNumber := some number }) s)

def addContact (newId : String) (b : Bundle) : List (Statement Store) :=
  establish b ++ [putRemote fingerprint b, nameContact fingerprint b,
    fun s => some (findOrCreateConversation b.contact newId s)]

end Android

section Import

/-- A pinned row of this device or this contact is for the same contact, onion and key. -/
def pinsAgree (i : Invite) (s : Store) : Bool :=
  s.peerOnions.all (fun p => !(p.deviceId == i.deviceId || p.contactId == i.contact) ||
    (p.contactId == i.contact && p.authKey == i.deviceAuthPublicKey && p.onion == i.onion))

/-- A routing row of this device or this contact is this invite's. -/
def routesAgree (i : Invite) (s : Store) : Bool :=
  s.remoteContacts.all (fun r => !(r.deviceId == i.deviceId || r.contactId == i.contact) ||
    (r.contactId == i.contact && r.deviceId == i.deviceId && r.userId == i.userId &&
      r.signalDeviceId == i.signalDeviceId))

def changed (s : Store) (contactId : String) : Bool :=
  match contactOf s contactId with
  | none => false
  | some c => c.identityChanged

/-- The checks before the transaction. -/
def importable (i : Invite) (s : Store) : Bool :=
  i.usable && i.deviceId != s.account.deviceId && pinsAgree i s && routesAgree i s &&
    !changed s i.contact

def requirePinned (i : Invite) : Statement Store := fun s =>
  match contactOf s i.contact with
  | none => none
  | some c => if c.identityKey = i.identityPublicKey then some s else none

def Invite.peer (i : Invite) : PeerOnion :=
  ⟨i.deviceId, i.contact, i.onion, i.deviceAuthPublicKey, i.uri⟩

def Invite.remote (i : Invite) : RemoteContact :=
  ⟨i.contact, i.userId, i.deviceId, i.signalDeviceId⟩

def Invite.verify (i : Invite) (c : Contact) : Contact :=
  { c with
    username := i.username
    publicUid := some i.publicUid
    verified := true
    identityChanged := false }

/-- The desktop stores a fresh safety number with the verified contact. -/
def verifyImported (i : Invite) : Statement Store := fun s =>
  (computeSafetyNumber fingerprint i.contact i.userId s).map (fun number =>
    updateContact i.contact (fun c => { i.verify c with safetyNumber := some number }) s)

def Desktop.importStatements (newId : String) (i : Invite) (s : Store) : List (Statement Store) :=
  (if (sessionOf s i.contact).isNone then Desktop.establishSession i.bundle
    else [requirePinned i]) ++
  [fun s => some (insertRemote i.remote s), fun s => some (replacePeer i.peer s),
    verifyImported fingerprint i,
    fun s => some (findOrCreateConversation i.contact newId s)]

def Android.importStatements (newId : String) (i : Invite) (s : Store) : List (Statement Store) :=
  (if (sessionOf s i.contact).isNone then Android.addContact fingerprint newId i.bundle
    else [requirePinned i, fun s => some (findOrCreateConversation i.contact newId s)]) ++
  [fun s => some (replacePeer i.peer s), fun s => some (updateContact i.contact i.verify s)]

end Import

section Address

theorem append_cons_of_notMem {α : Type*} {a : α} {l k d e : List α} (hd : a ∉ d) (he : a ∉ e)
    (h : l ++ a :: d = k ++ a :: e) : l = k := by
  rcases List.append_eq_append_iff.mp h with ⟨m, hm, hrest⟩ | ⟨m, hm, hrest⟩
  · cases m with
    | nil => simpa using hm.symm
    | cons b m => exact absurd (List.cons_eq_cons.mp hrest).2 (fun h => hd (by rw [h]; simp))
  · cases m with
    | nil => simpa using hm
    | cons b m => exact absurd (List.cons_eq_cons.mp hrest).2 (fun h => he (by rw [h]; simp))

theorem dot_notMem_device (n : Nat) : '.' ∉ (toString n).toList := by
  change '.' ∉ n.repr.toList
  rw [Nat.toList_repr]
  exact fun h => absurd (Nat.isDigit_of_mem_toDigits (by decide) (by decide) h) (by decide)

/-- The device follows the last dot of an address. -/
theorem addressOf_user {userId userId' : String} {n n' : Nat}
    (h : addressOf userId n = addressOf userId' n') : userId = userId' := by
  have hlist := congrArg String.toList h
  simp only [addressOf, String.toList_append, List.append_assoc] at hlist
  exact String.toList_inj.mp
    (append_cons_of_notMem (dot_notMem_device n) (dot_notMem_device n') hlist)

end Address

section Lookup

variable {s : Store} {contactId other userId key : String} {c : Contact} {f : Contact → Contact}

theorem contactOf_id (h : contactOf s contactId = some c) : c.contactId = contactId := by
  simpa using List.find?_some h

theorem contactOf_update (hf : ∀ c, (f c).contactId = c.contactId) :
    contactOf (updateContact contactId f s) other =
      (contactOf s other).map (fun c => if c.contactId = contactId then f c else c) := by
  unfold contactOf updateContact
  rw [List.find?_map]
  congr 2
  funext c
  simp only [Function.comp]
  split
  · rw [hf]
  · rfl

theorem contactOf_update_self (hf : ∀ c, (f c).contactId = c.contactId)
    (h : contactOf s contactId = some c) :
    contactOf (updateContact contactId f s) contactId = some (f c) := by
  rw [contactOf_update hf, h]
  exact congrArg some (if_pos (contactOf_id h))

theorem contactOf_update_none (hf : ∀ c, (f c).contactId = c.contactId)
    (h : contactOf s other = none) : contactOf (updateContact contactId f s) other = none := by
  rw [contactOf_update hf, h]
  rfl

theorem contactOf_update_other (hf : ∀ c, (f c).contactId = c.contactId)
    (hne : other ≠ contactId) :
    contactOf (updateContact contactId f s) other = contactOf s other := by
  rw [contactOf_update hf]
  cases h : contactOf s other with
  | none => rfl
  | some c =>
    have hc : c.contactId ≠ contactId := by rw [contactOf_id h]; exact hne
    exact congrArg some (if_neg hc)

theorem contactOf_insert (h : contactOf s contactId = none) :
    contactOf (insertContact contactId userId key s) other =
      if other = contactId then some ⟨contactId, userId, none, key, none, false, false⟩
      else contactOf s other := by
  unfold contactOf at h ⊢
  unfold insertContact
  rw [List.find?_append]
  split
  · next he => subst he; rw [h]; simp
  · next he =>
    have hnew : List.find? (fun x => x.contactId == other)
        [(⟨contactId, userId, none, key, none, false, false⟩ : Contact)] = none := by
      simpa using fun heq => he heq.symm
    rw [hnew, Option.or_none]

theorem repin_id : ∀ c, (repin key c).contactId = c.contactId := fun _ => rfl

theorem repin_self (h : c.identityKey = key) : repin key c = c := by
  subst h
  simp [repin]

theorem contactOf_saveIdentity_other (hne : other ≠ contactId) :
    contactOf (saveIdentity contactId userId key s) other = contactOf s other := by
  unfold saveIdentity
  split
  · next h => rw [contactOf_insert h, if_neg hne]
  · exact contactOf_update_other repin_id hne

theorem contactOf_saveIdentity_new (h : contactOf s contactId = none) :
    contactOf (saveIdentity contactId userId key s) contactId =
      some ⟨contactId, userId, none, key, none, false, false⟩ := by
  unfold saveIdentity
  rw [h]
  exact (contactOf_insert h).trans (if_pos rfl)

theorem contactOf_saveIdentity_known (h : contactOf s contactId = some c) :
    contactOf (saveIdentity contactId userId key s) contactId = some (repin key c) := by
  unfold saveIdentity
  rw [h]
  exact contactOf_update_self repin_id h

theorem trusted_known (h : isTrustedIdentity s contactId key = true)
    (hc : contactOf s contactId = some c) : c.identityKey = key := by
  unfold isTrustedIdentity at h
  rw [hc] at h
  simpa using h

/-- Saving a trusted key pins a new contact and changes nothing of a known one. -/
theorem contactOf_saveIdentity_trusted (userId : String)
    (h : isTrustedIdentity s contactId key = true) :
    contactOf (saveIdentity contactId userId key s) contactId = some
      ((contactOf s contactId).getD ⟨contactId, userId, none, key, none, false, false⟩) := by
  cases hc : contactOf s contactId with
  | none => exact contactOf_saveIdentity_new hc
  | some c =>
    rw [contactOf_saveIdentity_known hc, repin_self (trusted_known h hc)]
    rfl

theorem saveIdentity_tables (s : Store) (contactId userId key : String) :
    (saveIdentity contactId userId key s).account = s.account ∧
    (saveIdentity contactId userId key s).remoteContacts = s.remoteContacts ∧
    (saveIdentity contactId userId key s).sessions = s.sessions ∧
    (saveIdentity contactId userId key s).peerOnions = s.peerOnions ∧
    (saveIdentity contactId userId key s).conversations = s.conversations := by
  unfold saveIdentity
  split <;> exact ⟨rfl, rfl, rfl, rfl, rfl⟩

theorem sessionOf_saveSession_other {ratchet : String} (hne : other ≠ contactId) :
    sessionOf (saveSession contactId ratchet s) other = sessionOf s other := by
  unfold sessionOf saveSession
  rw [List.find?_append, List.find?_filter]
  have hnew : List.find? (fun x => x.contactId == other)
      [(⟨contactId, ratchet⟩ : Session)] = none := by
    simpa using fun heq => hne heq.symm
  rw [hnew, Option.or_none]
  congr 1
  funext x
  by_cases hx : x.contactId = other
  · simp [hx, hne]
  · simp [hx]

theorem sessionOf_saveSession_self {ratchet : String} :
    sessionOf (saveSession contactId ratchet s) contactId = some ⟨contactId, ratchet⟩ := by
  unfold sessionOf saveSession
  rw [List.find?_append]
  have hold : List.find? (fun x => x.contactId == contactId)
      (s.sessions.filter (fun x => x.contactId != contactId)) = none := by
    simp
  rw [hold]
  simp

theorem saveSession_unused {ratchet : String} (h : sessionOf s contactId = none) :
    (saveSession contactId ratchet s).sessions = s.sessions ++ [⟨contactId, ratchet⟩] := by
  unfold sessionOf at h
  have hkept : s.sessions.filter (fun x => x.contactId != contactId) = s.sessions := by
    refine List.filter_eq_self.mpr fun x hx => ?_
    simpa using List.find?_eq_none.mp h x hx
  unfold saveSession
  rw [hkept]

end Lookup

/-- What a session that was built left: its key pinned already or now, the session in
place of any other, and nothing else. -/
structure Established (b : Bundle) (s t : Store) : Prop where
  trusted : isTrustedIdentity s b.contact b.identityPublicKey = true
  pinned : contactOf t b.contact = some ((contactOf s b.contact).getD
    ⟨b.contact, b.recipientUserId, none, b.identityPublicKey, none, false, false⟩)
  others : ∀ c, c ≠ b.contact → contactOf t c = contactOf s c
  sessions : t.sessions = (saveSession b.contact b.session s).sessions
  account : t.account = s.account
  remotes : t.remoteContacts = s.remoteContacts
  peers : t.peerOnions = s.peerOnions
  conversations : t.conversations = s.conversations

section Establish

variable {b : Bundle} {s t : Store}

/-- The key of a trusted contact, pinned before or now. -/
theorem trusted_key (h : isTrustedIdentity s b.contact b.identityPublicKey = true) :
    ((contactOf s b.contact).getD
      ⟨b.contact, b.recipientUserId, none, b.identityPublicKey, none, false, false⟩).identityKey =
      b.identityPublicKey := by
  cases hc : contactOf s b.contact with
  | none => rfl
  | some c => exact trusted_known h hc

theorem isTrustedIdentity_pinned {contactId key : String} {c : Contact}
    (h : contactOf s contactId = some c) (hkey : c.identityKey = key) :
    isTrustedIdentity s contactId key = true := by
  unfold isTrustedIdentity
  rw [h]
  simpa using hkey

theorem desktop_established (h : Executed (Desktop.establishSession b) s t) :
    Established b s t := by
  simp only [Desktop.establishSession, executed_cons, executed_nil, Option.some.injEq,
    exists_eq_left'] at h
  obtain ⟨u, hu, rfl⟩ := h
  unfold Desktop.pinIdentity at hu
  split at hu
  · next hchecks =>
    cases hu
    simp only [Bool.and_eq_true] at hchecks
    have htrusted := hchecks.2
    have hpinned := contactOf_saveIdentity_trusted b.recipientUserId htrusted
    have hagain : isTrustedIdentity (saveSession b.contact b.session
        (saveIdentity b.contact b.recipientUserId b.identityPublicKey s)) b.contact
        b.identityPublicKey = true := isTrustedIdentity_pinned hpinned (trusted_key htrusted)
    obtain ⟨haccount, hremotes, hsessions, hpeers, hconversations⟩ :=
      saveIdentity_tables (saveSession b.contact b.session
        (saveIdentity b.contact b.recipientUserId b.identityPublicKey s))
        b.contact b.recipientUserId b.identityPublicKey
    obtain ⟨haccount', hremotes', hsessions', hpeers', hconversations'⟩ :=
      saveIdentity_tables s b.contact b.recipientUserId b.identityPublicKey
    refine ⟨htrusted, ?_, fun c hc => ?_, ?_, haccount.trans haccount', hremotes.trans hremotes',
      hpeers.trans hpeers', hconversations.trans hconversations'⟩
    · rw [contactOf_saveIdentity_trusted _ hagain]
      change some ((contactOf (saveIdentity _ _ _ s) b.contact).getD _) = _
      rw [hpinned]
      rfl
    · rw [contactOf_saveIdentity_other hc]
      exact contactOf_saveIdentity_other hc
    · rw [hsessions]
      unfold saveSession
      rw [hsessions']
  · cases hu

/-- The mark does not make the key trusted. -/
theorem isTrustedIdentity_marked {contactId key : String} :
    isTrustedIdentity (Android.markChanged contactId s) contactId key =
      isTrustedIdentity s contactId key := by
  unfold isTrustedIdentity
  cases hc : contactOf s contactId with
  | none =>
    have hnone : contactOf (Android.markChanged contactId s) contactId = none :=
      contactOf_update_none (fun _ => rfl) hc
    rw [hnone]
  | some c =>
    have hsome : contactOf (Android.markChanged contactId s) contactId =
        some { c with identityChanged := true, verified := false } :=
      contactOf_update_self (fun _ => rfl) hc
    rw [hsome]

theorem android_established (h : Executed (Android.establish b) s t) : Established b s t := by
  simp only [Android.establish, executed_cons, executed_nil] at h
  obtain ⟨u, hu, v, hv, w, hw, rfl⟩ := h
  obtain ⟨htrusted, rfl⟩ :
      isTrustedIdentity u b.contact b.identityPublicKey = true ∧ v =
        (if (contactOf u b.contact).isNone then
          insertContact b.contact b.recipientUserId b.identityPublicKey u else u) := by
    unfold Android.pinIdentity at hv
    split at hv
    · next h => exact ⟨h, (Option.some.inj hv).symm⟩
    · cases hv
  obtain rfl : u = s := by
    unfold Android.markUntrusted at hu
    split at hu
    · split at hu
      · exact (Option.some.inj hu).symm
      · next hno =>
        obtain rfl := Option.some.inj hu
        rw [isTrustedIdentity_marked] at htrusted
        exact absurd htrusted hno
    · cases hu
  have hbuilt (x : Store) (hx : Android.buildSession b x = some w) :
      w = saveSession b.contact b.session x := by
    unfold Android.buildSession at hx
    split at hx
    · exact (Option.some.inj hx).symm
    · cases hx
  obtain rfl := hbuilt _ hw
  cases hc : contactOf u b.contact with
  | none =>
    refine ⟨htrusted, ?_, fun c hne => ?_, rfl, rfl, rfl, rfl, rfl⟩
    · exact (contactOf_insert hc).trans (by rw [if_pos rfl, hc]; rfl)
    · exact (contactOf_insert hc).trans (if_neg hne)
  | some x => exact ⟨htrusted, by rw [hc]; exact hc, fun _ _ => rfl, rfl, rfl, rfl, rfl, rfl⟩

end Establish

end ContactStore
