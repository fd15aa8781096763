import CryptoPigeon.BundleConfinement
import CryptoPigeon.ContactVerification

/-! # A pinned contact that presents another key

Where a relay bundle, a prekey message or an invite shows a key that is not the one
pinned for its address, and what blocks a contact once it is marked. libsignal asks
`isTrustedIdentity` and throws without `saveIdentity` when the answer is no. The answer
marks the contact on Android only, and the transactions of an envelope and of an import
are rolled back with the mark. -/
namespace IdentityChanges

open TransitionSystem StatementRun ContactStore
open VaultStore (Contact RemoteContact)
open ConsumeIncoming (ClientKind)
open BundleConfinement (answered accepted)
open InvitePinning (importServerlessContact)

variable (fingerprint : String → String → String → String → String)

/-- A received envelope: the key in it if it is a prekey message, and the session its
decryption leaves if it has a payload that can be stored. -/
structure Envelope where
  senderId : String
  identityKey : Option String
  session : Option String
  receipt : Bool
  deriving DecidableEq, Repr

/-- Address of a sender and the contact it is stored as. -/
structure Peer where
  contactId : String
  userId : String
  signalDeviceId : Nat
  deriving DecidableEq, Repr

def Peer.address (p : Peer) : String := addressOf p.userId p.signalDeviceId

/-- One round of the loop of `syncMessages` or `consumeIncoming`: the answer to the bundle
request for an unknown sender, and the statements executed on it and for the envelope. -/
structure Round where
  envelope : Envelope
  answer : Option Bundle
  newId : String
  executed : Nat
  committed : Nat
  deriving DecidableEq, Repr

def storeSession (p : Peer) (e : Envelope) : Statement Store := fun s =>
  e.session.map (fun ratchet => saveSession p.address ratchet s)

/-- `decryptPayload`: libsignal checks the key of a prekey message before it saves it. -/
def Desktop.decryptPayload (p : Peer) (e : Envelope) : List (Statement Store) :=
  match e.identityKey with
  | none => [storeSession p e]
  | some key =>
    [fun s => if isTrustedIdentity s p.address key then some (saveIdentity p.address p.userId key s)
      else none, storeSession p e]

/-- Android's `decrypt` asks and saves itself before libsignal does. -/
def Android.decrypt (p : Peer) (e : Envelope) : List (Statement Store) :=
  match e.identityKey with
  | none => [storeSession p e]
  | some key =>
    [fun s => some (if isTrustedIdentity s p.address key then s
        else Android.markChanged p.address s),
      fun s => if isTrustedIdentity s p.address key then
          some (if (contactOf s p.address).isNone then insertContact p.address p.userId key s else s)
        else none, storeSession p e]

def decrypt : ClientKind → Peer → Envelope → List (Statement Store)
  | .desktop => Desktop.decryptPayload
  | .android => Android.decrypt

/-- The transaction of an envelope, without the message tables. -/
def consumption (kind : ClientKind) (p : Peer) (r : Round) : List (Statement Store) :=
  decrypt kind p r.envelope ++ [fun s => some (findOrCreateConversation p.contactId r.newId s)]

def remoteOfDevice (s : Store) (deviceId : String) : Option RemoteContact :=
  s.remoteContacts.find? (fun r => r.deviceId == deviceId)

/-- The sender of an envelope; an unknown one is added from the bundle the relay returns. -/
def resolveSender (kind : ClientKind) (r : Round) (s : Store) : Store × Option Peer :=
  match remoteOfDevice s r.envelope.senderId, r.answer with
  | some q, _ => (s, some ⟨q.contactId, q.userId, q.signalDeviceId⟩)
  | none, none => (s, none)
  | none, some b =>
    let added := autocommit r.executed
      (answered fingerprint kind (.recipientDeviceId r.envelope.senderId) r.newId b) s
    (added.state,
      if added.thrown then none else some ⟨b.contact, b.recipientUserId, b.signalDeviceId⟩)

/-- Whose envelope was consumed, and to whom a receipt may have been encrypted. -/
structure Performed where
  store : Store
  consumed : List String
  encrypted : List String

def receive (kind : ClientKind) (r : Round) (s : Store) : Performed :=
  match resolveSender fingerprint kind r s with
  | (u, none) => ⟨u, [], []⟩
  | (u, some p) =>
    if changed u p.contactId then ⟨u, [], []⟩
    else
      let ran := transaction r.committed (consumption kind p r) u
      ⟨ran.state, if ran.thrown then [] else [p.contactId],
        if r.envelope.receipt then [p.contactId] else []⟩

inductive Operation
  | addContactAndSession (username newId : String) (b : Bundle) (executed : Nat)
  | syncMessages (r : Round)
  | importServerlessContact (newId : String) (i : Invite) (executed : Nat)

/-- How many statements on a bundle the operation executes at most. -/
def Operation.executed : Operation → Nat
  | .addContactAndSession _ _ _ n => n
  | .syncMessages r => r.executed
  | .importServerlessContact _ _ n => n

def perform (kind : ClientKind) (s : Store) : Operation → Performed
  | .addContactAndSession username newId b n =>
    ⟨(autocommit n (answered fingerprint kind (.recipientUsername username) newId b) s).state,
      [], []⟩
  | .syncMessages r => receive fingerprint kind r s
  | .importServerlessContact newId i n =>
    ⟨(importServerlessContact fingerprint kind newId i n s).state, [], []⟩

/-- Contact of a conversation a message or control may be encrypted for. -/
def recipient (s : Store) (conversationId : String) : Option String :=
  match s.conversations.find? (fun v => v.conversationId == conversationId) with
  | none => none
  | some v =>
    match s.remoteContacts.find? (fun r => r.contactId == v.contactId), contactOf s v.contactId with
    | some _, some c => if c.identityChanged then none else some v.contactId
    | _, _ => none

inductive Event
  | operation (o : Operation)
  | sendMessage (conversationId : String)
  | queueControl (conversationId : String)
  | verify (contactId number : String)

/-- The store, and everyone something was encrypted to or consumed of. -/
structure Client where
  store : Store
  encrypted : List String
  consumed : List String

def next (kind : ClientKind) (s : Client) : Event → Client
  | .operation o =>
    let p := perform fingerprint kind s.store o
    ⟨p.store, s.encrypted ++ p.encrypted, s.consumed ++ p.consumed⟩
  | .sendMessage conversationId | .queueControl conversationId =>
    { s with encrypted := s.encrypted ++ (recipient s.store conversationId).toList }
  | .verify contactId number =>
    { s with store := ContactVerification.verify contactId number s.store }

def system (kind : ClientKind) (s : Store) : System Client Event where
  Initial := fun c => c = ⟨s, [], []⟩
  Enabled := fun _ _ => True
  next := next fingerprint kind

/-- The user adds the contact once more, with the key that is pinned. -/
def Reapproves (kind : ClientKind) (contactId : String) (s : Client) : Event → Prop
  | .operation (.addContactAndSession _ _ b _) =>
    kind = .desktop ∧ b.contact = contactId ∧ accepted b s.store = true
  | _ => False

inductive Source where
  | relayBundle
  | prekeyMessage
  | invite
  deriving DecidableEq, Repr

/-- The operation meets a key for an address. -/
inductive Presents (kind : ClientKind) (s : Store) : Operation → Source → String → String → Prop
  | added {username newId : String} {b : Bundle} {n : Nat} : b.readable = true →
      Presents kind s (.addContactAndSession username newId b n) .relayBundle
        b.contact b.identityPublicKey
  | fetched {r : Round} {b : Bundle} : remoteOfDevice s r.envelope.senderId = none →
      r.answer = some b → b.readable = true →
      Presents kind s (.syncMessages r) .relayBundle b.contact b.identityPublicKey
  | message {r : Round} {p : Peer} {key : String} :
      (resolveSender fingerprint kind r s).2 = some p → r.envelope.identityKey = some key →
      Presents kind s (.syncMessages r) .prekeyMessage p.address key
  | invite {newId : String} {i : Invite} {n : Nat} :
      Presents kind s (.importServerlessContact newId i n) .invite i.contact i.identityPublicKey

/-- The contact is marked as changed and keeps its key. -/
def Recorded (address key : String) (s : Store) : Prop :=
  ∃ c, contactOf s address = some c ∧ c.identityChanged = true ∧ c.verified = false ∧
    c.identityKey = key

/-- Until it is approved again, nothing is encrypted to the contact or consumed of it. -/
def Blocked (kind : ClientKind) (contactId : String) (s : Store) : Prop :=
  ∀ es t, Execution ((system fingerprint kind s).Within
      (fun c e => ¬ Reapproves kind contactId c e)) ⟨s, [], []⟩ es t →
    contactId ∉ t.encrypted ∧ contactId ∉ t.consumed

section Marks

variable {fingerprint} {kind : ClientKind} {request : BundleConfinement.Request} {s t u : Store}
  {contactId other key newId : String} {b : Bundle} {n : Nat} {x : Statement Store}

theorem changed_iff : changed s contactId = true ↔
    ∃ c, contactOf s contactId = some c ∧ c.identityChanged = true := by
  unfold changed
  cases contactOf s contactId <;> simp

/-- A contact that is marked in `s` is so in `t`. -/
def KeepsMark (contactId : String) (s t : Store) : Prop :=
  changed s contactId = true → changed t contactId = true

theorem KeepsMark.of_contact (h : contactOf t contactId = contactOf s contactId) :
    KeepsMark contactId s t := by
  intro hs
  unfold changed at hs ⊢
  rw [h]
  exact hs

theorem KeepsMark.trans (h : KeepsMark contactId s t) (k : KeepsMark contactId t u) :
    KeepsMark contactId s u := fun hs => k (h hs)

theorem keepsMark_update {f : Contact → Contact} (hid : ∀ c, (f c).contactId = c.contactId)
    (hf : ∀ c, c.identityChanged = true → (f c).identityChanged = true) :
    KeepsMark contactId s (updateContact other f s) := by
  intro hs
  obtain ⟨c, hc, hchanged⟩ := changed_iff.mp hs
  refine changed_iff.mpr ⟨if c.contactId = other then f c else c,
    by rw [contactOf_update hid, hc]; rfl, ?_⟩
  split
  · exact hf c hchanged
  · exact hchanged

theorem keepsMark_insert {userId : String} (hnone : contactOf s other = none) :
    KeepsMark contactId s (insertContact other userId key s) := by
  intro hs
  obtain ⟨c, hc, hchanged⟩ := changed_iff.mp hs
  refine changed_iff.mpr ⟨c, ?_, hchanged⟩
  have hne : contactId ≠ other := fun heq => by rw [heq, hnone] at hc; cases hc
  rw [contactOf_insert hnone, if_neg hne]
  exact hc

theorem keepsMark_saveIdentity {userId : String} :
    KeepsMark contactId s (saveIdentity other userId key s) := by
  unfold saveIdentity
  split
  · next hnone => exact keepsMark_insert hnone
  · exact keepsMark_update repin_id fun c hc => by simp [repin, hc]

theorem contactOf_findOrCreate : contactOf (findOrCreateConversation other newId s) contactId =
    contactOf s contactId := by
  unfold findOrCreateConversation
  split <;> rfl

/-- A statement on a bundle clears no mark but, on the desktop, that of the contact a user
adds. -/
theorem wrote_keepsMark (hnot : ¬ BundleConfinement.Clears kind request ∨ contactId ≠ b.contact)
    (h : BundleConfinement.Wrote kind request b s t) : KeepsMark contactId s t := by
  by_cases hne : contactId = b.contact
  · subst hne
    cases h with
    | nothing => exact id
    | marked _ => exact keepsMark_update (fun _ => rfl) fun _ _ => rfl
    | identity => exact keepsMark_saveIdentity
    | inserted hnone => exact keepsMark_insert hnone
    | named f hid hf =>
      have hkept := hf (hnot.resolve_right fun h => h rfl)
      exact keepsMark_update hid fun c hc => (hkept c).2.1.trans hc
    | session => exact id
    | upserted hr => exact id
    | replaced hr => exact id
    | conversation newId => exact .of_contact contactOf_findOrCreate
  · exact .of_contact (h.same hne).contact

theorem answered_keepsMark
    (hnot : ¬ BundleConfinement.Clears kind request ∨ contactId ≠ b.contact) :
    KeepsMark contactId s (autocommit n (answered fingerprint kind request newId b) s).state :=
  autocommit_invariant (I := KeepsMark contactId s)
    (fun _ hx _ _ hu hv => hu.trans (wrote_keepsMark hnot (BundleConfinement.answered_wrote hx hv)))
    id

theorem refused_keepsMark (h : BundleConfinement.Refused b s t) : KeepsMark contactId s t := by
  cases h with
  | nothing => exact id
  | marked => exact keepsMark_update (fun _ => rfl) fun _ _ => rfl
  | inserted hnone => exact keepsMark_insert hnone

theorem storeSession_contacts {p : Peer} {e : Envelope} (h : storeSession p e s = some t) :
    t.contacts = s.contacts := by
  obtain ⟨ratchet, -, rfl⟩ := Option.map_eq_some_iff.mp h
  rfl

theorem consumption_keepsMark {p : Peer} {r : Round} (hx : x ∈ consumption kind p r)
    (h : x s = some t) : KeepsMark contactId s t := by
  have hstored (h : storeSession p r.envelope s = some t) : KeepsMark contactId s t :=
    .of_contact (ContactVerification.contactOf_congr (storeSession_contacts h))
  rcases List.mem_append.mp hx with hx | hx
  · cases kind with
    | desktop =>
      simp only [decrypt, Desktop.decryptPayload] at hx
      split at hx
      · exact hstored (List.mem_singleton.mp hx ▸ h)
      · simp only [List.mem_cons, List.not_mem_nil, or_false] at hx
        rcases hx with rfl | rfl
        · dsimp only at h
          split at h
          · exact Option.some.inj h ▸ keepsMark_saveIdentity
          · cases h
        · exact hstored h
    | android =>
      simp only [decrypt, Android.decrypt] at hx
      split at hx
      · exact hstored (List.mem_singleton.mp hx ▸ h)
      · simp only [List.mem_cons, List.not_mem_nil, or_false] at hx
        rcases hx with rfl | rfl | rfl
        · obtain rfl := Option.some.inj h
          split
          · exact id
          · exact keepsMark_update (fun _ => rfl) fun _ _ => rfl
        · dsimp only at h
          split at h
          · obtain rfl := Option.some.inj h
            split
            · next hnone => exact keepsMark_insert (by simpa using hnone)
            · exact id
          · cases h
        · exact hstored h
  · obtain rfl := List.mem_singleton.mp hx
    exact Option.some.inj h ▸ .of_contact contactOf_findOrCreate

/-- An import writes to the invited contact only. -/
theorem importStatements_contact {i : Invite} {r : Store}
    (hx : x ∈ InvitePinning.importStatements fingerprint kind newId i r) (h : x s = some t)
    (hne : contactId ≠ i.contact) : contactOf t contactId = contactOf s contactId := by
  have hpinned (h : requirePinned i s = some t) : contactOf t contactId = contactOf s contactId := by
    unfold requirePinned at h
    split at h
    · cases h
    · split at h
      · rw [Option.some.inj h]
      · cases h
  cases kind with
  | desktop =>
    simp only [InvitePinning.importStatements, Desktop.importStatements, List.mem_append,
      List.mem_cons, List.not_mem_nil, or_false] at hx
    rcases hx with hx | rfl | rfl | rfl | rfl
    · split at hx
      · have hwrote : BundleConfinement.Wrote .desktop (.recipientDeviceId i.deviceId) i.bundle
            s t := BundleConfinement.establish_wrote hx h
        exact (hwrote.same hne).contact
      · exact hpinned (List.mem_singleton.mp hx ▸ h)
    · obtain rfl := Option.some.inj h
      unfold insertRemote
      split <;> rfl
    · obtain rfl := Option.some.inj h
      rfl
    · obtain ⟨number, -, rfl⟩ := Option.map_eq_some_iff.mp h
      exact contactOf_update_other (fun _ => rfl) hne
    · obtain rfl := Option.some.inj h
      exact contactOf_findOrCreate
  | android =>
    simp only [InvitePinning.importStatements, Android.importStatements, List.mem_append,
      List.mem_cons, List.not_mem_nil, or_false] at hx
    rcases hx with hx | rfl | rfl
    · split at hx
      · have hmem : x ∈ answered fingerprint .android (.recipientDeviceId i.deviceId) newId
            i.bundle := hx
        exact ((BundleConfinement.answered_wrote hmem h).same hne).contact
      · simp only [List.mem_cons, List.not_mem_nil, or_false] at hx
        rcases hx with rfl | rfl
        · exact hpinned h
        · obtain rfl := Option.some.inj h
          exact contactOf_findOrCreate
    · obtain rfl := Option.some.inj h
      rfl
    · obtain rfl := Option.some.inj h
      exact contactOf_update_other (fun _ => rfl) hne

theorem import_keepsMark {i : Invite} : KeepsMark contactId s
    (importServerlessContact fingerprint kind newId i n s).state := by
  intro hs
  unfold importServerlessContact
  split
  · next himportable =>
    -- a marked contact is not importable
    have hne : contactId ≠ i.contact := by
      rintro rfl
      simp [importable, hs] at himportable
    have hsame : contactOf (transaction n
        (InvitePinning.importStatements fingerprint kind newId i s) s).state contactId =
          contactOf s contactId :=
      transaction_invariant (I := fun t => contactOf t contactId = contactOf s contactId)
        (fun _ hx _ _ hu hv => (importStatements_contact hx hv hne).trans hu) rfl
    exact KeepsMark.of_contact hsame hs
  · exact hs

theorem sync_not_clears {deviceId : String} :
    ¬ BundleConfinement.Clears kind (.recipientDeviceId deviceId) := by
  rintro ⟨-, username, h⟩
  cases h

theorem resolveSender_keepsMark (r : Round) :
    KeepsMark contactId s (resolveSender fingerprint kind r s).1 := by
  unfold resolveSender
  split
  · exact id
  · exact id
  · exact answered_keepsMark (.inl sync_not_clears)

end Marks

section Blocking

variable {fingerprint} {kind : ClientKind} {s : Store} {contactId : String} {cl : Client}

/-- A marked contact stays so, and is left out. -/
structure LeavesOut (contactId : String) (s : Store) (p : Performed) : Prop where
  mark : changed p.store contactId = true
  encrypted : contactId ∉ p.encrypted
  consumed : contactId ∉ p.consumed

theorem receive_leavesOut (h : changed s contactId = true) (r : Round) :
    LeavesOut contactId s (receive fingerprint kind r s) := by
  have hmark : changed (resolveSender fingerprint kind r s).1 contactId = true :=
    resolveSender_keepsMark r h
  unfold receive
  cases hresolved : resolveSender fingerprint kind r s with
  | mk u peer =>
    rw [hresolved] at hmark
    cases peer with
    | none => exact ⟨hmark, by simp, by simp⟩
    | some p =>
      dsimp only
      split
      · exact ⟨hmark, by simp, by simp⟩
      · next hunmarked =>
        have hne : contactId ≠ p.contactId := fun heq => hunmarked (heq ▸ hmark)
        refine ⟨?_, ?_, ?_⟩
        · exact transaction_invariant (I := fun t => changed t contactId = true)
            (fun _ hx _ _ hu hv => consumption_keepsMark hx hv hu) hmark
        · split <;> simp [hne]
        · split <;> simp [hne]

theorem perform_leavesOut {o : Operation} (h : changed s contactId = true)
    (hnot : ¬ Reapproves kind contactId ⟨s, [], []⟩ (.operation o)) :
    LeavesOut contactId s (perform fingerprint kind s o) := by
  cases o with
  | addContactAndSession username newId b n =>
    refine ⟨?_, List.not_mem_nil, List.not_mem_nil⟩
    cases haccepted : accepted b s with
    | false => exact refused_keepsMark (BundleConfinement.run_refused haccepted) h
    | true =>
      refine answered_keepsMark ?_ h
      by_cases hb : b.contact = contactId
      · exact .inl fun hclears => hnot ⟨hclears.1, hb, haccepted⟩
      · exact .inr (Ne.symm hb)
  | syncMessages r => exact receive_leavesOut h r
  | importServerlessContact newId i n =>
    exact ⟨import_keepsMark h, List.not_mem_nil, List.not_mem_nil⟩

theorem recipient_unmarked {conversationId : String} (h : changed s contactId = true) :
    contactId ∉ (recipient s conversationId).toList := by
  intro hmem
  obtain ⟨c, hc, hchanged⟩ := changed_iff.mp h
  have hrecipient : recipient s conversationId = some contactId := by simpa using hmem
  unfold recipient at hrecipient
  split at hrecipient
  · cases hrecipient
  · split at hrecipient
    · next x hx =>
      split at hrecipient
      · cases hrecipient
      · next hunchanged =>
        have hcontact := Option.some.inj hrecipient
        rw [hcontact, hc] at hx
        rw [← Option.some.inj hx] at hunchanged
        exact hunchanged hchanged
    · cases hrecipient

theorem verify_keepsMark {other number : String} :
    KeepsMark contactId s (ContactVerification.verify other number s) := by
  unfold ContactVerification.verify
  split
  · refine keepsMark_update (ContactVerification.markVerified_id number) fun c hc => ?_
    unfold ContactVerification.markVerified
    split <;> exact hc
  · exact id

/-- One event that does not approve the contact leaves it marked and out. -/
theorem step_leavesOut {e : Event} (h : changed cl.store contactId = true)
    (hout : contactId ∉ cl.encrypted ∧ contactId ∉ cl.consumed)
    (hnot : ¬ Reapproves kind contactId cl e) :
    changed (next fingerprint kind cl e).store contactId = true ∧
      contactId ∉ (next fingerprint kind cl e).encrypted ∧
      contactId ∉ (next fingerprint kind cl e).consumed := by
  cases e with
  | operation o =>
    have hleaves : LeavesOut contactId cl.store (perform fingerprint kind cl.store o) :=
      perform_leavesOut h (by cases o <;> exact hnot)
    exact ⟨hleaves.mark, fun hmem => (List.mem_append.mp hmem).elim hout.1 hleaves.encrypted,
      fun hmem => (List.mem_append.mp hmem).elim hout.2 hleaves.consumed⟩
  | sendMessage conversationId | queueControl conversationId =>
    exact ⟨h, fun hmem => (List.mem_append.mp hmem).elim hout.1 (recipient_unmarked h), hout.2⟩
  | verify other number => exact ⟨verify_keepsMark h, hout⟩

theorem marked_blocked (h : changed s contactId = true) : Blocked fingerprint kind contactId s := by
  intro es t hx
  have hrun : changed t.store contactId = true ∧ contactId ∉ t.encrypted ∧
      contactId ∉ t.consumed := by
    refine execution_invariant (I := fun cl => changed cl.store contactId = true ∧
      contactId ∉ cl.encrypted ∧ contactId ∉ cl.consumed) ?_ hx
      ⟨h, List.not_mem_nil, List.not_mem_nil⟩
    exact fun cl e hcl he => step_leavesOut hcl.1 hcl.2 he.2
  exact hrun.2

theorem recorded_blocked {key : String} (h : Recorded contactId key s) :
    Blocked fingerprint kind contactId s := by
  obtain ⟨c, hc, hchanged, -⟩ := h
  exact marked_blocked (changed_iff.mpr ⟨c, hc, hchanged⟩)

end Blocking

section Recording

variable {fingerprint} {kind : ClientKind} {request : BundleConfinement.Request} {s t u : Store}
  {o : Operation} {source : Source} {address key newId : String} {b : Bundle} {c : Contact}
  {n : Nat}

/-- The pinned key and both flags of the contact are as in `s`. -/
def KeepsPin (address : String) (s t : Store) : Prop :=
  ∀ c, contactOf s address = some c → ∃ d, contactOf t address = some d ∧
    d.identityKey = c.identityKey ∧ d.identityChanged = c.identityChanged ∧ d.verified = c.verified

theorem KeepsPin.of_contact (h : contactOf t address = contactOf s address) :
    KeepsPin address s t := fun c hc => ⟨c, h.trans hc, rfl, rfl, rfl⟩

theorem KeepsPin.recorded_iff (h : KeepsPin address s t) (hc : contactOf s address = some c) :
    Recorded address c.identityKey t ↔ c.identityChanged = true ∧ c.verified = false := by
  obtain ⟨d, hd, hkey, hchanged, hverified⟩ := h c hc
  constructor
  · rintro ⟨x, hx, hxchanged, hxverified, -⟩
    obtain rfl := Option.some.inj (hd.symm.trans hx)
    exact ⟨hchanged.symm.trans hxchanged, hverified.symm.trans hxverified⟩
  · rintro ⟨hcchanged, hcverified⟩
    exact ⟨d, hd, hchanged.trans hcchanged, hverified.trans hcverified, hkey⟩

theorem untrusted (hc : contactOf s address = some c) (hkey : c.identityKey ≠ key) :
    isTrustedIdentity s address key = false := by
  unfold isTrustedIdentity
  rw [hc]
  simpa using hkey

/-- With another key than the pinned one a bundle stops at its identity; Android has
marked the contact by then. -/
theorem answered_untrusted (hreadable : b.readable = true)
    (h : isTrustedIdentity s b.contact b.identityPublicKey = false) :
    autocommit n (answered fingerprint kind request newId b) s =
      ⟨if kind = .android ∧ 0 < n then Android.markChanged b.contact s else s, true⟩ := by
  rw [BundleConfinement.answered_eq]
  cases kind with
  | desktop =>
    have hthrows : Desktop.pinIdentity b s = none := by
      unfold Desktop.pinIdentity
      rw [h, Bool.and_false]
      rfl
    rw [if_neg (by simp)]
    exact autocommit_throws hthrows
  | android =>
    have hmark : Android.markUntrusted b s = some (Android.markChanged b.contact s) := by
      unfold Android.markUntrusted
      rw [if_pos hreadable, h]
      rfl
    have hthrows : Android.pinIdentity b (Android.markChanged b.contact s) = none := by
      unfold Android.pinIdentity
      rw [isTrustedIdentity_marked, h]
      rfl
    cases n with
    | zero => rfl
    | succ n =>
      rw [if_pos ⟨rfl, Nat.succ_pos n⟩]
      exact (autocommit_cons hmark).trans (autocommit_throws hthrows)

theorem marked_recorded (hc : contactOf s address = some c) :
    Recorded address c.identityKey (Android.markChanged address s) :=
  ⟨{ c with identityChanged := true, verified := false },
    contactOf_update_self (fun _ => rfl) hc, rfl, rfl, rfl⟩

/-- What a bundle with another key leaves on record. -/
theorem answered_recorded_iff (hreadable : b.readable = true)
    (hc : contactOf s b.contact = some c) (hkey : c.identityKey ≠ b.identityPublicKey) :
    Recorded b.contact c.identityKey
      (autocommit n (answered fingerprint kind request newId b) s).state ↔
      (c.identityChanged = true ∧ c.verified = false) ∨ (kind = .android ∧ 0 < n) := by
  rw [answered_untrusted hreadable (untrusted hc hkey)]
  dsimp only
  split
  · next hmarked => simp [marked_recorded hc, hmarked]
  · next hunmarked =>
    rw [(KeepsPin.of_contact rfl).recorded_iff hc]
    simp [hunmarked]

theorem established_of (h : Executed (BundleConfinement.establish kind b) s t) :
    Established b s t := by
  cases kind with
  | desktop => exact desktop_established h
  | android => exact android_established h

/-- Statements on a bundle with the pinned key keep the flags of its contact. -/
theorem wrote_keepsPin (hnot : ¬ BundleConfinement.Clears kind request)
    (hc : contactOf s b.contact = some c) (hkey : c.identityKey = b.identityPublicKey)
    (h : BundleConfinement.Wrote kind request b s t) :
    ∃ d, contactOf t b.contact = some d ∧ d.identityKey = c.identityKey ∧
      d.identityChanged = c.identityChanged ∧ d.verified = c.verified := by
  have htrusted := isTrustedIdentity_pinned hc hkey
  cases h with
  | nothing => exact ⟨c, hc, rfl, rfl, rfl⟩
  | marked huntrusted => rw [htrusted] at huntrusted; cases huntrusted
  | identity =>
    refine ⟨c, ?_, rfl, rfl, rfl⟩
    rw [contactOf_saveIdentity_trusted _ htrusted, hc]
    rfl
  | inserted hnone => rw [hnone] at hc; cases hc
  | named f hid hf => exact ⟨f c, contactOf_update_self hid hc, hf hnot c⟩
  | session => exact ⟨c, hc, rfl, rfl, rfl⟩
  | upserted => exact ⟨c, hc, rfl, rfl, rfl⟩
  | replaced => exact ⟨c, hc, rfl, rfl, rfl⟩
  | conversation newId => exact ⟨c, contactOf_findOrCreate.trans hc, rfl, rfl, rfl⟩

theorem answered_keepsPin (hnot : ¬ BundleConfinement.Clears kind request)
    (h : (autocommit n (answered fingerprint kind request newId b) s).thrown = false) :
    KeepsPin b.contact s (autocommit n (answered fingerprint kind request newId b) s).state := by
  intro c hc
  have hexecuted := autocommit_executed h
  rw [BundleConfinement.answered_eq] at hexecuted
  obtain ⟨u, hestablish, -⟩ := executed_append.mp hexecuted
  have hkey := trusted_known (established_of hestablish).trusted hc
  refine autocommit_invariant (I := fun t => ∃ d, contactOf t b.contact = some d ∧
    d.identityKey = c.identityKey ∧ d.identityChanged = c.identityChanged ∧
    d.verified = c.verified) (fun x hx v w hv hw => ?_) ⟨c, hc, rfl, rfl, rfl⟩
  obtain ⟨d, hd, hdkey, hdchanged, hdverified⟩ := hv
  obtain ⟨e, he, hekey, hechanged, heverified⟩ :=
    wrote_keepsPin hnot hd (hdkey.trans hkey) (BundleConfinement.answered_wrote hx hw)
  exact ⟨e, he, hekey.trans hdkey, hechanged.trans hdchanged, heverified.trans hdverified⟩

theorem resolveSender_keepsPin {r : Round} {p : Peer}
    (h : resolveSender fingerprint kind r s = (u, some p)) : KeepsPin p.address s u := by
  unfold resolveSender at h
  split at h
  · obtain ⟨rfl, -⟩ := Prod.mk.inj h
    exact .of_contact rfl
  · cases (Prod.mk.inj h).2
  · obtain ⟨hu, hp⟩ := Prod.mk.inj h
    split at hp
    · cases hp
    · next hreturned =>
      obtain rfl := Option.some.inj hp
      rw [← hu]
      exact answered_keepsPin sync_not_clears (by simpa using hreturned)

/-- The mark of a message with another key goes with its transaction. -/
theorem consumption_untrusted {p : Peer} {r : Round} (hkey : r.envelope.identityKey = some key)
    (h : isTrustedIdentity s p.address key = false) :
    (transaction n (consumption kind p r) s).thrown = true := by
  by_contra hthrown
  have hreturned : (transaction n (consumption kind p r) s).thrown = false := by simpa using hthrown
  obtain ⟨t, hdecrypt, -⟩ := executed_append.mp (transaction_executed hreturned)
  cases kind with
  | desktop =>
    simp only [decrypt, Desktop.decryptPayload, hkey, executed_cons, h] at hdecrypt
    simp at hdecrypt
  | android =>
    simp only [decrypt, Android.decrypt, hkey, executed_cons, h] at hdecrypt
    simp [isTrustedIdentity_marked, h] at hdecrypt

theorem receive_untrusted {r : Round} {p : Peer}
    (hresolved : resolveSender fingerprint kind r s = (u, some p))
    (hkey : r.envelope.identityKey = some key) (h : isTrustedIdentity u p.address key = false) :
    (receive fingerprint kind r s).store = u := by
  unfold receive
  rw [hresolved]
  dsimp only
  split
  · rfl
  · exact transaction_thrown (consumption_untrusted hkey h)

/-- An import that returned found the pinned key. -/
theorem import_trusted {i : Invite} (h : Executed (InvitePinning.importStatements fingerprint kind
    newId i s) s t) : isTrustedIdentity s i.contact i.identityPublicKey = true := by
  have hpinned {v : Store} (h : requirePinned i s = some v) :
      isTrustedIdentity s i.contact i.identityPublicKey = true := by
    unfold requirePinned at h
    split at h
    · cases h
    · next x hx =>
      split at h
      · next hkey => exact isTrustedIdentity_pinned hx hkey
      · cases h
  cases kind with
  | desktop =>
    obtain ⟨v, hopen, -⟩ := executed_append.mp h
    split at hopen
    · exact (desktop_established hopen).trusted
    · obtain ⟨w, hw, -⟩ := executed_cons.mp hopen
      exact hpinned hw
  | android =>
    obtain ⟨v, hopen, -⟩ := executed_append.mp h
    split at hopen
    · obtain ⟨w, hestablish, -⟩ := executed_append.mp hopen
      exact (android_established hestablish).trusted
    · obtain ⟨w, hw, -⟩ := executed_cons.mp hopen
      exact hpinned hw

theorem import_untrusted {i : Invite}
    (h : isTrustedIdentity s i.contact i.identityPublicKey = false) :
    (importServerlessContact fingerprint kind newId i n s).state = s := by
  unfold importServerlessContact
  split
  · refine transaction_thrown ?_
    by_contra hreturned
    rw [import_trusted (transaction_executed (by simpa using hreturned))] at h
    cases h
  · rfl

theorem presented_recorded_iff (hp : Presents fingerprint kind s o source address key)
    (hc : contactOf s address = some c) (hkey : c.identityKey ≠ key) :
    Recorded address c.identityKey (perform fingerprint kind s o).store ↔
      (c.identityChanged = true ∧ c.verified = false) ∨
        (kind = .android ∧ source = .relayBundle ∧ 0 < o.executed) := by
  cases hp with
  | @added username newId b n hreadable =>
    change Recorded _ _ (autocommit n (answered fingerprint kind (.recipientUsername username)
      newId b) s).state ↔ _
    simpa [Operation.executed] using answered_recorded_iff hreadable hc hkey
  | @fetched r b hunknown hanswer hreadable =>
    have hstore : (receive fingerprint kind r s).store = (autocommit r.executed (answered
        fingerprint kind (.recipientDeviceId r.envelope.senderId) r.newId b) s).state := by
      have hthrown : (autocommit r.executed (answered fingerprint kind
          (.recipientDeviceId r.envelope.senderId) r.newId b) s).thrown = true := by
        rw [answered_untrusted hreadable (untrusted hc hkey)]
      unfold receive resolveSender
      rw [hunknown, hanswer]
      dsimp only
      rw [hthrown]
      rfl
    change Recorded _ _ (receive fingerprint kind r s).store ↔ _
    rw [hstore]
    simpa [Operation.executed] using answered_recorded_iff hreadable hc hkey
  | @message r p key hresolved hmessage =>
    have hresolved' : resolveSender fingerprint kind r s =
        ((resolveSender fingerprint kind r s).1, some p) := by rw [← hresolved]
    have hkept := resolveSender_keepsPin hresolved'
    obtain ⟨d, hd, hdkey, -⟩ := hkept c hc
    have hstore := receive_untrusted hresolved' hmessage
      (untrusted hd (by rw [hdkey]; exact hkey))
    change Recorded _ _ (receive fingerprint kind r s).store ↔ _
    rw [hstore, hkept.recorded_iff hc]
    simp
  | @invite newId i n =>
    change Recorded _ _ (importServerlessContact fingerprint kind newId i n s).state ↔ _
    rw [import_untrusted (untrusted hc hkey), (KeepsPin.of_contact rfl).recorded_iff hc]
    simp

/-- A changed key is recorded, and the contact blocked, exactly if the contact was marked
already or Android met the key in a relay bundle. -/
theorem changed_key_recorded_iff (hp : Presents fingerprint kind s o source address key)
    (hc : contactOf s address = some c) (hkey : c.identityKey ≠ key) :
    Recorded address c.identityKey (perform fingerprint kind s o).store ∧
        Blocked fingerprint kind address (perform fingerprint kind s o).store ↔
      (c.identityChanged = true ∧ c.verified = false) ∨
        (kind = .android ∧ source = .relayBundle ∧ 0 < o.executed) := by
  rw [← presented_recorded_iff hp hc hkey]
  exact ⟨And.left, fun hrecorded => ⟨hrecorded, recorded_blocked hrecorded⟩⟩

end Recording

section Examples

open BundleConfinement (bob joined)

/-- Any other key met for a pinned contact is recorded. -/
def AlwaysRecorded (kind : ClientKind) : Prop :=
  ∀ s o source address key c, Presents joined kind s o source address key →
    contactOf s address = some c → c.identityKey ≠ key →
    Recorded address c.identityKey (perform joined kind s o).store ∧
      Blocked joined kind address (perform joined kind s o).store

def verified : Contact :=
  ⟨addressOf "bob" 1, "bob", some "CP-B", "bob-key", some "number", true, false⟩

/-- The relay answers with another key for the verified contact. -/
def replaced : Bundle :=
  ⟨"bob", some "bob-device", 1, "other-key", some "bob", some "CP-B", true, true, "session"⟩

/-- The verified contact's device sends a prekey message under another key. -/
def reinstalled : Round :=
  ⟨⟨"bob-device", some "other-key", some "session", false⟩, none, "new", 9, 9⟩

def readded : Operation := .addContactAndSession "bob" "new" replaced 9

theorem bundle_presents (kind : ClientKind) : Presents joined kind bob readded .relayBundle
    (addressOf "bob" 1) "other-key" :=
  .added rfl

theorem message_presents (kind : ClientKind) : Presents joined kind bob
    (.syncMessages reinstalled) .prekeyMessage (addressOf "bob" 1) "other-key" :=
  .message (p := ⟨addressOf "bob" 1, "bob", 1⟩) rfl rfl

/-- The contact stays verified: on the desktop after a bundle, on either client after a
prekey message. -/
theorem changed_key_not_recorded : ¬ AlwaysRecorded .desktop ∧ ¬ AlwaysRecorded .android := by
  constructor
  · intro h
    have hrecorded := (h bob readded .relayBundle _ _ verified (bundle_presents .desktop) rfl
      (by decide)).1
    have hmarked := (presented_recorded_iff (bundle_presents .desktop) rfl (by decide)).mp hrecorded
    revert hmarked
    decide
  · intro h
    have hrecorded := (h bob _ .prekeyMessage _ _ verified (message_presents .android) rfl
      (by decide)).1
    have hmarked := (presented_recorded_iff (message_presents .android) rfl (by decide)).mp
      hrecorded
    revert hmarked
    decide

/-- Android records the key of the bundle. -/
theorem readded_recorded : Recorded (addressOf "bob" 1) "bob-key"
    (perform joined .android bob readded).store :=
  ((changed_key_recorded_iff (c := verified) (bundle_presents .android) rfl (by decide)).mpr
    (.inr ⟨rfl, rfl, by decide⟩)).1

end Examples

end IdentityChanges
