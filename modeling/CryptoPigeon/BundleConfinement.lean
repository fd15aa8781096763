import CryptoPigeon.ConsumeIncoming
import CryptoPigeon.ContactStore

/-! # What a bundle response may write

The answer to `POST /api/prekeys/bundle` names the user, the device and the key itself.
The clients ask for the bundle of a device whose envelope they do not know, or of a
username, and neither compares the answer with the question: the address in the answer
chooses the rows that are written. An invite is compared with the pinned rows first. -/
namespace BundleConfinement

open StatementRun ContactStore
open VaultStore (Contact RemoteContact)
open ConsumeIncoming (ClientKind)

variable (fingerprint : String → String → String → String → String)

/-- The body of the request. -/
inductive Request
  | recipientDeviceId (deviceId : String)
  | recipientUsername (username : String)
  deriving DecidableEq, Repr

/-- What each client runs on the answer; Android runs the same for both questions. -/
def answered (kind : ClientKind) (request : Request) (newId : String) (b : Bundle) :
    List (Statement Store) :=
  match kind, request with
  | .desktop, .recipientDeviceId _ => Desktop.addUnknownSender fingerprint b
  | .desktop, .recipientUsername username =>
    Desktop.addContactAndSession fingerprint username newId b
  | .android, _ => Android.addContact fingerprint newId b

/-- The statements of `answered` that open the session. -/
def establish (kind : ClientKind) (b : Bundle) : List (Statement Store) :=
  match kind with
  | .desktop => Desktop.establishSession b
  | .android => Android.establish b

/-- A session is built from the bundle. -/
def accepted (b : Bundle) (s : Store) : Bool :=
  s.account.userId.isSome && b.readable && b.usable &&
    isTrustedIdentity s b.contact b.identityPublicKey

def routesOf (s : Store) (contactId : String) : List RemoteContact :=
  s.remoteContacts.filter (fun r => r.contactId == contactId)

/-- Whom a request may change: nobody there already for an unknown device, for a username
those it `names`. -/
def Request.asks (names : String → Contact → Bool) : Request → Contact → Bool
  | .recipientDeviceId _, _ => false
  | .recipientUsername username, c => names username c

/-- The contact keeps its routing, session, key, names and safety number. -/
structure Unmoved (contactId : String) (s t : Store) : Prop where
  routing : routesOf t contactId = routesOf s contactId
  session : sessionOf t contactId = sessionOf s contactId
  contact : ∀ c, contactOf s contactId = some c → ∃ x, contactOf t contactId = some x ∧
    x.identityKey = c.identityKey ∧ x.username = c.username ∧ x.publicUid = c.publicUid ∧
    x.safetyNumber = c.safetyNumber

/-- A bundle for a device binds that device only. -/
def Bound (request : Request) (s t : Store) : Prop :=
  ∀ deviceId, request = .recipientDeviceId deviceId →
    ∀ r ∈ t.remoteContacts, r ∈ s.remoteContacts ∨ r.deviceId = deviceId

/-- Wherever it stops, the answer changes no contact that was there and not asked for. -/
def Confined (names : String → Contact → Bool) (kind : ClientKind) (request : Request)
    (newId : String) (b : Bundle) (s : Store) : Prop :=
  ∀ n, Bound request s (autocommit n (answered fingerprint kind request newId b) s).state ∧
    ∀ contactId c, contactOf s contactId = some c → request.asks names c = false →
      Unmoved contactId s (autocommit n (answered fingerprint kind request newId b) s).state

/-- The address in the bundle is new or was asked for, and so is its device. -/
structure Answers (names : String → Contact → Bool) (request : Request) (b : Bundle)
    (s : Store) : Prop where
  contact : ∀ c, contactOf s b.contact = some c → request.asks names c = true
  device : ∀ deviceId, request = .recipientDeviceId deviceId →
    ∀ r, b.remote = some r → r ∈ s.remoteContacts ∨ r.deviceId = deviceId

/-- All rows of the contact are the same. -/
structure Same (contactId : String) (s t : Store) : Prop where
  contact : contactOf t contactId = contactOf s contactId
  session : sessionOf t contactId = sessionOf s contactId
  routing : routesOf t contactId = routesOf s contactId

section Statements

variable {fingerprint} {s t u : Store} {contactId other : String}

theorem Same.refl (s : Store) : Same contactId s s := ⟨rfl, rfl, rfl⟩

theorem Same.trans (h : Same contactId s t) (k : Same contactId t u) : Same contactId s u :=
  ⟨k.contact.trans h.contact, k.session.trans h.session, k.routing.trans h.routing⟩

theorem Same.unmoved (h : Same contactId s t) : Unmoved contactId s t :=
  ⟨h.routing, h.session, fun c hc => ⟨c, h.contact.trans hc, rfl, rfl, rfl, rfl⟩⟩

theorem same_update {f : Contact → Contact} (hf : ∀ c, (f c).contactId = c.contactId)
    (hne : other ≠ contactId) : Same other s (updateContact contactId f s) :=
  ⟨contactOf_update_other hf hne, rfl, rfl⟩

theorem same_saveIdentity {userId key : String} (hne : other ≠ contactId) :
    Same other s (saveIdentity contactId userId key s) := by
  obtain ⟨-, hremotes, hsessions, -, -⟩ := saveIdentity_tables s contactId userId key
  refine ⟨contactOf_saveIdentity_other hne, ?_, ?_⟩
  · unfold sessionOf
    rw [hsessions]
  · unfold routesOf
    rw [hremotes]

theorem same_saveSession {ratchet : String} (hne : other ≠ contactId) :
    Same other s (saveSession contactId ratchet s) :=
  ⟨rfl, sessionOf_saveSession_other hne, rfl⟩

theorem same_insert {userId key : String} (hne : other ≠ contactId)
    (hnone : contactOf s contactId = none) :
    Same other s (insertContact contactId userId key s) :=
  ⟨(contactOf_insert hnone).trans (if_neg hne), rfl, rfl⟩

theorem same_findOrCreate (c newId : String) :
    Same other s (findOrCreateConversation c newId s) := by
  unfold findOrCreateConversation
  split <;> exact ⟨rfl, rfl, rfl⟩

theorem filter_map_of_missed {α : Type*} {p : α → Bool} {f : α → α}
    (h : ∀ x, f x = x ∨ p x = false ∧ p (f x) = false) (l : List α) :
    (l.map f).filter p = l.filter p := by
  induction l with
  | nil => rfl
  | cons x l ih =>
    rw [List.map_cons, List.filter_cons, List.filter_cons, ih]
    rcases h x with hx | ⟨hx, hfx⟩
    · rw [hx]
    · simp [hx, hfx]

theorem same_upsertRemote {r : RemoteContact} (hne : other ≠ r.contactId) :
    Same other s (upsertRemote r s) := by
  have hrow : (r.contactId == other) = false := by simpa using hne.symm
  refine ⟨rfl, rfl, ?_⟩
  unfold routesOf upsertRemote
  dsimp only
  split
  · refine filter_map_of_missed (fun q => ?_) _
    by_cases hq : q.contactId = r.contactId
    · exact .inr ⟨by rw [hq]; exact hrow, by rw [if_pos hq]; exact hrow⟩
    · exact .inl (if_neg hq)
  · simp [hrow]

theorem same_replaceRemote {r : RemoteContact} (hne : other ≠ r.contactId) :
    Same other s (replaceRemote r s) := by
  have hrow : (r.contactId == other) = false := by simpa using hne.symm
  refine ⟨rfl, rfl, ?_⟩
  unfold routesOf replaceRemote
  have hkept : ∀ q : RemoteContact, (q.contactId == other && q.contactId != r.contactId) =
      (q.contactId == other) := by
    intro q
    by_cases hq : q.contactId = other
    · simp [hq, hne]
    · simp [hq]
  simp only [List.filter_append, List.filter_filter, List.filter_cons, hrow, List.filter_nil,
    Bool.false_eq_true, if_false, List.append_nil, hkept]

/-- Only the desktop clears `identity_changed`, when a user adds the contact. -/
def Clears (kind : ClientKind) (request : Request) : Prop :=
  kind = .desktop ∧ ∃ username, request = .recipientUsername username

/-- What one statement on a bundle may write. -/
inductive Wrote (kind : ClientKind) (request : Request) (b : Bundle) (s : Store) : Store → Prop
  | nothing : Wrote kind request b s s
  | marked : isTrustedIdentity s b.contact b.identityPublicKey = false →
      Wrote kind request b s (Android.markChanged b.contact s)
  | identity :
      Wrote kind request b s (saveIdentity b.contact b.recipientUserId b.identityPublicKey s)
  | inserted : contactOf s b.contact = none → Wrote kind request b s
      (insertContact b.contact b.recipientUserId b.identityPublicKey s)
  | named (f : Contact → Contact) : (∀ c, (f c).contactId = c.contactId) →
      (¬ Clears kind request → ∀ c, (f c).identityKey = c.identityKey ∧
        (f c).identityChanged = c.identityChanged ∧ (f c).verified = c.verified) →
      Wrote kind request b s (updateContact b.contact f s)
  | session : Wrote kind request b s (saveSession b.contact b.session s)
  | upserted {r : RemoteContact} : b.remote = some r →
      Wrote kind request b s (upsertRemote r s)
  | replaced {r : RemoteContact} : b.remote = some r →
      Wrote kind request b s (replaceRemote r s)
  | conversation (newId : String) :
      Wrote kind request b s (findOrCreateConversation b.contact newId s)

variable {kind : ClientKind} {request : Request} {newId : String} {b : Bundle}
  {x : Statement Store} {n : Nat}

theorem establish_wrote (hx : x ∈ establish kind b) (h : x s = some t) :
    Wrote kind request b s t := by
  cases kind with
  | desktop =>
    simp only [establish, Desktop.establishSession, List.mem_cons, List.not_mem_nil, or_false] at hx
    rcases hx with rfl | rfl | rfl
    · unfold Desktop.pinIdentity at h
      split at h
      · exact Option.some.inj h ▸ .identity
      · cases h
    · exact Option.some.inj h ▸ .session
    · exact Option.some.inj h ▸ .identity
  | android =>
    simp only [establish, Android.establish, List.mem_cons, List.not_mem_nil, or_false] at hx
    rcases hx with rfl | rfl | rfl
    · unfold Android.markUntrusted at h
      split at h
      · obtain rfl := Option.some.inj h
        split
        · exact .nothing
        · next huntrusted => exact .marked (by simpa using huntrusted)
      · cases h
    · unfold Android.pinIdentity at h
      split at h
      · obtain rfl := Option.some.inj h
        split
        · next hnone => exact .inserted (by simpa using hnone)
        · exact .nothing
      · cases h
    · unfold Android.buildSession at h
      split at h
      · exact Option.some.inj h ▸ .session
      · cases h

/-- The statements after the session. -/
def recorded (fingerprint : String → String → String → String → String) (kind : ClientKind)
    (request : Request) (newId : String) (b : Bundle) : List (Statement Store) :=
  (answered fingerprint kind request newId b).drop (establish kind b).length

theorem answered_eq : answered fingerprint kind request newId b =
    establish kind b ++ recorded fingerprint kind request newId b := by
  cases kind <;> cases request <;> rfl

theorem recorded_wrote (hx : x ∈ recorded fingerprint kind request newId b) (h : x s = some t) :
    Wrote kind request b s t := by
  have hupserted (h : Desktop.putRemote b s = some t) : Wrote kind request b s t := by
    obtain ⟨r, hr, rfl⟩ := Option.map_eq_some_iff.mp h
    exact .upserted hr
  cases kind with
  | desktop =>
    cases request with
    | recipientDeviceId deviceId =>
      change x ∈ [Desktop.putRemote b, Desktop.nameSender fingerprint b] at hx
      simp only [List.mem_cons, List.not_mem_nil, or_false] at hx
      rcases hx with rfl | rfl
      · exact hupserted h
      · unfold Desktop.nameSender at h
        split at h
        · exact Option.some.inj h ▸ .named _ (fun _ => rfl) fun _ _ => ⟨rfl, rfl, rfl⟩
        · cases h
    | recipientUsername username =>
      change x ∈ [Desktop.putRemote b, Desktop.nameAdded fingerprint username b,
        fun s => some (findOrCreateConversation b.contact newId s)] at hx
      simp only [List.mem_cons, List.not_mem_nil, or_false] at hx
      rcases hx with rfl | rfl | rfl
      · exact hupserted h
      · obtain ⟨number, -, rfl⟩ := Option.map_eq_some_iff.mp h
        exact .named _ (fun _ => rfl) fun hnot => absurd ⟨rfl, username, rfl⟩ hnot
      · exact Option.some.inj h ▸ .conversation newId
  | android =>
    have hx : x ∈ [Android.putRemote fingerprint b, Android.nameContact fingerprint b,
        fun s => some (findOrCreateConversation b.contact newId s)] := by
      cases request <;> exact hx
    simp only [List.mem_cons, List.not_mem_nil, or_false] at hx
    rcases hx with rfl | rfl | rfl
    · unfold Android.putRemote at h
      split at h
      · obtain ⟨r, hr, rfl⟩ := Option.map_eq_some_iff.mp h
        exact .replaced hr
      · cases h
    · obtain ⟨number, -, rfl⟩ := Option.map_eq_some_iff.mp h
      exact .named _ (fun _ => rfl) fun _ _ => ⟨rfl, rfl, rfl⟩
    · exact Option.some.inj h ▸ .conversation newId

theorem answered_wrote (hx : x ∈ answered fingerprint kind request newId b) (h : x s = some t) :
    Wrote kind request b s t := by
  rw [answered_eq] at hx
  rcases List.mem_append.mp hx with hx | hx
  · exact establish_wrote hx h
  · exact recorded_wrote hx h

theorem remote_contact {r : RemoteContact} (h : b.remote = some r) : r.contactId = b.contact := by
  obtain ⟨d, -, rfl⟩ := Option.map_eq_some_iff.mp h
  rfl

/-- Whatever is written, the rows of other contacts stay. -/
theorem Wrote.same (h : Wrote kind request b s t) (hne : other ≠ b.contact) : Same other s t := by
  cases h with
  | nothing => exact .refl s
  | identity => exact same_saveIdentity hne
  | inserted hnone => exact same_insert hne hnone
  | named f hf => exact same_update hf hne
  | marked _ => exact same_update (fun _ => rfl) hne
  | session => exact same_saveSession hne
  | upserted hr => exact same_upsertRemote (by rw [remote_contact hr]; exact hne)
  | replaced hr => exact same_replaceRemote (by rw [remote_contact hr]; exact hne)
  | conversation newId => exact same_findOrCreate _ _

/-- A route is the bundle's or was there. -/
theorem Wrote.remotes (h : Wrote kind request b s t) {r : RemoteContact} (hr : r ∈ t.remoteContacts) :
    r ∈ s.remoteContacts ∨ b.remote = some r := by
  cases h with
  | nothing => exact .inl hr
  | identity => exact .inl ((saveIdentity_tables s _ _ _).2.1 ▸ hr)
  | inserted | marked | named | session => exact .inl hr
  | @upserted q hq =>
    unfold upsertRemote at hr
    dsimp only at hr
    split at hr
    · obtain ⟨p, hp, hpr⟩ := List.mem_map.mp hr
      split at hpr
      · exact .inr (hpr ▸ hq)
      · exact .inl (hpr ▸ hp)
    · rcases List.mem_append.mp hr with hr | hr
      · exact .inl hr
      · exact .inr (List.mem_singleton.mp hr ▸ hq)
  | @replaced q hq =>
    rcases List.mem_append.mp hr with hr | hr
    · exact .inl (List.mem_of_mem_filter hr)
    · exact .inr (List.mem_singleton.mp hr ▸ hq)
  | conversation newId =>
    unfold findOrCreateConversation at hr
    split at hr <;> exact .inl hr

end Statements

section Runs

variable {fingerprint} {kind : ClientKind} {request : Request} {newId other : String} {b : Bundle}
  {s t : Store} {n : Nat} {names : String → Contact → Bool}

theorem run_same (hne : other ≠ b.contact) :
    Same other s (autocommit n (answered fingerprint kind request newId b) s).state :=
  autocommit_invariant (I := Same other s)
    (fun _ hx _ _ hu hv => hu.trans ((answered_wrote hx hv).same hne)) (.refl s)

theorem run_remotes {r : RemoteContact}
    (hr : r ∈ (autocommit n (answered fingerprint kind request newId b) s).state.remoteContacts) :
    r ∈ s.remoteContacts ∨ b.remote = some r := by
  have hrun := autocommit_invariant (n := n)
    (l := answered fingerprint kind request newId b) (s := s)
    (I := fun t : Store => ∀ r ∈ t.remoteContacts, r ∈ s.remoteContacts ∨ b.remote = some r)
    (fun x hx u v hu hv q hq => ((answered_wrote hx hv).remotes hq).elim (hu q) .inr)
    (fun _ hq => .inl hq)
  exact hrun r hr

/-- The same store, or one whose contact was marked or added before the refusal. -/
inductive Refused (b : Bundle) (s : Store) : Store → Prop
  | nothing : Refused b s s
  | marked : Refused b s (Android.markChanged b.contact s)
  | inserted : contactOf s b.contact = none →
      Refused b s (insertContact b.contact b.recipientUserId b.identityPublicKey s)

/-- Without a session nothing else is written. -/
theorem run_refused (h : accepted b s = false) :
    Refused b s (autocommit n (answered fingerprint kind request newId b) s).state := by
  rw [answered_eq]
  cases kind with
  | desktop =>
    have hthrows : Desktop.pinIdentity b s = none := by
      unfold Desktop.pinIdentity
      unfold accepted at h
      rw [h]
      rfl
    simp only [establish, Desktop.establishSession, List.cons_append]
    rw [autocommit_throws hthrows]
    exact .nothing
  | android =>
    simp only [establish, Android.establish, List.cons_append, List.nil_append]
    rcases autocommit_cases with heq | ⟨u, m, hu, heq⟩ <;> rw [heq]
    · exact .nothing
    obtain ⟨hreadable, rfl⟩ : b.readable = true ∧ u = (if isTrustedIdentity s b.contact
        b.identityPublicKey then s else Android.markChanged b.contact s) := by
      unfold Android.markUntrusted at hu
      split at hu
      · next hreadable => exact ⟨hreadable, (Option.some.inj hu).symm⟩
      · cases hu
    by_cases htrusted : isTrustedIdentity s b.contact b.identityPublicKey = true
    · rw [if_pos htrusted]
      rcases autocommit_cases with heq | ⟨v, k, hv, heq⟩ <;> rw [heq]
      · exact .nothing
      unfold Android.pinIdentity at hv
      rw [if_pos htrusted] at hv
      obtain rfl := Option.some.inj hv
      -- whether or not the key was new, the session is not built
      have hstops (u : Store) (hu : u.account = s.account) : Android.buildSession b u = none := by
        unfold Android.buildSession
        unfold accepted at h
        rw [hreadable, htrusted] at h
        rw [hu]
        simpa using h
      by_cases hnone : (contactOf s b.contact).isNone
      · rw [if_pos hnone, autocommit_throws (hstops (insertContact _ _ _ s) rfl)]
        exact .inserted (by simpa using hnone)
      · rw [if_neg hnone, autocommit_throws (hstops s rfl)]
        exact .nothing
    · rw [if_neg htrusted]
      have hthrows : Android.pinIdentity b (Android.markChanged b.contact s) = none := by
        unfold Android.pinIdentity
        rw [isTrustedIdentity_marked, if_neg htrusted]
      rw [autocommit_throws hthrows]
      exact .marked

theorem Refused.unmoved (h : Refused b s t) : Unmoved b.contact s t := by
  cases h with
  | nothing => exact (Same.refl s).unmoved
  | marked =>
    refine ⟨rfl, rfl, fun c hc => ⟨{ c with identityChanged := true, verified := false }, ?_,
      rfl, rfl, rfl, rfl⟩⟩
    exact contactOf_update_self (fun _ => rfl) hc
  | inserted hnone =>
    refine ⟨rfl, rfl, fun c hc => ?_⟩
    rw [hnone] at hc
    cases hc

theorem Refused.remotes (h : Refused b s t) : t.remoteContacts = s.remoteContacts := by
  cases h <;> rfl

/-- An accepted bundle has its session built. -/
theorem accepted_established (h : accepted b s = true) :
    ∃ t, Executed (establish kind b) s t ∧ Established b s t := by
  cases kind with
  | desktop =>
    obtain ⟨t, ht⟩ : ∃ t, Executed (Desktop.establishSession b) s t := by
      refine ⟨_, .cons (by unfold Desktop.pinIdentity; unfold accepted at h; rw [if_pos h])
        (.cons rfl (.cons rfl (.nil _)))⟩
    exact ⟨t, ht, desktop_established ht⟩
  | android =>
    simp only [accepted, Bool.and_eq_true] at h
    obtain ⟨⟨⟨hregistered, hreadable⟩, husable⟩, htrusted⟩ := h
    have hmark : Android.markUntrusted b s = some s := by
      unfold Android.markUntrusted
      rw [if_pos hreadable, if_pos htrusted]
    obtain ⟨u, hpin, haccount⟩ : ∃ u, Android.pinIdentity b s = some u ∧
        u.account = s.account := by
      unfold Android.pinIdentity
      rw [if_pos htrusted]
      refine ⟨_, rfl, ?_⟩
      split <;> rfl
    have hbuild : Android.buildSession b u = some (saveSession b.contact b.session u) := by
      unfold Android.buildSession
      rw [haccount, hregistered, husable]
      rfl
    have ht : Executed (Android.establish b) s (saveSession b.contact b.session u) :=
      .cons hmark (.cons hpin (.cons hbuild (.nil _)))
    exact ⟨_, ht, android_established ht⟩

/-- The next statement stores the route of a bundle that names a device. -/
theorem recorded_remote {r : RemoteContact} (h : accepted b s = true) (ht : Established b s t)
    (hr : b.remote = some r) : r ∈
      (autocommit 1 (recorded fingerprint kind request newId b) t).state.remoteContacts := by
  cases kind with
  | desktop =>
    have hput : Desktop.putRemote b t = some (upsertRemote r t) := by
      unfold Desktop.putRemote
      rw [hr]
      rfl
    have hmem : r ∈ (upsertRemote r t).remoteContacts := by
      unfold upsertRemote
      dsimp only
      split
      · next hany =>
        obtain ⟨q, hq, hcontact⟩ := List.any_eq_true.mp hany
        exact List.mem_map.mpr ⟨q, hq, if_pos (by simpa using hcontact)⟩
      · simp
    cases request with
    | recipientDeviceId deviceId =>
      change r ∈ (autocommit 1 [_, _] t).state.remoteContacts
      rw [autocommit_cons hput, autocommit_zero]
      exact hmem
    | recipientUsername username =>
      change r ∈ (autocommit 1 [_, _, _] t).state.remoteContacts
      rw [autocommit_cons hput, autocommit_zero]
      exact hmem
  | android =>
    have hput : Android.putRemote fingerprint b t = some (replaceRemote r t) := by
      obtain ⟨localId, hlocal⟩ : ∃ localId, t.account.userId = some localId := by
        rw [ht.account, ← Option.isSome_iff_exists]
        simp only [accepted, Bool.and_eq_true] at h
        exact h.1.1.1
      unfold Android.putRemote computeSafetyNumber
      rw [hlocal, ht.pinned, hr]
      rfl
    have hrun : recorded fingerprint .android request newId b =
        [Android.putRemote fingerprint b, Android.nameContact fingerprint b,
          fun s => some (findOrCreateConversation b.contact newId s)] := by
      cases request <;> rfl
    rw [hrun, autocommit_cons hput, autocommit_zero]
    simp [replaceRemote]

/-- An answer to a question is confined; so is one that is refused. -/
theorem confined_of (h : accepted b s = false ∨ Answers names request b s) :
    Confined fingerprint names kind request newId b s := by
  intro n
  refine ⟨fun deviceId hdevice r hr => ?_, fun contactId c hc hasked => ?_⟩
  · rcases h with hrefused | hanswers
    · rw [(run_refused hrefused).remotes] at hr
      exact .inl hr
    · exact (run_remotes hr).elim .inl (hanswers.device deviceId hdevice r)
  · by_cases hne : contactId = b.contact
    · subst hne
      rcases h with hrefused | hanswers
      · exact (run_refused hrefused).unmoved
      · rw [hanswers.contact c hc] at hasked
        cases hasked
    · exact (run_same hne).unmoved

/-- The session libsignal builds is none of those stored. -/
theorem answers_of_confined (hfresh : ∀ x ∈ s.sessions, x.ratchet ≠ b.session)
    (h : accepted b s = true) (hconfined : Confined fingerprint names kind request newId b s) :
    Answers names request b s := by
  obtain ⟨t, hexecuted, ht⟩ : ∃ t, Executed (establish kind b) s t ∧ Established b s t :=
    accepted_established h
  constructor
  · intro c hc
    by_contra hasked
    have hunmoved := (hconfined ((establish kind b).length + 0)).2 b.contact c hc
      (by simpa using hasked)
    rw [answered_eq, autocommit_append hexecuted, autocommit_zero] at hunmoved
    have hsession : sessionOf s b.contact = some ⟨b.contact, b.session⟩ := by
      rw [← hunmoved.session]
      unfold sessionOf
      rw [ht.sessions]
      exact sessionOf_saveSession_self
    exact hfresh _ (List.mem_of_find?_eq_some hsession) rfl
  · intro deviceId hdevice r hr
    have hbound := (hconfined ((establish kind b).length + 1)).1 deviceId hdevice r
    rw [answered_eq, autocommit_append hexecuted] at hbound
    exact hbound (recorded_remote h ht hr)

/-- A bundle response is confined to what was asked exactly if it is refused or answers
the question that was asked. -/
theorem bundle_confined_iff_answers (hfresh : ∀ x ∈ s.sessions, x.ratchet ≠ b.session) :
    Confined fingerprint names kind request newId b s ↔
      accepted b s = false ∨ Answers names request b s := by
  refine ⟨fun hconfined => ?_, confined_of⟩
  cases h : accepted b s with
  | false => exact .inl rfl
  | true => exact .inr (answers_of_confined hfresh h hconfined)

section Examples

/-- The relay finds a user by username or public UID. -/
def named (username : String) (c : Contact) : Bool :=
  c.username == username || c.publicUid == some username

/-- A verified contact with its route and session. -/
def bob : Store where
  account := ⟨some "user", "device", "key"⟩
  contacts := [⟨addressOf "bob" 1, "bob", some "CP-B", "bob-key", some "number", true, false⟩]
  remoteContacts := [⟨addressOf "bob" 1, "bob", "bob-device", 1⟩]
  sessions := [⟨addressOf "bob" 1, "ratchet"⟩]
  peerOnions := []
  conversations := [⟨"conversation", addressOf "bob" 1⟩]

/-- The public key of the verified contact, with a device and prekeys of another's choice. -/
def redirected : Bundle :=
  ⟨"bob", some "eve-device", 1, "bob-key", some "eve", some "CP-E", true, true, "session"⟩

def joined (localId localKey userId key : String) : String := localId ++ localKey ++ userId ++ key

/-- The verified contact's mailbox is redirected by the answer to a question about another. -/
theorem redirected_not_confined :
    ¬ Confined joined named .desktop (.recipientDeviceId "eve-device") "new" redirected bob ∧
    ¬ Confined joined named .desktop (.recipientUsername "eve") "new" redirected bob ∧
    ¬ Confined joined named .android (.recipientDeviceId "eve-device") "new" redirected bob ∧
    ¬ Confined joined named .android (.recipientUsername "eve") "new" redirected bob := by
  have hmoved {kind : ClientKind} {request : Request}
      (hasked : request.asks named ⟨addressOf "bob" 1, "bob", some "CP-B", "bob-key",
        some "number", true, false⟩ = false)
      (hroutes : routesOf (autocommit 9 (answered joined kind request "new" redirected) bob).state
        (addressOf "bob" 1) = [⟨addressOf "bob" 1, "bob", "eve-device", 1⟩]) :
      ¬ Confined joined named kind request "new" redirected bob := by
    intro hconfined
    have hunmoved := (hconfined 9).2 (addressOf "bob" 1) _ rfl hasked
    rw [hunmoved.routing] at hroutes
    exact absurd hroutes (by decide)
  exact ⟨hmoved rfl (by decide), hmoved rfl (by decide), hmoved rfl (by decide),
    hmoved rfl (by decide)⟩

/-- A sender's own bundle is confined. -/
theorem sender_confined : Confined joined named .desktop (.recipientDeviceId "eve-device") "new"
    { redirected with recipientUserId := "eve" } bob :=
  (bundle_confined_iff_answers (by decide)).mpr
    (.inr ⟨by decide, fun d hd r hr => by
      cases hd; cases hr; exact .inr rfl⟩)

end Examples

end Runs

end BundleConfinement
