import CryptoPigeon.ConsumeIncoming
import CryptoPigeon.ContactStore
import CryptoPigeon.TransitionSystem

/-! # Importing signed invites

`importServerlessContact` on either client: any invites, in any order, from any number of
key holders. The schema only makes the device of `peer_onions` and the contact of
`remote_contacts` unique; that the two relate devices and contacts one-to-one comes from
the queries before the transaction. -/
namespace InvitePinning

open TransitionSystem StatementRun ContactStore
open VaultStore (Contact RemoteContact Conversation)
open ConsumeIncoming (ClientKind)

variable (fingerprint : String → String → String → String → String)

def importStatements (kind : ClientKind) (newId : String) (i : Invite) (s : Store) :
    List (Statement Store) :=
  match kind with
  | .desktop => Desktop.importStatements fingerprint newId i s
  | .android => Android.importStatements fingerprint newId i s

/-- At most `n` statements of the transaction are executed. -/
def importServerlessContact (kind : ClientKind) (newId : String) (i : Invite) (n : Nat)
    (s : Store) : Ran Store :=
  if importable i s then transaction n (importStatements fingerprint kind newId i s) s
  else ⟨s, true⟩

structure Event where
  invite : Invite
  newId : String
  executed : Nat

def next (kind : ClientKind) (s : Store) (e : Event) : Store :=
  (importServerlessContact fingerprint kind e.newId e.invite e.executed s).state

def conversationsOf (s : Store) (contactId : String) : List Conversation :=
  s.conversations.filter (fun c => c.contactId == contactId)

/-- Nothing is routed yet; contacts there may be, each with its conversation. -/
structure Initial (s : Store) : Prop where
  peers : s.peerOnions = []
  remotes : s.remoteContacts = []
  sessions : s.sessions = []
  some_conversation : ∀ c x, contactOf s c = some x → conversationsOf s c ≠ []
  one_conversation : ∀ c, (conversationsOf s c).length ≤ 1

def system (kind : ClientKind) : System Store Event where
  Initial := Initial
  Enabled := fun _ _ => True
  next := next fingerprint kind

/-- Device and contact of every row of `peer_onions` and `remote_contacts`. -/
def routes (s : Store) : List (String × String) :=
  s.peerOnions.map (fun p => (p.deviceId, p.contactId)) ++
    s.remoteContacts.map (fun r => (r.deviceId, r.contactId))

def OneToOne (s : Store) : Prop :=
  ∀ a ∈ routes s, ∀ b ∈ routes s, a.1 = b.1 ↔ a.2 = b.2

structure Invariant (s : Store) : Prop where
  unique : ∀ p ∈ s.peerOnions, ∀ q ∈ s.peerOnions, q.deviceId = p.deviceId → q = p
  oneToOne : OneToOne s
  pinned : ∀ p ∈ s.peerOnions, ∃ r ∈ s.remoteContacts,
    r.deviceId = p.deviceId ∧ r.contactId = p.contactId
  sessions : ∀ x ∈ s.sessions, ∃ r ∈ s.remoteContacts, r.contactId = x.contactId
  some_conversation : ∀ c x, contactOf s c = some x → conversationsOf s c ≠ []
  one_conversation : ∀ c, (conversationsOf s c).length ≤ 1

/-- The two rows pin the same device of the same contact, its onion and its key. -/
structure SamePin (p q : PeerOnion) : Prop where
  deviceId : q.deviceId = p.deviceId
  contactId : q.contactId = p.contactId
  onion : q.onion = p.onion
  authKey : q.authKey = p.authKey

/-- What was pinned, built or opened in `s` is in `t` as it was. -/
structure Kept (s t : Store) : Prop where
  peers : ∀ p ∈ s.peerOnions, ∃ q ∈ t.peerOnions, SamePin p q
  pins : ∀ p ∈ s.peerOnions, ∀ q ∈ t.peerOnions,
    q.deviceId = p.deviceId ∨ q.contactId = p.contactId → SamePin p q
  remotes : ∀ r ∈ s.remoteContacts, r ∈ t.remoteContacts
  identities : ∀ c x, contactOf s c = some x →
    ∃ y, contactOf t c = some y ∧ y.identityKey = x.identityKey
  sessions : ∀ c x, sessionOf s c = some x → sessionOf t c = some x
  conversations : ∀ x ∈ s.conversations, x ∈ t.conversations

/-- What an import that returns did. -/
structure Imported (i : Invite) (s t : Store) : Prop where
  pins : pinsAgree i s = true
  routes : routesAgree i s = true
  peers : t.peerOnions = s.peerOnions.filter (fun q => q.deviceId != i.deviceId) ++ [i.peer]
  remotes_kept : ∀ r ∈ s.remoteContacts, r ∈ t.remoteContacts
  remotes_new : ∀ r ∈ t.remoteContacts, r ∈ s.remoteContacts ∨ r = i.remote
  routed : i.remote ∈ t.remoteContacts
  identities : ∀ c x, contactOf s c = some x →
    ∃ y, contactOf t c = some y ∧ y.identityKey = x.identityKey
  contacts_new : ∀ c y, contactOf t c = some y → c = i.contact ∨ ∃ x, contactOf s c = some x
  sessions_kept : ∀ c x, sessionOf s c = some x → sessionOf t c = some x
  sessions_new : ∀ x ∈ t.sessions, x ∈ s.sessions ∨ x.contactId = i.contact
  conversations : ∃ newId,
    t.conversations = (findOrCreateConversation i.contact newId s).conversations

section Agreement

variable {i : Invite} {s t : Store}

@[simp] theorem remote_contactId : i.remote.contactId = i.contact := rfl

theorem pins_agree (h : pinsAgree i s = true) {p : PeerOnion} (hp : p ∈ s.peerOnions)
    (hmatch : p.deviceId = i.deviceId ∨ p.contactId = i.contact) :
    p.contactId = i.contact ∧ p.authKey = i.deviceAuthPublicKey ∧ p.onion = i.onion := by
  have hall := List.all_eq_true.mp h p hp
  rcases hmatch with hm | hm <;> simp [hm] at hall
  · exact ⟨hall.1.1, hall.1.2, hall.2⟩
  · exact ⟨hm, hall.1, hall.2⟩

theorem routes_agree (h : routesAgree i s = true) {r : RemoteContact}
    (hr : r ∈ s.remoteContacts)
    (hmatch : r.deviceId = i.deviceId ∨ r.contactId = i.contact) : r = i.remote := by
  have hall := List.all_eq_true.mp h r hr
  obtain ⟨contactId, userId, deviceId, signalDeviceId⟩ := r
  rcases hmatch with hm | hm <;> simp only at hm <;> simp [hm, Invite.remote] at hall ⊢
  · exact ⟨hall.1.1, hall.1.2, hall.2⟩
  · exact ⟨hall.1.2, hall.1.1, hall.2⟩

theorem mem_routes {a : String × String} : a ∈ InvitePinning.routes s ↔
    (∃ p ∈ s.peerOnions, (p.deviceId, p.contactId) = a) ∨
      ∃ r ∈ s.remoteContacts, (r.deviceId, r.contactId) = a := by
  simp [InvitePinning.routes]

/-- Every route of the device or the contact of an importable invite is the invite's. -/
theorem routes_of_invite (h : Invariant s) (hpins : pinsAgree i s = true)
    (hroutes : routesAgree i s = true) {a : String × String} (ha : a ∈ InvitePinning.routes s) :
    a.1 = i.deviceId ↔ a.2 = i.contact := by
  rcases mem_routes.mp ha with ⟨p, hp, rfl⟩ | ⟨r, hr, rfl⟩
  · refine ⟨fun hd => (pins_agree hpins hp (.inl hd)).1, fun hc => ?_⟩
    obtain ⟨r, hr, hdevice, hcontact⟩ := h.pinned p hp
    have hri := routes_agree hroutes hr (.inr (hcontact.trans hc))
    exact hdevice.symm.trans (congrArg RemoteContact.deviceId hri)
  · constructor
    · exact fun hd => congrArg RemoteContact.contactId (routes_agree hroutes hr (.inl hd))
    · exact fun hc => congrArg RemoteContact.deviceId (routes_agree hroutes hr (.inr hc))

theorem Imported.mem_peers (h : Imported i s t) {q : PeerOnion} :
    q ∈ t.peerOnions ↔ q ∈ s.peerOnions ∧ q.deviceId ≠ i.deviceId ∨ q = i.peer := by
  rw [h.peers]
  simp

theorem Imported.routes_new (h : Imported i s t) {a : String × String}
    (ha : a ∈ InvitePinning.routes t) :
    a ∈ InvitePinning.routes s ∨ a = (i.deviceId, i.contact) := by
  rcases mem_routes.mp ha with ⟨p, hp, rfl⟩ | ⟨r, hr, rfl⟩
  · rcases h.mem_peers.mp hp with ⟨hp, -⟩ | rfl
    · exact .inl (mem_routes.mpr (.inl ⟨p, hp, rfl⟩))
    · exact .inr rfl
  · rcases h.remotes_new r hr with hr | rfl
    · exact .inl (mem_routes.mpr (.inr ⟨r, hr, rfl⟩))
    · exact .inr rfl

theorem Imported.oneToOne (h : Imported i s t) (hs : Invariant s) : OneToOne t := by
  intro a ha b hb
  rcases h.routes_new ha with ha | rfl <;> rcases h.routes_new hb with hb | rfl
  · exact hs.oneToOne a ha b hb
  · exact routes_of_invite hs h.pins h.routes ha
  · exact (eq_comm.trans (routes_of_invite hs h.pins h.routes hb)).trans eq_comm
  · exact Iff.rfl.trans ⟨fun _ => rfl, fun _ => rfl⟩

theorem conversationsOf_found {newId c : String} (hc : c ≠ i.contact)
    (ht : t.conversations = (findOrCreateConversation i.contact newId s).conversations) :
    conversationsOf t c = conversationsOf s c := by
  unfold conversationsOf
  rw [ht]
  unfold findOrCreateConversation
  split
  · rfl
  · have hne : i.contact ≠ c := fun he => hc he.symm
    simp [hne]

theorem conversationsOf_invite {newId : String}
    (ht : t.conversations = (findOrCreateConversation i.contact newId s).conversations) :
    conversationsOf t i.contact = conversationsOf s i.contact ∧
        conversationsOf s i.contact ≠ [] ∨
      (conversationsOf t i.contact).length = 1 := by
  unfold conversationsOf
  rw [ht]
  unfold findOrCreateConversation
  split
  · next hany =>
    refine .inl ⟨rfl, fun hnil => ?_⟩
    obtain ⟨x, hx, hxc⟩ := List.any_eq_true.mp hany
    exact absurd (List.filter_eq_nil_iff.mp hnil x hx) (by simpa using hxc)
  · next hany =>
    have hnil : s.conversations.filter (fun c => c.contactId == i.contact) = [] := by
      refine List.filter_eq_nil_iff.mpr fun x hx hxc => ?_
      exact hany (List.any_eq_true.mpr ⟨x, hx, hxc⟩)
    right
    simp [hnil]

theorem Imported.invariant (h : Imported i s t) (hs : Invariant s) : Invariant t := by
  obtain ⟨newId, hconversations⟩ := h.conversations
  refine ⟨fun p hp q hq hpq => ?_, h.oneToOne hs, fun p hp => ?_, fun x hx => ?_, fun c y hy => ?_,
    fun c => ?_⟩
  · rcases h.mem_peers.mp hp with ⟨hp, hpd⟩ | rfl <;> rcases h.mem_peers.mp hq with ⟨hq, hqd⟩ | rfl
    · exact hs.unique p hp q hq hpq
    · exact absurd hpq.symm hpd
    · exact absurd hpq hqd
    · rfl
  · rcases h.mem_peers.mp hp with ⟨hp, -⟩ | rfl
    · obtain ⟨r, hr, hrp⟩ := hs.pinned p hp
      exact ⟨r, h.remotes_kept r hr, hrp⟩
    · exact ⟨i.remote, h.routed, rfl, rfl⟩
  · rcases h.sessions_new x hx with hx | hx
    · obtain ⟨r, hr, hrx⟩ := hs.sessions x hx
      exact ⟨r, h.remotes_kept r hr, hrx⟩
    · exact ⟨i.remote, h.routed, hx.symm⟩
  · by_cases hc : c = i.contact
    · subst hc
      rcases conversationsOf_invite hconversations with ⟨heq, hne⟩ | hone
      · rw [heq]; exact hne
      · exact fun hnil => by rw [hnil] at hone; cases hone
    · rw [conversationsOf_found hc hconversations]
      rcases h.contacts_new c y hy with rfl | ⟨x, hx⟩
      · exact absurd rfl hc
      · exact hs.some_conversation c x hx
  · by_cases hc : c = i.contact
    · subst hc
      rcases conversationsOf_invite hconversations with ⟨heq, -⟩ | hone
      · rw [heq]; exact hs.one_conversation _
      · exact Nat.le_of_eq hone
    · rw [conversationsOf_found hc hconversations]
      exact hs.one_conversation c

theorem samePin_refl (p : PeerOnion) : SamePin p p := ⟨rfl, rfl, rfl, rfl⟩

theorem SamePin.trans {p q r : PeerOnion} (h : SamePin p q) (k : SamePin q r) : SamePin p r :=
  ⟨k.deviceId.trans h.deviceId, k.contactId.trans h.contactId, k.onion.trans h.onion,
    k.authKey.trans h.authKey⟩

/-- The invite's row pins what any row it could replace or stand beside does. -/
theorem Imported.samePin (h : Imported i s t) (hs : Invariant s) {p : PeerOnion}
    (hp : p ∈ s.peerOnions) (hmatch : i.deviceId = p.deviceId ∨ i.contact = p.contactId) :
    SamePin p i.peer := by
  have hroute := routes_of_invite hs h.pins h.routes (mem_routes.mpr (.inl ⟨p, hp, rfl⟩))
  have hdevice : p.deviceId = i.deviceId := hmatch.elim Eq.symm fun hc => hroute.mpr hc.symm
  obtain ⟨hcontact, hauth, honion⟩ := pins_agree h.pins hp (.inl hdevice)
  exact ⟨hdevice.symm, hcontact.symm, honion.symm, hauth.symm⟩

theorem Invariant.samePin (hs : Invariant s) {p q : PeerOnion} (hp : p ∈ s.peerOnions)
    (hq : q ∈ s.peerOnions) (hmatch : q.deviceId = p.deviceId ∨ q.contactId = p.contactId) :
    SamePin p q := by
  have hroute := hs.oneToOne _ (mem_routes.mpr (.inl ⟨q, hq, rfl⟩)) _
    (mem_routes.mpr (.inl ⟨p, hp, rfl⟩))
  rw [hs.unique p hp q hq (hmatch.elim id hroute.mpr)]
  exact samePin_refl p

theorem Imported.kept (h : Imported i s t) (hs : Invariant s) : Kept s t := by
  refine ⟨fun p hp => ?_, fun p hp q hq hmatch => ?_, h.remotes_kept, h.identities,
    h.sessions_kept, fun x hx => ?_⟩
  · by_cases hd : p.deviceId = i.deviceId
    · exact ⟨i.peer, h.mem_peers.mpr (.inr rfl), h.samePin hs hp (.inl hd.symm)⟩
    · exact ⟨p, h.mem_peers.mpr (.inl ⟨hp, hd⟩), samePin_refl p⟩
  · rcases h.mem_peers.mp hq with ⟨hq, -⟩ | rfl
    · exact hs.samePin hp hq hmatch
    · exact h.samePin hs hp hmatch
  · obtain ⟨newId, hconversations⟩ := h.conversations
    rw [hconversations]
    unfold findOrCreateConversation
    split
    · exact hx
    · exact List.mem_append_left _ hx

theorem Invariant.kept (hs : Invariant s) : Kept s s :=
  ⟨fun p hp => ⟨p, hp, samePin_refl p⟩, fun _ hp _ hq hmatch => hs.samePin hp hq hmatch,
    fun _ hr => hr, fun _ x hx => ⟨x, hx, rfl⟩, fun _ _ hx => hx, fun _ hx => hx⟩

theorem Kept.trans {u : Store} (h : Kept s t) (k : Kept t u) : Kept s u := by
  refine ⟨fun p hp => ?_, fun p hp q hq hmatch => ?_, fun r hr => k.remotes r (h.remotes r hr),
    fun c x hx => ?_, fun c x hx => k.sessions c x (h.sessions c x hx),
    fun x hx => k.conversations x (h.conversations x hx)⟩
  · obtain ⟨q, hq, hpq⟩ := h.peers p hp
    obtain ⟨r, hr, hqr⟩ := k.peers q hq
    exact ⟨r, hr, hpq.trans hqr⟩
  · obtain ⟨m, hm, hpm⟩ := h.peers p hp
    have hmatch' : q.deviceId = m.deviceId ∨ q.contactId = m.contactId := by
      rw [hpm.deviceId, hpm.contactId]
      exact hmatch
    exact hpm.trans (k.pins m hm q hq hmatch')
  · obtain ⟨y, hy, hxy⟩ := h.identities c x hx
    obtain ⟨z, hz, hyz⟩ := k.identities c y hy
    exact ⟨z, hz, hyz.trans hxy⟩

end Agreement

section Import

variable {fingerprint} {i : Invite} {s t u : Store} {newId : String}

/-- The contact's session: built from the invite, or there already under the pinned key. -/
inductive Opened (i : Invite) (s t : Store) : Prop
  | built : sessionOf s i.contact = none → Established i.bundle s t → Opened i s t
  | pinned {c : Contact} : contactOf s i.contact = some c →
      c.identityKey = i.identityPublicKey → t = s → Opened i s t

theorem requirePinned_opened (h : requirePinned i s = some t) : Opened i s t := by
  unfold requirePinned at h
  split at h
  · cases h
  · next c hc =>
    split at h
    · next hkey => exact .pinned hc hkey (Option.some.inj h).symm
    · cases h

theorem Opened.identities (h : Opened i s t) (c : String) (x : Contact)
    (hx : contactOf s c = some x) : contactOf t c = some x := by
  cases h with
  | built hs h =>
    by_cases hc : c = i.contact
    · subst hc
      refine h.pinned.trans ?_
      rw [show i.bundle.contact = i.contact from rfl, hx]
      rfl
    · exact (h.others c hc).trans hx
  | pinned _ _ ht => rw [ht]; exact hx

theorem Opened.contacts_new (h : Opened i s t) (c : String) (y : Contact)
    (hy : contactOf t c = some y) : c = i.contact ∨ ∃ x, contactOf s c = some x := by
  cases h with
  | built hs h =>
    by_cases hc : c = i.contact
    · exact .inl hc
    · exact .inr ⟨y, (h.others c hc).symm.trans hy⟩
  | pinned _ _ ht => exact .inr ⟨y, ht ▸ hy⟩

theorem Opened.sessions (h : Opened i s t) : t.sessions = s.sessions ∨
    sessionOf s i.contact = none ∧ t.sessions = s.sessions ++ [⟨i.contact, i.session⟩] := by
  cases h with
  | built hs h => exact .inr ⟨hs, h.sessions.trans (saveSession_unused hs)⟩
  | pinned _ _ ht => exact .inl (by rw [ht])

theorem Opened.sessions_kept (h : Opened i s t) (ht : u.sessions = t.sessions) (c : String)
    (x : Session) (hx : sessionOf s c = some x) : sessionOf u c = some x := by
  unfold sessionOf at hx ⊢
  rw [ht]
  rcases h.sessions with hs | ⟨-, hs⟩
  · rw [hs]; exact hx
  · rw [hs, List.find?_append, hx]
    rfl

theorem Opened.sessions_new (h : Opened i s t) (ht : u.sessions = t.sessions) (x : Session)
    (hx : x ∈ u.sessions) : x ∈ s.sessions ∨ x.contactId = i.contact := by
  rw [ht] at hx
  rcases h.sessions with hs | ⟨-, hs⟩
  · rw [hs] at hx; exact .inl hx
  · rw [hs] at hx
    rcases List.mem_append.mp hx with hx | hx
    · exact .inl hx
    · rw [List.mem_singleton.mp hx]; exact .inr rfl

/-- Later updates of the imported contact leave every pinned key as it is. -/
structure Renamed (i : Invite) (t u : Store) : Prop where
  identities : ∀ c x, contactOf t c = some x →
    ∃ y, contactOf u c = some y ∧ y.identityKey = x.identityKey
  contacts_new : ∀ c y, contactOf u c = some y → ∃ x, contactOf t c = some x

theorem renamed_update (f : Contact → Contact) (hid : ∀ c, (f c).contactId = c.contactId)
    (hkey : ∀ c, (f c).identityKey = c.identityKey)
    (hu : u.contacts = (updateContact i.contact f t).contacts) : Renamed i t u := by
  have hlookup (c : String) : contactOf u c =
      (contactOf t c).map (fun x => if x.contactId = i.contact then f x else x) := by
    rw [← contactOf_update hid]
    unfold contactOf
    rw [hu]
  constructor
  · intro c x hx
    refine ⟨if x.contactId = i.contact then f x else x, (hlookup c).trans (by rw [hx]; rfl), ?_⟩
    split
    · exact hkey x
    · rfl
  · intro c y hy
    rw [hlookup c] at hy
    obtain ⟨x, hx, -⟩ := Option.map_eq_some_iff.mp hy
    exact ⟨x, hx⟩

theorem Opened.tables (h : Opened i s t) : t.remoteContacts = s.remoteContacts ∧
    t.peerOnions = s.peerOnions ∧ t.conversations = s.conversations := by
  cases h with
  | built _ h => exact ⟨h.remotes, h.peers, h.conversations⟩
  | pinned _ _ ht => rw [ht]; exact ⟨rfl, rfl, rfl⟩

/-- Routing rows after the invite's own has been stored among agreeing ones. -/
structure Routed (i : Invite) (l k : List RemoteContact) : Prop where
  kept : ∀ r ∈ l, r ∈ k
  added : ∀ r ∈ k, r ∈ l ∨ r = i.remote
  stored : i.remote ∈ k

theorem insertRemote_routed (h : routesAgree i s = true)
    (hu : u.remoteContacts = s.remoteContacts) :
    Routed i s.remoteContacts (insertRemote i.remote u).remoteContacts := by
  unfold insertRemote
  split
  · next hany =>
    obtain ⟨r, hr, hcontact⟩ := List.any_eq_true.mp hany
    rw [hu] at hr ⊢
    have hri := routes_agree h hr (.inr (by simpa using hcontact))
    exact ⟨fun _ hx => hx, fun _ hx => .inl hx, hri ▸ hr⟩
  · rw [hu]
    exact ⟨fun _ hx => List.mem_append_left _ hx, fun _ hx => by simpa using hx, by simp⟩

theorem replaceRemote_routed (h : routesAgree i s = true)
    (hu : u.remoteContacts = s.remoteContacts) :
    Routed i s.remoteContacts (replaceRemote i.remote u).remoteContacts := by
  unfold replaceRemote
  rw [hu]
  refine ⟨fun r hr => ?_, fun r hr => ?_, by simp⟩
  · by_cases hc : r.contactId = i.contact
    · rw [routes_agree h hr (.inr hc)]
      simp
    · exact List.mem_append_left _ (List.mem_filter.mpr ⟨hr, by simpa using hc⟩)
  · rcases List.mem_append.mp hr with hr | hr
    · exact .inl (List.mem_of_mem_filter hr)
    · exact .inr (List.mem_singleton.mp hr)

theorem sessions_routed (h : routesAgree i s = true) (hs : Invariant s) {x : Session}
    (hx : sessionOf s i.contact = some x) : Routed i s.remoteContacts s.remoteContacts := by
  have hmem := List.mem_of_find?_eq_some hx
  have hcontact : x.contactId = i.contact := by simpa using List.find?_some hx
  obtain ⟨r, hr, hrx⟩ := hs.sessions x hmem
  have hri := routes_agree h hr (.inr (hrx.trans hcontact))
  exact ⟨fun _ hy => hy, fun _ hy => .inl hy, hri ▸ hr⟩

/-- An opened contact, its row stored and updated, its pin and its conversation: that is
what an import did. -/
theorem imported_of (hpins : pinsAgree i s = true) (hroutes : routesAgree i s = true)
    (hopened : Opened i s u)
    (hroute : Routed i s.remoteContacts t.remoteContacts)
    (hpeers : t.peerOnions = s.peerOnions.filter (fun q => q.deviceId != i.deviceId) ++ [i.peer])
    (hrenamed : Renamed i u t) (hsessions : t.sessions = u.sessions)
    (hconversations : t.conversations =
      (findOrCreateConversation i.contact newId s).conversations) : Imported i s t := by
  refine ⟨hpins, hroutes, hpeers, hroute.kept, hroute.added, hroute.stored, fun c x hx => ?_,
    fun c y hy => ?_, hopened.sessions_kept hsessions, hopened.sessions_new hsessions,
    newId, hconversations⟩
  · exact hrenamed.identities c x (hopened.identities c x hx)
  · obtain ⟨x, hx⟩ := hrenamed.contacts_new c y hy
    exact hopened.contacts_new c x hx

theorem insertRemote_tables (r : RemoteContact) (s : Store) :
    (insertRemote r s).contacts = s.contacts ∧ (insertRemote r s).sessions = s.sessions ∧
    (insertRemote r s).peerOnions = s.peerOnions ∧
    (insertRemote r s).conversations = s.conversations := by
  unfold insertRemote
  split <;> exact ⟨rfl, rfl, rfl, rfl⟩

theorem findOrCreateConversation_tables (c newId : String) (s : Store) :
    (findOrCreateConversation c newId s).contacts = s.contacts ∧
    (findOrCreateConversation c newId s).sessions = s.sessions ∧
    (findOrCreateConversation c newId s).peerOnions = s.peerOnions ∧
    (findOrCreateConversation c newId s).remoteContacts = s.remoteContacts := by
  unfold findOrCreateConversation
  split <;> exact ⟨rfl, rfl, rfl, rfl⟩

theorem findOrCreateConversation_congr {c : String} (h : t.conversations = s.conversations) :
    (findOrCreateConversation c newId t).conversations =
      (findOrCreateConversation c newId s).conversations := by
  unfold findOrCreateConversation
  rw [h]
  split
  · exact h
  · rfl

theorem desktop_imported (hpins : pinsAgree i s = true) (hroutes : routesAgree i s = true)
    (h : Executed (Desktop.importStatements fingerprint newId i s) s t) : Imported i s t := by
  unfold Desktop.importStatements at h
  obtain ⟨u, hopen, hrest⟩ := executed_append.mp h
  have hopened : Opened i s u := by
    split at hopen
    · next hnone => exact .built (by simpa using hnone) (desktop_established hopen)
    · obtain ⟨v, hv, hu⟩ := executed_cons.mp hopen
      obtain rfl := executed_nil.mp hu
      exact requirePinned_opened hv
  simp only [executed_cons, executed_nil, Option.some.injEq, exists_eq_left'] at hrest
  obtain ⟨v, hv, rfl⟩ := hrest
  obtain ⟨number, -, rfl⟩ := Option.map_eq_some_iff.mp hv
  obtain ⟨hremotes, hpeers, hconversations⟩ := hopened.tables
  obtain ⟨hicontacts, hisessions, hipeers, hiconversations⟩ := insertRemote_tables i.remote u
  let f (c : Contact) : Contact := { i.verify c with safetyNumber := some number }
  obtain ⟨hfcontacts, hfsessions, hfpeers, hfremotes⟩ := findOrCreateConversation_tables i.contact
    newId (updateContact i.contact f (replacePeer i.peer (insertRemote i.remote u)))
  refine imported_of hpins hroutes hopened ?_ ?_ ?_ (hfsessions.trans hisessions)
    (findOrCreateConversation_congr (hiconversations.trans hconversations))
  · rw [hfremotes]
    exact insertRemote_routed hroutes hremotes
  · rw [hfpeers]
    change (insertRemote i.remote u).peerOnions.filter _ ++ _ = _
    rw [hipeers, hpeers]
    rfl
  · refine renamed_update f (fun _ => rfl) (fun _ => rfl) (hfcontacts.trans ?_)
    exact congrArg (List.map _) hicontacts

theorem Renamed.trans {v : Store} (h : Renamed i t u) (k : Renamed i u v) : Renamed i t v := by
  refine ⟨fun c x hx => ?_, fun c y hy => ?_⟩
  · obtain ⟨y, hy, hxy⟩ := h.identities c x hx
    obtain ⟨z, hz, hyz⟩ := k.identities c y hy
    exact ⟨z, hz, hyz.trans hxy⟩
  · obtain ⟨x, hx⟩ := k.contacts_new c y hy
    exact h.contacts_new c x hx

/-- The last two statements on Android: the pin and the verified contact. -/
theorem android_verified (hpins : pinsAgree i s = true) (hroutes : routesAgree i s = true)
    {v : Store} (hopened : Opened i s u) (hrenamed : Renamed i u v)
    (hroute : Routed i s.remoteContacts v.remoteContacts) (hpeers : v.peerOnions = s.peerOnions)
    (hsessions : v.sessions = u.sessions)
    (hconversations : v.conversations =
      (findOrCreateConversation i.contact newId s).conversations) :
    Imported i s (updateContact i.contact i.verify (replacePeer i.peer v)) := by
  refine imported_of hpins hroutes hopened hroute ?_ ?_ hsessions hconversations
  · change v.peerOnions.filter _ ++ _ = _
    rw [hpeers]
    rfl
  · exact hrenamed.trans (renamed_update i.verify (fun _ => rfl) (fun _ => rfl) rfl)

/-- `addContact` within an import: the invite gives it every field it needs. -/
theorem android_added {v : Store} (h : Executed [Android.putRemote fingerprint i.bundle,
      Android.nameContact fingerprint i.bundle,
      fun s => some (findOrCreateConversation i.bundle.contact newId s)] u v) :
    ∃ f : Contact → Contact, (∀ c, (f c).contactId = c.contactId) ∧
      (∀ c, (f c).identityKey = c.identityKey) ∧ v = findOrCreateConversation i.contact newId
        (updateContact i.contact f (replaceRemote i.remote u)) := by
  simp only [executed_cons, executed_nil, Option.some.injEq, exists_eq_left'] at h
  obtain ⟨w, hw, x, hx, rfl⟩ := h
  obtain ⟨number, -, rfl⟩ := Option.map_eq_some_iff.mp hx
  unfold Android.putRemote at hw
  split at hw
  · have hwritten : w = replaceRemote i.remote u := (Option.some.inj hw).symm
    let f (c : Contact) : Contact :=
      { c with username := i.username, publicUid := some i.publicUid, safetyNumber := some number }
    rw [hwritten]
    exact ⟨f, fun _ => rfl, fun _ => rfl, rfl⟩
  · cases hw

/-- Android routes, names and opens the contact in `addContact`; an import of a known
session does none of that. -/
theorem android_imported (hs : Invariant s) (hpins : pinsAgree i s = true)
    (hroutes : routesAgree i s = true)
    (h : Executed (Android.importStatements fingerprint newId i s) s t) : Imported i s t := by
  unfold Android.importStatements at h
  obtain ⟨u, hopen, hrest⟩ := executed_append.mp h
  simp only [executed_cons, executed_nil, Option.some.injEq, exists_eq_left'] at hrest
  subst hrest
  split at hopen
  · next hnone =>
    obtain ⟨v, hv, hadd⟩ := executed_append.mp hopen
    have hopened : Opened i s v := .built (by simpa using hnone) (android_established hv)
    obtain ⟨hremotes, hpeers, hconversations⟩ := hopened.tables
    obtain ⟨f, hid, hkey, rfl⟩ := android_added hadd
    obtain ⟨hfcontacts, hfsessions, hfpeers, hfremotes⟩ := findOrCreateConversation_tables
      i.contact newId (updateContact i.contact f (replaceRemote i.remote v))
    refine android_verified hpins hroutes hopened (renamed_update f hid hkey hfcontacts) ?_
      (hfpeers.trans hpeers) hfsessions (findOrCreateConversation_congr hconversations)
    rw [hfremotes]
    exact replaceRemote_routed hroutes hremotes
  · next hsome =>
    simp only [executed_cons, executed_nil, Option.some.injEq] at hopen
    obtain ⟨v, hv, w, rfl, rfl⟩ := hopen
    have hopened := requirePinned_opened hv
    have hopen : sessionOf s i.contact ≠ none := fun hnone => hsome (by rw [hnone]; rfl)
    obtain ⟨x, hx⟩ := Option.ne_none_iff_exists'.mp hopen
    obtain ⟨hremotes, hpeers, hconversations⟩ := hopened.tables
    obtain ⟨hfcontacts, hfsessions, hfpeers, hfremotes⟩ :=
      findOrCreateConversation_tables i.contact newId v
    refine android_verified hpins hroutes hopened ?_ ?_ (hfpeers.trans hpeers) hfsessions
      (findOrCreateConversation_congr hconversations)
    · refine ⟨fun c x hx => ⟨x, ?_, rfl⟩, fun c y hy => ⟨y, ?_⟩⟩
      · unfold contactOf at hx ⊢; rw [hfcontacts]; exact hx
      · unfold contactOf at hy ⊢; rw [← hfcontacts]; exact hy
    · rw [hfremotes, hremotes]
      exact sessions_routed hroutes hs hx

end Import

section Run

variable {fingerprint} {kind : ClientKind} {s t : Store} {es : List Event} {e : Event}

/-- An import that throws changes nothing; one that returns did what it should. -/
theorem import_cases (hs : Invariant s) (e : Event) :
    (importServerlessContact fingerprint kind e.newId e.invite e.executed s).thrown = true ∧
        next fingerprint kind s e = s ∨
      Imported e.invite s (next fingerprint kind s e) := by
  unfold next importServerlessContact
  split
  · next himportable =>
    simp only [importable, Bool.and_eq_true] at himportable
    cases hthrown : (transaction e.executed
        (importStatements fingerprint kind e.newId e.invite s) s).thrown with
    | true => exact .inl ⟨rfl, transaction_thrown hthrown⟩
    | false =>
      right
      have hexecuted := transaction_executed hthrown
      cases kind with
      | desktop => exact desktop_imported himportable.1.1.2 himportable.1.2 hexecuted
      | android => exact android_imported hs himportable.1.1.2 himportable.1.2 hexecuted
  · exact .inl ⟨rfl, rfl⟩

theorem initial_invariant (h : Initial s) : Invariant s := by
  refine ⟨?_, ?_, ?_, ?_, h.some_conversation, h.one_conversation⟩
  · rw [h.peers]; exact fun _ hp => by cases hp
  · intro a ha
    unfold routes at ha
    rw [h.peers, h.remotes] at ha
    cases ha
  · rw [h.peers]; exact fun _ hp => by cases hp
  · rw [h.sessions]; exact fun _ hx => by cases hx

theorem step_preserves_invariant (s : Store) (e : Event) (hs : Invariant s) :
    Invariant (next fingerprint kind s e) ∧ Kept s (next fingerprint kind s e) := by
  have hcases : (importServerlessContact fingerprint kind e.newId e.invite e.executed s).thrown =
      true ∧ next fingerprint kind s e = s ∨ Imported e.invite s (next fingerprint kind s e) :=
    import_cases hs e
  rcases hcases with ⟨-, heq⟩ | h
  · rw [heq]
    exact ⟨hs, hs.kept⟩
  · exact ⟨h.invariant hs, h.kept hs⟩

theorem reachable_satisfies_invariant (h : Reachable (system fingerprint kind) s) : Invariant s :=
  reachable_invariant (fun _ hi => initial_invariant hi)
    (fun s e hs _ => (step_preserves_invariant s e hs).1) h

theorem run_kept (hs : Invariant s) (h : Execution (system fingerprint kind) s es t) :
    Kept s t ∧ Invariant t := by
  induction h with
  | refl => exact ⟨hs.kept, hs⟩
  | tail _ hu ih =>
    obtain ⟨hkept, ht⟩ := ih
    obtain ⟨-, rfl⟩ := hu
    exact ⟨hkept.trans (step_preserves_invariant _ _ ht).2, (step_preserves_invariant _ _ ht).1⟩

theorem import_thrown {newId : String} {i : Invite} {n : Nat}
    (h : (importServerlessContact fingerprint kind newId i n s).thrown = true) :
    (importServerlessContact fingerprint kind newId i n s).state = s := by
  unfold importServerlessContact at h ⊢
  split
  · next hi =>
    rw [if_pos hi] at h
    exact transaction_thrown h
  · rfl

section Witness

/-- A registered device that knows nobody, and the invite it imports. -/
def registered : Store where
  account := ⟨some "user", "device", "key"⟩
  contacts := []
  remoteContacts := []
  sessions := []
  peerOnions := []
  conversations := []

def invite : Invite :=
  ⟨"peer", "peer-device", 1, "name", "CP-1", "onion", "auth", "peer-key", true, "session", "uri"⟩

def joined (localId localKey userId key : String) : String := localId ++ localKey ++ userId ++ key

theorem registered_initial : Initial registered :=
  ⟨rfl, rfl, rfl, (fun _ _ h => nomatch h), fun _ => Nat.zero_le 1⟩

end Witness

end Run

end InvitePinning
