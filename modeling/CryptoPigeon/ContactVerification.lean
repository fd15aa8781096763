import CryptoPigeon.InvitePinning
import Mathlib.Data.List.Induction

/-! # Verified contacts

The desktop operations that write the key of a contact, its `verified` and
`identity_changed` flags or its safety number. An address that is added, and the sender
that `syncMessages` does not know, may stop after any of their statements. -/
namespace ContactVerification

open TransitionSystem StatementRun ContactStore
open VaultStore (Contact)
open InvitePinning (importServerlessContact)

variable (fingerprint : String → String → String → String → String)

/-- `/^\d{60}$/`. -/
def isSafetyNumber (number : String) : Bool :=
  number.length == 60 && number.toList.all Char.isDigit

/-- `UPDATE contacts SET verified=1 WHERE … AND safety_number_hash=? AND identity_changed=0`. -/
def markVerified (number : String) (c : Contact) : Contact :=
  if c.safetyNumber = some number ∧ c.identityChanged = false then { c with verified := true }
  else c

/-- `POST /api/contacts/:contactId/verify`. -/
def verify (contactId number : String) (s : Store) : Store :=
  if isSafetyNumber number then updateContact contactId (markVerified number) s else s

/-- The account gets its user id once. -/
def register (userId : String) (s : Store) : Store :=
  match s.account.userId with
  | some _ => s
  | none => { s with account := { s.account with userId := some userId } }

inductive Event
  | register (userId : String)
  | addContactAndSession (username newId : String) (b : Bundle) (executed : Nat)
  | addUnknownSender (b : Bundle) (executed : Nat)
  | importServerlessContact (newId : String) (i : Invite) (executed : Nat)
  | saveIdentity (userId : String) (signalDeviceId : Nat) (key : String)
  | verify (contactId number : String)

def next (s : Store) : Event → Store
  | .register userId => register userId s
  | .addContactAndSession username newId b n =>
    (autocommit n (Desktop.addContactAndSession fingerprint username newId b) s).state
  | .addUnknownSender b n => (autocommit n (Desktop.addUnknownSender fingerprint b) s).state
  | .importServerlessContact newId i n =>
    (importServerlessContact fingerprint .desktop newId i n s).state
  | .saveIdentity userId signalDeviceId key =>
    saveIdentity (addressOf userId signalDeviceId) userId key s
  | .verify contactId number => verify contactId number s

def system : System Store Event where
  Initial := fun s => s.contacts = []
  Enabled := fun _ _ => True
  next := next fingerprint

/-- The safety number of an address and a key, for the local identity. -/
def Matches (account : Account) (contactId key number : String) : Prop :=
  ∃ localId userId signalDeviceId, account.userId = some localId ∧
    contactId = addressOf userId signalDeviceId ∧
      number = fingerprint localId account.identityKey userId key

/-- A verified contact is not a changed one, and the safety number of an unchanged contact
is that of its pinned key. -/
structure Sound (account : Account) (c : Contact) : Prop where
  unchanged : c.verified = true → c.identityChanged = false
  number : c.identityChanged = false → ∀ number, c.safetyNumber = some number →
    Matches fingerprint account c.contactId c.identityKey number

def Invariant (s : Store) : Prop :=
  ∀ contactId c, contactOf s contactId = some c → Sound fingerprint s.account c

/-- If the contact is verified in `t`, it was so in `s` already, with the same key. -/
def Steady (contactId : String) (s t : Store) : Prop :=
  ∀ c, contactOf t contactId = some c → c.verified = true →
    ∃ x, contactOf s contactId = some x ∧ x.verified = true ∧ x.identityKey = c.identityKey

/-- What a statement keeps, and whom it does not verify. -/
structure Sustained (p : String → Prop) (s t : Store) : Prop where
  invariant : Invariant fingerprint s → Invariant fingerprint t
  steady : ∀ contactId, p contactId → Steady contactId s t

/-- The event is an import of the contact that returned, or a verify request that was
accepted with the contact's safety number. -/
def Approves (s : Store) (contactId : String) : Event → Prop
  | .importServerlessContact newId i n => i.contact = contactId ∧
    (importServerlessContact fingerprint .desktop newId i n s).thrown = false
  | .verify c number => c = contactId ∧ isSafetyNumber number = true ∧
    ∃ x, contactOf s contactId = some x ∧ x.safetyNumber = some number ∧
      x.identityChanged = false
  | _ => False

section Statements

variable {fingerprint} {s t u : Store} {contactId : String} {f : Contact → Contact}
  {p : String → Prop}

theorem contactOf_congr (h : t.contacts = s.contacts) : contactOf t contactId =
    contactOf s contactId := by
  unfold contactOf
  rw [h]

theorem Invariant.of_tables (hs : Invariant fingerprint s) (hc : t.contacts = s.contacts)
    (ha : t.account = s.account) : Invariant fingerprint t := by
  intro contactId c h
  rw [ha]
  exact hs contactId c (contactOf_congr hc ▸ h)

theorem Steady.refl (s : Store) : Steady contactId s s := fun c h hv => ⟨c, h, hv, rfl⟩

theorem Steady.trans (h : Steady contactId s t) (k : Steady contactId t u) :
    Steady contactId s u := by
  intro c hc hv
  obtain ⟨x, hx, hxv, hxk⟩ := k c hc hv
  obtain ⟨y, hy, hyv, hyk⟩ := h x hx hxv
  exact ⟨y, hy, hyv, hyk.trans hxk⟩

theorem Sustained.refl (s : Store) : Sustained fingerprint p s s :=
  ⟨id, fun _ _ => .refl s⟩

theorem Sustained.trans (h : Sustained fingerprint p s t) (k : Sustained fingerprint p t u) :
    Sustained fingerprint p s u :=
  ⟨fun hs => k.invariant (h.invariant hs), fun c hc => (h.steady c hc).trans (k.steady c hc)⟩

theorem Sustained.of_tables (hc : t.contacts = s.contacts) (ha : t.account = s.account) :
    Sustained fingerprint p s t :=
  ⟨fun hs => hs.of_tables hc ha, fun _ _ c h hv => ⟨c, contactOf_congr hc ▸ h, hv, rfl⟩⟩

/-- An update of one contact concerns that contact only. -/
theorem contactOf_updated (hid : ∀ c, (f c).contactId = c.contactId) {c : String} {y : Contact}
    (h : contactOf (updateContact contactId f s) c = some y) :
    ∃ x, contactOf s c = some x ∧ (c = contactId ∧ y = f x ∨ y = x) := by
  rw [contactOf_update hid] at h
  obtain ⟨x, hx, hxy⟩ := Option.map_eq_some_iff.mp h
  split at hxy
  · next heq => exact ⟨x, hx, .inl ⟨(contactOf_id hx).symm.trans heq, hxy.symm⟩⟩
  · exact ⟨x, hx, .inr hxy.symm⟩

/-- An update may verify its contact only if `p` leaves it out. -/
theorem sustained_update (hid : ∀ c, (f c).contactId = c.contactId)
    (hsound : ∀ x, contactOf s contactId = some x → Sound fingerprint s.account x →
      Sound fingerprint s.account (f x))
    (hsteady : ∀ x, contactOf s contactId = some x → p contactId → (f x).verified = true →
      x.verified = true ∧ (f x).identityKey = x.identityKey) :
    Sustained fingerprint p s (updateContact contactId f s) := by
  constructor
  · intro hs c y h
    obtain ⟨x, hx, ⟨rfl, rfl⟩ | rfl⟩ := contactOf_updated hid h
    · exact hsound x hx (hs c x hx)
    · exact hs c y hx
  · intro c hc y h hv
    obtain ⟨x, hx, ⟨rfl, rfl⟩ | rfl⟩ := contactOf_updated hid h
    · obtain ⟨hverified, hkey⟩ := hsteady x hx hc hv
      exact ⟨x, hx, hverified, hkey.symm⟩
    · exact ⟨y, hx, hv, rfl⟩

theorem contactOf_inserted {userId key c : String} {y : Contact}
    (hnone : contactOf s contactId = none)
    (h : contactOf (insertContact contactId userId key s) c = some y) :
    y = ⟨contactId, userId, none, key, none, false, false⟩ ∨ contactOf s c = some y := by
  rw [contactOf_insert hnone] at h
  split at h
  · exact .inl (Option.some.inj h).symm
  · exact .inr h

theorem sustained_insert {userId key : String} (hnone : contactOf s contactId = none) :
    Sustained fingerprint p s (insertContact contactId userId key s) := by
  constructor
  · intro hs c y h
    rcases contactOf_inserted hnone h with rfl | h
    · exact ⟨nofun, nofun⟩
    · exact hs c y h
  · intro c _ y h hv
    rcases contactOf_inserted hnone h with rfl | h
    · cases hv
    · exact ⟨y, h, hv, rfl⟩

/-- A new contact has neither flag and no number; a repinned one is marked as changed. -/
theorem saveIdentity_sustained (userId key : String) :
    Sustained fingerprint p s (saveIdentity contactId userId key s) := by
  unfold saveIdentity
  split
  · next hnone => exact sustained_insert hnone
  · have hverified (x : Contact) (hv : (repin key x).verified = true) :
        x.verified = true ∧ x.identityKey = key := by simpa [repin] using hv
    refine sustained_update repin_id (fun x _ hx => ⟨fun hv => ?_, fun hc n hn => ?_⟩)
      fun x _ _ hv => ⟨(hverified x hv).1, (hverified x hv).2.symm⟩
    · rw [repin_self (hverified x hv).2]
      exact hx.unchanged (hverified x hv).1
    · obtain ⟨hchanged, hkey⟩ : x.identityChanged = false ∧ x.identityKey = key := by
        simpa [repin] using hc
      rw [repin_self hkey] at hn ⊢
      exact hx.number hchanged n hn

theorem computed_matches {userId number : String} {signalDeviceId : Nat}
    (hid : contactId = addressOf userId signalDeviceId)
    (h : computeSafetyNumber fingerprint contactId userId s = some number) {x : Contact}
    (hx : contactOf s contactId = some x) :
    Matches fingerprint s.account contactId x.identityKey number := by
  unfold computeSafetyNumber at h
  split at h
  · next localId c haccount hc =>
    obtain rfl := Option.some.inj (hc.symm.trans hx)
    obtain rfl := Option.some.inj h
    exact ⟨localId, userId, signalDeviceId, haccount, hid, rfl⟩
  · cases h

/-- An update that stores the number just computed for the key that is pinned. -/
theorem sustained_number {userId number : String} {signalDeviceId : Nat}
    (haddress : contactId = addressOf userId signalDeviceId)
    (hnumber : computeSafetyNumber fingerprint contactId userId s = some number)
    (hid : ∀ c, (f c).contactId = c.contactId) (hkey : ∀ c, (f c).identityKey = c.identityKey)
    (hstored : ∀ c, (f c).safetyNumber = some number)
    (hflags : ∀ c, Sound fingerprint s.account c → (f c).verified = true →
      (f c).identityChanged = false)
    (hsteady : ∀ c, p contactId → (f c).verified = true → c.verified = true) :
    Sustained fingerprint p s (updateContact contactId f s) := by
  refine sustained_update hid (fun x hx hsound => ⟨hflags x hsound, fun _ n hn => ?_⟩)
    fun x _ hp hv => ⟨hsteady x hp hv, hkey x⟩
  rw [hstored] at hn
  obtain rfl := Option.some.inj hn
  rw [hid, hkey, contactOf_id hx]
  exact computed_matches haddress hnumber hx

theorem upsertRemote_tables (r : VaultStore.RemoteContact) (s : Store) :
    (upsertRemote r s).contacts = s.contacts ∧ (upsertRemote r s).account = s.account := by
  unfold upsertRemote
  split <;> exact ⟨rfl, rfl⟩

theorem findOrCreate_sustained (c newId : String) :
    Sustained fingerprint p s (findOrCreateConversation c newId s) := by
  unfold findOrCreateConversation
  split <;> exact .of_tables rfl rfl

theorem insertRemote_sustained (r : VaultStore.RemoteContact) :
    Sustained fingerprint p s (insertRemote r s) := by
  unfold insertRemote
  split <;> exact .of_tables rfl rfl

theorem establishSession_sustained {b : Bundle} {x : Statement Store}
    (hx : x ∈ Desktop.establishSession b) (h : x s = some t) :
    Sustained fingerprint p s t := by
  simp only [Desktop.establishSession, List.mem_cons, List.not_mem_nil, or_false] at hx
  rcases hx with rfl | rfl | rfl
  · unfold Desktop.pinIdentity at h
    split at h
    · obtain rfl := Option.some.inj h
      exact saveIdentity_sustained _ _
    · cases h
  · obtain rfl := Option.some.inj h
    exact .of_tables rfl rfl
  · obtain rfl := Option.some.inj h
    exact saveIdentity_sustained _ _

theorem putRemote_sustained {b : Bundle} (h : Desktop.putRemote b s = some t) :
    Sustained fingerprint p s t := by
  obtain ⟨r, -, rfl⟩ := Option.map_eq_some_iff.mp h
  obtain ⟨hc, ha⟩ := upsertRemote_tables r s
  exact .of_tables hc ha

theorem nameAdded_sustained {username : String} {b : Bundle}
    (h : Desktop.nameAdded fingerprint username b s = some t) : Sustained fingerprint p s t := by
  obtain ⟨number, hnumber, rfl⟩ := Option.map_eq_some_iff.mp h
  exact sustained_number rfl hnumber (fun _ => rfl) (fun _ => rfl) (fun _ => rfl)
    (fun _ _ _ => rfl) (fun _ _ hv => hv)

theorem nameSender_sustained {b : Bundle}
    (h : Desktop.nameSender fingerprint b s = some t) : Sustained fingerprint p s t := by
  unfold Desktop.nameSender at h
  split at h
  · next number username hnumber _ =>
    obtain rfl := Option.some.inj h
    exact sustained_number rfl hnumber (fun _ => rfl) (fun _ => rfl) (fun _ => rfl)
      (fun _ hsound hv => hsound.unchanged hv) (fun _ _ hv => hv)
  · cases h

theorem verifyImported_sustained {i : Invite} (h : verifyImported fingerprint i s = some t) :
    Sustained fingerprint (fun c => c ≠ i.contact) s t := by
  obtain ⟨number, hnumber, rfl⟩ := Option.map_eq_some_iff.mp h
  exact sustained_number rfl hnumber (fun _ => rfl) (fun _ => rfl) (fun _ => rfl)
    (fun _ _ _ => rfl) (fun _ hne _ => absurd rfl hne)

end Statements

section Operations

variable {fingerprint} {s t : Store} {n : Nat} {p : String → Prop}

/-- Wherever a run of statements stops, it keeps what each of them keeps. -/
theorem autocommit_sustained {l : List (Statement Store)}
    (h : ∀ x ∈ l, ∀ s t, x s = some t → Sustained fingerprint p s t) :
    Sustained fingerprint p s (autocommit n l s).state :=
  autocommit_invariant (I := Sustained fingerprint p s)
    (fun x hx u v hu hv => hu.trans (h x hx u v hv)) (.refl s)

theorem transaction_sustained {l : List (Statement Store)}
    (h : ∀ x ∈ l, ∀ s t, x s = some t → Sustained fingerprint p s t) :
    Sustained fingerprint p s (transaction n l s).state :=
  transaction_invariant (I := Sustained fingerprint p s)
    (fun x hx u v hu hv => hu.trans (h x hx u v hv)) (.refl s)

theorem addContactAndSession_sustained (username newId : String) (b : Bundle) :
    Sustained fingerprint p s
      (autocommit n (Desktop.addContactAndSession fingerprint username newId b) s).state := by
  refine autocommit_sustained fun x hx s t h => ?_
  simp only [Desktop.addContactAndSession, List.mem_append, List.mem_cons, List.not_mem_nil,
    or_false] at hx
  rcases hx with hx | rfl | rfl | rfl
  · exact establishSession_sustained hx h
  · exact putRemote_sustained h
  · exact nameAdded_sustained h
  · obtain rfl := Option.some.inj h
    exact findOrCreate_sustained _ _

theorem addUnknownSender_sustained (b : Bundle) : Sustained fingerprint p s
    (autocommit n (Desktop.addUnknownSender fingerprint b) s).state := by
  refine autocommit_sustained fun x hx s t h => ?_
  simp only [Desktop.addUnknownSender, List.mem_append, List.mem_cons, List.not_mem_nil,
    or_false] at hx
  rcases hx with hx | rfl | rfl
  · exact establishSession_sustained hx h
  · exact putRemote_sustained h
  · exact nameSender_sustained h

theorem importStatements_sustained {newId : String} {i : Invite} {r : Store}
    {x : Statement Store} (hx : x ∈ Desktop.importStatements fingerprint newId i r)
    (h : x s = some t) : Sustained fingerprint (fun c => c ≠ i.contact) s t := by
  simp only [Desktop.importStatements, List.mem_append, List.mem_cons, List.not_mem_nil,
    or_false] at hx
  rcases hx with hx | rfl | rfl | rfl | rfl
  · split at hx
    · exact establishSession_sustained hx h
    · obtain rfl := List.mem_singleton.mp hx
      unfold requirePinned at h
      split at h
      · cases h
      · split at h
        · obtain rfl := Option.some.inj h
          exact .refl s
        · cases h
  · obtain rfl := Option.some.inj h
    exact insertRemote_sustained _
  · obtain rfl := Option.some.inj h
    exact .of_tables rfl rfl
  · exact verifyImported_sustained h
  · obtain rfl := Option.some.inj h
    exact findOrCreate_sustained _ _

theorem import_sustained (newId : String) (i : Invite) :
    Sustained fingerprint (fun c => ¬ Approves fingerprint s c (.importServerlessContact newId i n))
      s (importServerlessContact fingerprint .desktop newId i n s).state := by
  have hrun : Sustained fingerprint (fun c => c ≠ i.contact) s
      (importServerlessContact fingerprint .desktop newId i n s).state := by
    unfold importServerlessContact
    split
    · exact transaction_sustained fun x hx _ _ h => importStatements_sustained hx h
    · exact .refl s
  refine ⟨hrun.invariant, fun c hc => ?_⟩
  by_cases hi : i.contact = c
  · have hthrown : (importServerlessContact fingerprint .desktop newId i n s).thrown = true := by
      by_contra hreturned
      exact hc ⟨hi, by simpa using hreturned⟩
    rw [InvitePinning.import_thrown hthrown]
    exact .refl s
  · exact hrun.steady c (Ne.symm hi)

theorem register_sustained (userId : String) :
    Sustained fingerprint p s (register userId s) := by
  unfold register
  split
  · exact .refl s
  · next hnone =>
    refine ⟨fun hs contactId c h => ?_, fun _ _ => .refl s⟩
    have hsound := hs contactId c h
    refine ⟨hsound.unchanged, fun hc number hn => ?_⟩
    -- without a user id no number was computed
    obtain ⟨localId, -, -, haccount, -⟩ := hsound.number hc number hn
    rw [hnone] at haccount
    cases haccount

theorem markVerified_id (number : String) (c : Contact) :
    (markVerified number c).contactId = c.contactId := by
  unfold markVerified
  split <;> rfl

theorem verify_sustained (contactId number : String) :
    Sustained fingerprint (fun c => ¬ Approves fingerprint s c (.verify contactId number)) s
      (verify contactId number s) := by
  unfold verify
  split
  · next hnumber =>
    refine sustained_update (markVerified_id number) (fun x _ hx => ?_) fun x hx hp hv => ?_
    · unfold markVerified
      split
      · next hmatch => exact ⟨fun _ => hmatch.2, hx.number⟩
      · exact hx
    · unfold markVerified at hv ⊢
      split at hv
      · next hmatch => exact absurd ⟨rfl, hnumber, x, hx, hmatch.1, hmatch.2⟩ hp
      · next hmismatch =>
        rw [if_neg hmismatch]
        exact ⟨hv, rfl⟩
  · exact .refl s

/-- One event keeps the invariant and verifies only whom it approves. -/
theorem step_sustained (s : Store) (e : Event) :
    Sustained fingerprint (fun c => ¬ Approves fingerprint s c e) s (next fingerprint s e) := by
  cases e with
  | register userId => exact register_sustained userId
  | addContactAndSession username newId b n =>
    exact addContactAndSession_sustained username newId b
  | addUnknownSender b n => exact addUnknownSender_sustained b
  | importServerlessContact newId i n => exact import_sustained newId i
  | saveIdentity userId signalDeviceId key => exact saveIdentity_sustained userId key
  | verify contactId number => exact verify_sustained contactId number

end Operations

section Run

variable {fingerprint} {s₀ : Store} {es : List Event} {contactId : String} {c : Contact}

/-- An event of the run approved the contact, and since then its key has been this one. -/
def KeptSinceApproved (fingerprint : String → String → String → String → String) (s₀ : Store)
    (es : List Event) (contactId key : String) : Prop :=
  ∃ before e after, es = before ++ e :: after ∧
    Approves fingerprint ((system fingerprint).replay s₀ before) contactId e ∧
    ∀ later, later <+: after → ∃ c,
      contactOf ((system fingerprint).replay s₀ (before ++ e :: later)) contactId = some c ∧
        c.identityKey = key

theorem run_invariant (h : s₀.contacts = []) (es : List Event) :
    Invariant fingerprint ((system fingerprint).replay s₀ es) := by
  induction es using List.reverseRecOn with
  | nil =>
    intro contactId c hc
    change contactOf s₀ contactId = some c at hc
    unfold contactOf at hc
    rw [h] at hc
    cases hc
  | append_singleton es e ih =>
    rw [replay_append]
    exact (step_sustained _ e).invariant ih

theorem run_keptSince (h : s₀.contacts = [])
    (hc : contactOf ((system fingerprint).replay s₀ es) contactId = some c)
    (hv : c.verified = true) : KeptSinceApproved fingerprint s₀ es contactId c.identityKey := by
  induction es using List.reverseRecOn generalizing c with
  | nil =>
    change contactOf s₀ contactId = some c at hc
    unfold contactOf at hc
    rw [h] at hc
    cases hc
  | append_singleton es e ih =>
    by_cases he : Approves fingerprint ((system fingerprint).replay s₀ es) contactId e
    · refine ⟨es, e, [], rfl, he, fun later hlater => ?_⟩
      obtain rfl := List.prefix_nil.mp hlater
      exact ⟨c, hc, rfl⟩
    · have hstep := hc
      rw [replay_append] at hstep
      obtain ⟨x, hx, hxv, hxk⟩ := (step_sustained _ e).steady contactId he c hstep hv
      obtain ⟨before, approval, after, rfl, happroved, hkept⟩ := ih hx hxv
      refine ⟨before, approval, after ++ [e], by simp, happroved, fun later hlater => ?_⟩
      rcases List.prefix_concat_iff.mp hlater with rfl | hlater
      · exact ⟨c, by simpa using hc, rfl⟩
      · obtain ⟨y, hy, hyk⟩ := hkept later hlater
        exact ⟨y, hy, hyk.trans hxk⟩

/-- After any run: a verified contact is not a changed one, an unchanged contact's safety
number is that of its pinned key and the local identity, and a verified contact has the
key it had when it was approved. -/
theorem verification_follows_key (h : s₀.contacts = [])
    (hc : contactOf ((system fingerprint).replay s₀ es) contactId = some c) :
    ¬ (c.verified = true ∧ c.identityChanged = true) ∧
    (c.identityChanged = false → ∀ number, c.safetyNumber = some number →
      Matches fingerprint ((system fingerprint).replay s₀ es).account contactId c.identityKey
        number) ∧
    (c.verified = true → KeptSinceApproved fingerprint s₀ es contactId c.identityKey) := by
  have hsound := run_invariant h es contactId c hc
  refine ⟨fun ⟨hv, hchanged⟩ => ?_, fun hunchanged number hn => ?_, run_keptSince h hc⟩
  · rw [hsound.unchanged hv] at hchanged
    cases hchanged
  · rw [← contactOf_id hc]
    exact hsound.number hunchanged number hn

section Witness

open InvitePinning (registered invite joined)

/-- The invited contact, whose key is then saved once more. -/
def invited : Contact :=
  ⟨invite.contact, "name", some "CP-1", "peer-key", some "userkeypeerpeer-key", true, false⟩

theorem invited_keptSince : KeptSinceApproved joined registered
    [.importServerlessContact "conversation" invite 9, .saveIdentity "peer" 1 "peer-key"]
    invite.contact "peer-key" :=
  (verification_follows_key (c := invited) rfl (by decide)).2.2 rfl

end Witness

end Run

end ContactVerification
