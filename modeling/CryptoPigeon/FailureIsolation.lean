import CryptoPigeon.ConsumeIncoming

/-! # Failing entries and the rest of their pass

An entry fails where its iteration acknowledges nothing. It is isolated if the pass over
any list runs as without it. What can escape an iteration decides: the fields read and
bound outside the transaction, the bundle request, session establishment, and `BEGIN`,
`ROLLBACK` and `endTransaction` themselves. -/
namespace FailureIsolation

open ConsumingLoop VaultStore SyncMessages

abbrev Iterate := Vault → Pending → Progress Vault String

def Fails (step : Iterate) (v : Vault) (p : Pending) : Prop :=
  ∀ w id, step v p ≠ .next w (some id)

/-- The ids in the acknowledgement request of a pass; an exception leaves before it. -/
def acknowledged (r : Result Vault String) : List String :=
  if r.escaped then [] else r.emitted

/-- No failing entry of the pass changes what the pass does with the other entries,
before it in the list or after it, and what was seen or committed is acknowledged. -/
structure FailuresIsolated (step : Iterate) (v : Vault) (l : List Pending) : Prop where
  absent : ∀ before after p, l = before ++ p :: after →
    (consume step v before).escaped = false → Fails step (consume step v before).state p →
    ∀ rest, consume step v (before ++ p :: rest) = consume step v (before ++ rest)
  acknowledges : ∀ w p x id, Reaches step v l w p → step w p = .next x (some id) →
    id ∈ acknowledged (consume step v l)

theorem failuresIsolated_iff {step : Iterate} {v : Vault} {l : List Pending} :
    FailuresIsolated step v l ↔
      ∀ w p, Reaches step v l w p → Fails step w p → step w p = .next w none := by
  constructor
  · rintro h w p ⟨before, after, hl, he, rfl⟩ hf
    exact consume_absent_iff.mp fun rest =>
      (consume_append_congr he).mp (h.absent before after p hl he hf rest)
  · intro h
    have hescape : (consume step v l).escaped = false := by
      refine consume_completes fun w p hr x hx => ?_
      have hf : Fails step w p := fun y id hy => by rw [hx] at hy; cases hy
      have hquiet := h w p hr hf
      rw [hx] at hquiet
      cases hquiet
    refine ⟨fun before after p hl he hf rest => ?_, fun w p x id hr hx => ?_⟩
    · have hquiet := h _ p ⟨before, after, hl, he, rfl⟩ hf
      exact (consume_append_congr he).mpr (consume_skip hquiet)
    · unfold acknowledged
      rw [hescape]
      exact reaches_emitted hr hx

section Contained

/-- Skipped, or begun and, as it fails, rolled back without a further exception. -/
def TransactionContained (v : Vault) (contactId : String) (o : Outcome) : Prop :=
  identityChanged v contactId = true ∨ (o.begins = true ∧ o.rollsBack = true)

variable {v w : Vault} {id c : String} {o : Outcome} {f : Fields} {p : Pending} {b : Bundle}
  {fault : ContactFault} {transact : Vault → String → Progress Vault String}

theorem receiveFrom_known_quiet_iff
    (htransact : (∀ x i, transact w c ≠ .next x (some i)) →
      (transact w c = .next v none ↔ (o.begins = true ∧ o.rollsBack = true) ∧ w = v))
    (hf : ∀ x i, receiveFrom transact v (.known w c) ≠ .next x (some i)) :
    receiveFrom transact v (.known w c) = .next v none ↔ w = v ∧ TransactionContained v c o := by
  have hquiet : receiveFrom transact v (.known w c) = .next v none ↔
      TransactionContained w c o ∧ w = v := by
    unfold TransactionContained
    simp only [receiveFrom] at hf ⊢
    cases hc : identityChanged w c with
    | true => simp
    | false =>
      simp only [hc, Bool.false_eq_true, if_false] at hf ⊢
      simpa using htransact hf
  rw [hquiet]
  constructor
  · rintro ⟨hc, rfl⟩
    exact ⟨rfl, hc⟩
  · rintro ⟨rfl, hc⟩
    exact ⟨hc, rfl⟩

end Contained

namespace Desktop

/-- A bundle whose contact can be added without an exception and is there already. -/
def BundleContained (v : Vault) (b : Bundle) (fault : ContactFault) (o : Outcome) : Prop :=
  (fault = .none ∨ fault = .conversation) ∧ isTrustedIdentity v b = true ∧
    pinContact v b = v ∧ TransactionContained v (contactIdOf b) o

def SenderContained (v : Vault) (device : Option String) (o : Outcome) : Prop :=
  match remoteOfDevice v device with
  | some r => TransactionContained v r.contactId o
  | none =>
    match o.bundle with
    | .throws => False
    | .refused => True
    | .answered b fault => BundleContained v b fault o

def FieldsContained (v : Vault) (f : Fields) (o : Outcome) : Prop :=
  malformed f = true ∨
    (f.envelopeId.bind.isSome = true ∧ f.ciphertext.bufferFrom = true ∧
      ∃ device, f.senderId.bind = some device ∧ SenderContained v device o)

/-- Where a failing entry of a `syncMessages` pass is contained. -/
def Contained (v : Vault) (p : Pending) : Prop :=
  match p.entry with
  | .null => False
  | .scalar => True
  | .object f => FieldsContained v f p.outcome

variable {v w : Vault} {id c : String} {o : Outcome} {f : Fields} {p : Pending} {b : Bundle}
  {fault : ContactFault}

theorem transact_quiet_iff (hf : ∀ x i, transact id o w c ≠ .next x (some i)) :
    transact id o w c = .next v none ↔ (o.begins = true ∧ o.rollsBack = true) ∧ w = v := by
  unfold transact at hf ⊢
  cases hb : o.begins with
  | false => simp
  | true =>
    cases hc : commitEnvelope w c id o with
    | some x => simp [hb, hc] at hf
    | none => cases hr : o.rollsBack <;> simp

theorem addContact_quiet_iff
    (hf : ∀ x i, receiveFrom (transact id o) v (addContact v b fault) ≠ .next x (some i)) :
    receiveFrom (transact id o) v (addContact v b fault) = .next v none ↔
      BundleContained v b fault o := by
  unfold BundleContained
  unfold addContact at hf ⊢
  by_cases hg : fault = .bundle ∨ isTrustedIdentity v b = false ∨ fault = .session
  · rw [if_pos hg]
    rcases hg with rfl | ht | rfl
    · simp [receiveFrom]
    · simp [receiveFrom, ht]
    · simp [receiveFrom]
  · rw [if_neg hg] at hf ⊢
    simp only [not_or, Bool.not_eq_false] at hg
    cases fault with
    | bundle => exact absurd rfl hg.1
    | session => exact absurd rfl hg.2.2
    | deviceRow => simp [receiveFrom]
    | safetyNumber => simp [receiveFrom]
    | none => simpa [hg.2.1] using receiveFrom_known_quiet_iff transact_quiet_iff hf
    | conversation => simpa [hg.2.1] using receiveFrom_known_quiet_iff transact_quiet_iff hf

theorem resolveSender_quiet_iff {device : Option String}
    (hf : ∀ x i, receiveFrom (transact id o) v (resolveSender v device o.bundle) ≠
      .next x (some i)) :
    receiveFrom (transact id o) v (resolveSender v device o.bundle) = .next v none ↔
      SenderContained v device o := by
  unfold SenderContained
  unfold resolveSender at hf ⊢
  cases hr : remoteOfDevice v device with
  | some r =>
    rw [hr] at hf
    simpa using receiveFrom_known_quiet_iff transact_quiet_iff hf
  | none =>
    rw [hr] at hf
    cases hb : o.bundle with
    | throws => simp [receiveFrom]
    | refused => simp [receiveFrom]
    | answered b fault =>
      rw [hb] at hf
      exact addContact_quiet_iff hf

theorem processFields_quiet_iff (hf : ∀ x i, processFields v f o ≠ .next x (some i)) :
    processFields v f o = .next v none ↔ FieldsContained v f o := by
  unfold FieldsContained
  unfold processFields at hf ⊢
  cases hm : malformed f with
  | true => simp
  | false =>
    simp only [hm, Bool.false_eq_true, if_false, false_or] at hf ⊢
    cases hk : f.envelopeId.bind with
    | none => simp
    | some key =>
      simp only [hk, Option.isSome_some, true_and] at hf ⊢
      by_cases hs : key.getD "" ∈ v.seen
      · simp [hs] at hf
      · simp only [hs, if_false] at hf ⊢
        cases hc : f.ciphertext.bufferFrom with
        | false => simp
        | true =>
          cases hd : f.senderId.bind with
          | none => simp
          | some device =>
            simp only [hc, hd, Bool.true_eq_false, if_false] at hf ⊢
            simpa using resolveSender_quiet_iff hf

theorem processEnvelope_quiet_iff (hf : Fails processEnvelope v p) :
    processEnvelope v p = .next v none ↔ Contained v p := by
  unfold Contained
  unfold Fails processEnvelope at hf
  unfold processEnvelope
  cases he : p.entry with
  | null => simp
  | scalar => simp
  | object f =>
    rw [he] at hf
    exact processFields_quiet_iff hf

end Desktop

namespace Android

/-- As on the desktop; the conversation row is added with the contact. -/
def BundleContained (v : Vault) (b : Bundle) (fault : ContactFault) (o : Outcome) : Prop :=
  fault = .none ∧ isTrustedIdentity v b = true ∧
    (findOrCreateConversation (pinContact v b) (contactIdOf b) o.conversationId).1 = v ∧
    TransactionContained v (contactIdOf b) o

/-- A refused bundle request is an exception here. -/
def SenderContained (v : Vault) (device : String) (o : Outcome) : Prop :=
  match remoteOfDevice v (some device) with
  | some r => TransactionContained v r.contactId o
  | none =>
    match o.bundle with
    | .throws | .refused => False
    | .answered b fault => BundleContained v b fault o

def FieldsContained (v : Vault) (f : Fields) (o : Outcome) : Prop :=
  ∃ raw device version, f.envelopeId.getString = some raw ∧ f.senderId.getString = some device ∧
    f.version.getInt = some version ∧
    ((version ≠ 1 ∨ ConsumeIncoming.isEnvelopeId (ConsumeIncoming.normalizeId raw) = false) ∨
      SenderContained v device o)

/-- Where a failing entry of a `consumeIncoming` pass is contained. -/
def Contained (v : Vault) (p : Pending) : Prop :=
  match p.entry with
  | .null | .scalar => False
  | .object f => FieldsContained v f p.outcome

variable {v w : Vault} {id c : String} {o : Outcome} {f : Fields} {p : Pending} {b : Bundle}
  {fault : ContactFault}

theorem transact_quiet_iff (hf : ∀ x i, ConsumeIncoming.transact id o w c ≠ .next x (some i)) :
    ConsumeIncoming.transact id o w c = .next v none ↔
      (o.begins = true ∧ o.rollsBack = true) ∧ w = v := by
  unfold ConsumeIncoming.transact at hf ⊢
  cases hb : o.begins with
  | false => simp
  | true =>
    cases hr : o.rollsBack with
    | false => simp
    | true =>
      cases hc : ConsumeIncoming.commitEnvelope w c id o with
      | some x => simp [hb, hr, hc] at hf
      | none => simp

theorem addContact_quiet_iff
    (hf : ∀ x i, receiveFrom (ConsumeIncoming.transact id o) v
      (ConsumeIncoming.addContact v b o fault) ≠ .next x (some i)) :
    receiveFrom (ConsumeIncoming.transact id o) v (ConsumeIncoming.addContact v b o fault) =
      .next v none ↔ BundleContained v b fault o := by
  unfold BundleContained
  unfold ConsumeIncoming.addContact at hf ⊢
  by_cases hb : fault = .bundle
  · subst hb
    simp [receiveFrom]
  rw [if_neg hb] at hf ⊢
  cases ht : isTrustedIdentity v b with
  | false => simp [receiveFrom]
  | true =>
    simp only [ht, Bool.true_eq_false, if_false] at hf ⊢
    cases fault with
    | none => simpa using receiveFrom_known_quiet_iff transact_quiet_iff hf
    | bundle => exact absurd rfl hb
    | session => simp [receiveFrom]
    | deviceRow => simp [receiveFrom]
    | safetyNumber => simp [receiveFrom]
    | conversation => simp [receiveFrom]

theorem resolveSender_quiet_iff {device : String}
    (hf : ∀ x i, receiveFrom (ConsumeIncoming.transact id o) v
      (ConsumeIncoming.resolveSender v device o) ≠ .next x (some i)) :
    receiveFrom (ConsumeIncoming.transact id o) v (ConsumeIncoming.resolveSender v device o) =
      .next v none ↔ SenderContained v device o := by
  unfold SenderContained
  unfold ConsumeIncoming.resolveSender at hf ⊢
  cases hr : remoteOfDevice v (some device) with
  | some r =>
    rw [hr] at hf
    simpa using receiveFrom_known_quiet_iff transact_quiet_iff hf
  | none =>
    rw [hr] at hf
    cases hb : o.bundle with
    | throws => simp [receiveFrom]
    | refused => simp [receiveFrom]
    | answered b fault =>
      rw [hb] at hf
      exact addContact_quiet_iff hf

theorem processFields_quiet_iff
    (hf : ∀ x i, ConsumeIncoming.processFields v f o ≠ .next x (some i)) :
    ConsumeIncoming.processFields v f o = .next v none ↔ FieldsContained v f o := by
  unfold FieldsContained
  unfold ConsumeIncoming.processFields at hf ⊢
  cases hi : f.envelopeId.getString with
  | none => simp
  | some raw =>
    cases hd : f.senderId.getString with
    | none => simp
    | some device =>
      cases hv : f.version.getInt with
      | none => simp
      | some version =>
        simp only [hi, hd, hv] at hf ⊢
        by_cases hs : version ≠ 1 ∨
            ConsumeIncoming.isEnvelopeId (ConsumeIncoming.normalizeId raw) = false
        · simp [hs]
        · simp only [hs, if_false] at hf ⊢
          by_cases hp : ConsumeIncoming.normalizeId raw ∈ v.processed
          · simp [hp] at hf
          · simp only [hp, if_false] at hf ⊢
            simpa [hs] using resolveSender_quiet_iff hf

theorem processEnvelope_quiet_iff (hf : Fails ConsumeIncoming.processEnvelope v p) :
    ConsumeIncoming.processEnvelope v p = .next v none ↔ Contained v p := by
  unfold Contained
  unfold Fails ConsumeIncoming.processEnvelope at hf
  unfold ConsumeIncoming.processEnvelope
  cases he : p.entry with
  | null => simp
  | scalar => simp
  | object f =>
    rw [he] at hf
    exact processFields_quiet_iff hf

end Android

section Escape

def alice : Contact := ⟨"alice.1", "alice", none, "ik-alice", some "s", false, false⟩

def mallory : Contact := ⟨"mallory.1", "mallory", none, "ik-mallory", some "s", false, false⟩

def vault : Vault :=
  { Vault.empty with
    contacts := [alice, mallory]
    remoteContacts := [⟨"alice.1", "alice", "alice-device", 1⟩] }

def envelope (id sender : String) : Entry :=
  .object ⟨.num 1 true "1", .str id none, .str "AAAA" none, .str sender none⟩

def hello : Payload := ⟨.text, "", "", none, "hello", none, none, none⟩

def fine : Outcome := ⟨0, .throws, true, some hello, "m", "conversation", none, true, true⟩

/-- The bundle of a sender whose pinned identity has another key. -/
def otherKey : Bundle := ⟨"mallory", "new-device", "mallory", 1, none, "ik-other", "s"⟩

def first : Pending := ⟨envelope "0123456789abcdef0123456789abcde1" "alice-device", fine⟩

def hostile : Pending :=
  ⟨envelope "0123456789abcdef0123456789abcde2" "new-device",
    { fine with bundle := .answered otherKey .none }⟩

end Escape

end FailureIsolation
