import CryptoPigeon.SyncMessages

/-! # The Android consumer

`consumeIncoming` works through the same entries with the same tables. It reads every
field outside the transaction, treats a refused bundle request as an exception, and keeps
`processed_envelope_ids` beside the seen ids. -/
namespace ConsumeIncoming

open ConsumingLoop VaultStore SyncMessages

/-- `id.replace("-","").toLowerCase(Locale.ROOT)`. -/
def normalizeId (id : String) : String :=
  String.ofList ((id.toList.filter (fun c => c ≠ '-')).map Char.toLower)

/-- `[a-f0-9]{32}`. -/
def isEnvelopeId (id : String) : Bool :=
  id.length == 32 && id.toList.all (fun c =>
    ('a' ≤ c && c ≤ 'f') || ('0' ≤ c && c ≤ '9'))

/-- The mark `isTrustedIdentity` leaves on a contact it refuses, outside any transaction. -/
def markChanged (v : Vault) (b : Bundle) : Vault :=
  { v with contacts := v.contacts.map (fun c =>
      if c.contactId = contactIdOf b then { c with identityChanged := true, verified := false }
      else c) }

/-- `addContact` pins the identity before the session is built and finds the conversation
after the contact is named. -/
def addContact (v : Vault) (b : Bundle) (o : Outcome) (fault : ContactFault) : Sender :=
  if fault = .bundle then .escaped v
  else if isTrustedIdentity v b = false then .escaped (markChanged v b)
  else
    match fault with
    | .safetyNumber => .escaped (putRemote (saveIdentity v b) b)
    | .conversation => .escaped (pinContact v b)
    | .none =>
      .known (findOrCreateConversation (pinContact v b) (contactIdOf b) o.conversationId).1
        (contactIdOf b)
    | _ => .escaped (saveIdentity v b)

def resolveSender (v : Vault) (deviceId : String) (o : Outcome) : Sender :=
  match remoteOfDevice v (some deviceId) with
  | some r => .known v r.contactId
  | none =>
    match o.bundle with
    | .throws | .refused => .escaped v
    | .answered b fault => addContact v b o fault

def identityMismatch (v : Vault) (contactId : String) (p : Payload) : Bool :=
  match (contactOf v contactId).bind Contact.publicUid with
  | none => false
  | some uid => p.senderUid != "" && p.senderUid != uid

def applyProfile (v : Vault) (contactId : String) (p : Payload) : Vault :=
  match p.profile with
  | none => v
  | some raw =>
    let name := raw.displayName.getD ""
    let line := raw.statusLine.getD ""
    if utf16Length name ≤ 64 ∧ utf16Length line ≤ 140 then putProfile v ⟨contactId, name, line⟩
    else v

/-- Both inserts fail on an id that is already there. -/
def markProcessed (v : Vault) (id : String) : Option Vault :=
  if id ∈ v.seen ∨ id ∈ v.processed then none
  else some { v with seen := v.seen ++ [id], processed := v.processed ++ [id] }

/-- What the transaction of one envelope writes; `none` is a throw. -/
def commitEnvelope (v : Vault) (contactId id : String) (o : Outcome) : Option Vault :=
  match o.payload with
  | none => none
  | some p =>
    if o.persists = false ∨ identityMismatch v contactId p = true then none
    else
      let found := findOrCreateConversation v contactId o.conversationId
      let named := applyProfile found.1 contactId p
      if p.kind ≠ .text then markProcessed (applyControl named found.2 p) id
      else
        match queueReceipt (storeMessage named found.2 id p o) p o with
        | none => none
        | some queued => markProcessed (storeAttachment queued p o) id

/-- `endTransaction` stands in a `finally`: what it throws escapes. -/
def transact (id : String) (o : Outcome) (v : Vault) (contactId : String) :
    Progress Vault String :=
  if o.begins = false ∨ o.rollsBack = false then .escaped v
  else
    match commitEnvelope v contactId id o with
    | some w => .next w (some id)
    | none => .next v none

/-- One iteration of the loop of `consumeIncoming`. -/
def processFields (v : Vault) (f : Fields) (o : Outcome) : Progress Vault String :=
  match f.envelopeId.getString, f.senderId.getString with
  | some raw, some device =>
    match f.version.getInt with
    | none => .escaped v
    | some version =>
      let id := normalizeId raw
      if version ≠ 1 ∨ isEnvelopeId id = false then .next v none
      else if id ∈ v.processed then .next v (some id)
      else receiveFrom (transact id o) v (resolveSender v device o)
  | _, _ => .escaped v

/-- `getJSONObject` throws for an entry that is not an object. -/
def processEnvelope (v : Vault) (p : Pending) : Progress Vault String :=
  match p.entry with
  | .null | .scalar => .escaped v
  | .object f => processFields v f p.outcome

def consumeIncoming (v : Vault) (pending : List Pending) : Result Vault String :=
  consume processEnvelope v pending

inductive ClientKind where
  | desktop
  | android
  deriving DecidableEq, Repr

/-- The loop body of a client. -/
def iterate : ClientKind → Vault → Pending → Progress Vault String
  | .desktop => SyncMessages.processEnvelope
  | .android => processEnvelope

section Iteration

variable {v w : Vault} {id contactId : String} {o : Outcome} {p : Payload} {b : Bundle}

theorem findOrCreateConversation_sameMail {newId : String} (h : SameMail v w) :
    SameMail v (findOrCreateConversation w contactId newId).1 := by
  rw [h]
  unfold findOrCreateConversation
  split <;> rfl

theorem addContact_keeps {fault : ContactFault} : (addContact v b o fault).Keeps v := by
  unfold addContact
  split
  · exact SameMail.refl v
  split
  · rfl
  split
  · exact putRemote_sameMail saveIdentity_sameMail
  · exact pinContact_sameMail
  · exact findOrCreateConversation_sameMail pinContact_sameMail
  · exact saveIdentity_sameMail

theorem resolveSender_keeps {device : String} : (resolveSender v device o).Keeps v := by
  unfold resolveSender
  split
  · exact SameMail.refl v
  · split
    · exact SameMail.refl v
    · exact SameMail.refl v
    · exact addContact_keeps

theorem applyProfile_delivery : SameDelivery v (applyProfile v contactId p) := by
  unfold applyProfile putProfile
  split
  · exact SameDelivery.refl v
  · dsimp only
    split <;> exact ⟨rfl, rfl, rfl, rfl⟩

theorem markProcessed_fresh (h : markProcessed v id = some w) :
    id ∉ v.seen ∧ w = { v with seen := v.seen ++ [id], processed := v.processed ++ [id] } := by
  unfold markProcessed at h
  split at h
  · cases h
  · next hid =>
    cases h
    exact ⟨fun hseen => hid (.inl hseen), rfl⟩

theorem markProcessed_commit (h : markProcessed v id = some w) : Commit v id w := by
  obtain ⟨hid, rfl⟩ := markProcessed_fresh h
  exact ⟨hid, rfl, .inr rfl, rfl, .inl rfl⟩

theorem commitEnvelope_commit (h : commitEnvelope v contactId id o = some w) :
    Commit v id w := by
  unfold commitEnvelope at h
  split at h
  · cases h
  · next p _ =>
    split at h
    · cases h
    dsimp only at h
    have hnamed : SameDelivery v
        (applyProfile (findOrCreateConversation v contactId o.conversationId).1 contactId p) :=
      (findOrCreateConversation_delivery v contactId o.conversationId).trans applyProfile_delivery
    split at h
    · have hcontrol := hnamed.trans (applyControl_delivery _
        (findOrCreateConversation v contactId o.conversationId).2 p)
      exact Commit.after hcontrol (markProcessed_commit h)
    · split at h
      · cases h
      · next queued hqueued =>
        obtain ⟨hid, rfl⟩ := markProcessed_fresh h
        have hstored := (queueReceipt_delivery hqueued).trans
          (storeAttachment_delivery (o := o) (p := p))
        refine Commit.after hnamed ⟨?_, ?_, .inr ?_, hstored.outbox, .inr ?_⟩
        · rw [hstored.seen] at hid; exact hid
        · exact congrArg (· ++ [id]) hstored.seen
        · exact congrArg (· ++ [id]) hstored.processed
        · exact hstored.received.trans storeMessage_received

theorem transact_iteration (h : SameMail v w) :
    Iteration Vault.processed v (transact id o w contactId) := by
  unfold transact
  split
  · exact .escaped h
  · split
    · next x hx =>
      exact .committed (Commit.after (SameMail.delivery h) (commitEnvelope_commit hx))
    · exact .skipped h

theorem processEnvelope_iteration (v : Vault) (p : Pending) :
    Iteration Vault.processed v (processEnvelope v p) := by
  unfold processEnvelope
  split
  · exact .escaped (SameMail.refl v)
  · exact .escaped (SameMail.refl v)
  · next f =>
    unfold processFields
    split
    · split
      · exact .escaped (SameMail.refl v)
      · dsimp only
        split
        · exact .skipped (SameMail.refl v)
        · split
          · next hid => exact .again hid
          · exact receiveFrom_iteration (fun w c => transact_iteration) resolveSender_keeps
    · exact .escaped (SameMail.refl v)

theorem consumeIncoming_acknowledges_seen {l : List Pending} (hv : ProcessedSeen v) :
    ∀ id ∈ (consumeIncoming v l).emitted, id ∈ (consumeIncoming v l).state.seen :=
  consume_acknowledges processEnvelope_iteration
    (fun v p h => iteration_processedSeen (processEnvelope_iteration v p) h) (fun _ h => h) hv

/-- Either loop knows ids that are seen. -/
theorem iterate_iteration (kind : ClientKind) :
    ∃ known : Vault → List String, (∀ v p, Iteration known v (iterate kind v p)) ∧
      ∀ v, ProcessedSeen v → ∀ id ∈ known v, id ∈ v.seen := by
  cases kind with
  | desktop => exact ⟨Vault.seen, SyncMessages.processEnvelope_iteration, fun _ _ _ h => h⟩
  | android => exact ⟨Vault.processed, processEnvelope_iteration, fun _ h => h⟩

end Iteration

end ConsumeIncoming
