import CryptoPigeon.ConsumeIncoming
import Mathlib.Logic.Relation

/-! # What consuming one envelope writes

Resolving the sender touches contacts, their devices and their conversations only; the
transaction that follows is a sequence of the writes below, on either client. A relation
that every write respects is respected by the whole iteration. -/
namespace EnvelopeWrites

open ConsumingLoop VaultStore SyncMessages ConsumeIncoming

/-- One write of the transaction for envelope `id` with outcome `o`. -/
inductive Write (o : Outcome) (id : String) : Vault → Vault → Prop
  | conversation (v : Vault) (contactId : String) :
      Write o id v (findOrCreateConversation v contactId o.conversationId).1
  | profile (v : Vault) (p : PeerProfile) : Write o id v (putProfile v p)
  | control (v : Vault) (conversation : String) (p : Payload) :
      Write o id v (applyControl v conversation p)
  | message (v : Vault) (conversation : String) (p : Payload) :
      Write o id v (storeMessage v conversation id p o)
  | receipt {v w : Vault} (p : Payload) : queueReceipt v p o = some w → Write o id v w
  | attachment (v : Vault) (p : Payload) : Write o id v (storeAttachment v p o)
  | seen (v : Vault) : Write o id v (markSeen v id)
  | processed {v w : Vault} : markProcessed v id = some w → Write o id v w

/-- The writes of a transaction, in order. -/
abbrev Writes (o : Outcome) (id : String) : Vault → Vault → Prop :=
  Relation.ReflTransGen (Write o id)

variable {v w : Vault} {o : Outcome} {id contactId : String} {p : Payload}

theorem writes_lift {R : Vault → Vault → Prop} (hrefl : ∀ v, R v v)
    (htrans : ∀ {u v w}, R u v → R v w → R u w) (hwrite : ∀ {v w}, Write o id v w → R v w)
    (h : Writes o id v w) : R v w := by
  induction h with
  | refl => exact hrefl v
  | tail _ hlast ih => exact htrans ih (hwrite hlast)

theorem desktop_profile_writes : Writes o id v (SyncMessages.applyProfile v contactId p) := by
  unfold SyncMessages.applyProfile
  split
  · split
    · exact .single (.profile v _)
    · exact .refl
  · exact .refl

theorem android_profile_writes : Writes o id v (ConsumeIncoming.applyProfile v contactId p) := by
  unfold ConsumeIncoming.applyProfile
  split
  · exact .refl
  · dsimp only
    split
    · exact .single (.profile v _)
    · exact .refl

theorem desktop_commit_writes (h : SyncMessages.commitEnvelope v contactId id o = some w) :
    Writes o id v w := by
  unfold SyncMessages.commitEnvelope at h
  split at h
  · cases h
  · next p _ =>
    split at h
    · cases h
    dsimp only at h
    have hnamed : Writes o id v (SyncMessages.applyProfile
        (findOrCreateConversation v contactId o.conversationId).1 contactId p) :=
      (Relation.ReflTransGen.single (.conversation v contactId)).trans desktop_profile_writes
    split at h
    · cases h
      exact (hnamed.tail (.control _ _ p)).tail (.seen _)
    · split at h
      · cases h
      · next queued hqueued =>
        cases h
        exact (((hnamed.tail (.message _ _ p)).tail (.receipt p hqueued)).tail
          (.attachment _ p)).tail (.seen _)

theorem android_commit_writes (h : ConsumeIncoming.commitEnvelope v contactId id o = some w) :
    Writes o id v w := by
  unfold ConsumeIncoming.commitEnvelope at h
  split at h
  · cases h
  · next p _ =>
    split at h
    · cases h
    dsimp only at h
    have hnamed : Writes o id v (ConsumeIncoming.applyProfile
        (findOrCreateConversation v contactId o.conversationId).1 contactId p) :=
      (Relation.ReflTransGen.single (.conversation v contactId)).trans android_profile_writes
    split at h
    · exact (hnamed.tail (.control _ _ p)).tail (.processed h)
    · split at h
      · cases h
      · next queued hqueued =>
        exact (((hnamed.tail (.message _ _ p)).tail (.receipt p hqueued)).tail
          (.attachment _ p)).tail (.processed h)

/-- An iteration resolves a sender and then writes one transaction, either perhaps empty. -/
def Iterated (v w : Vault) : Prop := ∃ u o id, SameMail v u ∧ Writes o id u w

theorem Iterated.of_sameMail (h : SameMail v w) : Iterated v w :=
  ⟨w, ⟨0, .throws, false, none, "", "", none, false, false⟩, "", h, .refl⟩

theorem desktop_transact_iterated (h : SameMail v w) :
    Iterated v (SyncMessages.transact id o w contactId).state := by
  unfold SyncMessages.transact
  split
  · exact .of_sameMail h
  · split
    · next x hx => exact ⟨w, o, id, h, desktop_commit_writes hx⟩
    · split <;> exact .of_sameMail h

theorem android_transact_iterated (h : SameMail v w) :
    Iterated v (ConsumeIncoming.transact id o w contactId).state := by
  unfold ConsumeIncoming.transact
  split
  · exact .of_sameMail h
  · split
    · next x hx => exact ⟨w, o, id, h, android_commit_writes hx⟩
    · exact .of_sameMail h

theorem receiveFrom_iterated {transact : Vault → String → Progress Vault String}
    {sender : Sender} (htransact : ∀ w c, SameMail v w → Iterated v (transact w c).state)
    (h : sender.Keeps v) : Iterated v (receiveFrom transact v sender).state := by
  cases sender with
  | escaped w => exact .of_sameMail h
  | skipped => exact .of_sameMail (SameMail.refl v)
  | known w c =>
    change Iterated v (if identityChanged w c then Progress.next w none else transact w c).state
    split
    · exact .of_sameMail h
    · exact htransact w c h

theorem desktop_iterated (v : Vault) (p : Pending) :
    Iterated v (SyncMessages.processEnvelope v p).state := by
  have hkept : Iterated v v := .of_sameMail (SameMail.refl v)
  unfold SyncMessages.processEnvelope
  split
  · exact hkept
  · exact hkept
  · next f =>
    unfold SyncMessages.processFields
    split
    · exact hkept
    split
    · exact hkept
    · dsimp only
      split
      · exact hkept
      split
      · exact hkept
      split
      · exact hkept
      · exact receiveFrom_iterated (fun w c => desktop_transact_iterated)
          SyncMessages.resolveSender_keeps

theorem android_iterated (v : Vault) (p : Pending) :
    Iterated v (ConsumeIncoming.processEnvelope v p).state := by
  have hkept : Iterated v v := .of_sameMail (SameMail.refl v)
  unfold ConsumeIncoming.processEnvelope
  split
  · exact hkept
  · exact hkept
  · next f =>
    unfold ConsumeIncoming.processFields
    split
    · split
      · exact hkept
      · dsimp only
        split
        · exact hkept
        split
        · exact hkept
        · exact receiveFrom_iterated (fun w c => android_transact_iterated)
            ConsumeIncoming.resolveSender_keeps
    · exact hkept

theorem iterate_iterated (kind : ClientKind) (v : Vault) (p : Pending) :
    Iterated v (iterate kind v p).state := by
  cases kind with
  | desktop => exact desktop_iterated v p
  | android => exact android_iterated v p

/-- What resolving senders and every write respect, an iteration respects. -/
theorem iterated_lift {R : Vault → Vault → Prop} (hrefl : ∀ v, R v v)
    (htrans : ∀ {u v w}, R u v → R v w → R u w) (hmail : ∀ {v w}, SameMail v w → R v w)
    (hwrite : ∀ {o id v w}, Write o id v w → R v w) (h : Iterated v w) : R v w := by
  obtain ⟨u, o, id, hu, hw⟩ := h
  exact htrans (hmail hu) (writes_lift hrefl htrans hwrite hw)

end EnvelopeWrites
