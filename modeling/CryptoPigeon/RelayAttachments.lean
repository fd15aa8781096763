import CryptoPigeon.AttachmentTransfer
import CryptoPigeon.TransitionSystem
import Mathlib.Logic.Function.Basic

/-! # Attachments at the relay

Four routes over two tables. Each query is a transaction of its own: a chunk is first checked
against the row of its blob and then written, and anything may happen in between. The tables are
compared with a store in which an owner's writes are checked as they are made. `log` is history:
the operations in the order in which the database took them. -/
namespace RelayAttachments

open AttachmentTransfer (Part Storage)
open TransitionSystem

/-! ## A store of bounded, owned holdings -/

section Store

variable {δ ι π : Type} [DecidableEq δ] [DecidableEq ι]

structure Holding (δ π : Type) where
  owner : δ
  count : Nat
  parts : Nat → Option π

inductive Op (δ ι π : Type) where
  | create (id : ι) (owner : δ) (count : Nat)
  | put (id : ι) (device : δ) (i : Nat) (part : π)
  | remove (id : ι)

abbrev Holdings (δ ι π : Type) := ι → Option (Holding δ π)

/-- A device may put a part into the holding. -/
def Holding.takes (h : Holding δ π) (device : δ) (i : Nat) : Bool :=
  h.owner == device && decide (i < h.count)

def Holding.put (h : Holding δ π) (i : Nat) (part : π) : Holding δ π :=
  { h with parts := Function.update h.parts i (some part) }

def Op.apply (store : Holdings δ ι π) : Op δ ι π → Holdings δ ι π
  | .create id owner count =>
    Function.update store id (some ((store id).getD ⟨owner, count, fun _ => none⟩))
  | .put id device i part =>
    Function.update store id
      ((store id).map fun h => if h.takes device i then h.put i part else h)
  | .remove id => Function.update store id none

def replay (log : List (Op δ ι π)) : Holdings δ ι π := log.foldl Op.apply fun _ => none

@[simp]
theorem replay_append (log : List (Op δ ι π)) (op : Op δ ι π) :
    replay (log ++ [op]) = op.apply (replay log) := by
  simp [replay]

end Store

/-! ## The tables -/

abbrev Id := List Char

structure Blob where
  ownerDeviceId : String
  chunkCount : Nat
  totalSize : Nat
  deriving DecidableEq, Repr

/-- `attachment_blobs` and `attachment_chunks`, by their keys. -/
structure Tables where
  blobs : Id → Option Blob
  chunks : Id → Nat → Option Part

/-- The request for a chunk whose blob has been looked up. -/
structure Write where
  device : String
  blobId : Id
  chunkIndex : Nat
  part : Part
  deriving DecidableEq, Repr

inductive Answer where
  | ok
  | invalidRequest
  | blobNotFound
  | blobUploadNotOwner
  | invalidAttachmentChunk
  | chunkIndexOutOfBounds
  | internalError
  deriving DecidableEq, Repr

/-- The value of a UUID column. -/
def column (id : Id) : Id := id.map Char.toLower

/-- `INSERT INTO attachment_blobs … ON CONFLICT (blob_id) DO NOTHING` -/
def insertBlob (id : Id) (b : Blob) (t : Tables) : Tables :=
  { t with blobs := Function.update t.blobs id (some ((t.blobs id).getD b)) }

/-- `POST /api/attachments/upload` -/
def upload (device : String) (blobId : Id) (chunkCount totalSize : Nat) (t : Tables) :
    Answer × Tables :=
  if Storage.relay.takesUpload blobId chunkCount totalSize then
    (.ok, insertBlob (column blobId) ⟨device, chunkCount, totalSize⟩ t)
  else (.invalidRequest, t)

/-- `POST /api/attachments/:blobId/chunks` up to its second query. -/
def checkChunk (w : Write) (t : Tables) : Except Answer Unit :=
  if !AttachmentManifests.isUuid w.blobId || !BackupLimits.base64Schema w.part.nonce ||
      !BackupLimits.base64Schema w.part.ciphertext then .error .invalidRequest
  else match t.blobs (column w.blobId) with
    | none => .error .blobNotFound
    | some b =>
      if b.ownerDeviceId ≠ w.device then .error .blobUploadNotOwner
      else if !Storage.relay.takesPart w.part then .error .invalidAttachmentChunk
      else if b.chunkCount ≤ w.chunkIndex then .error .chunkIndexOutOfBounds
      else .ok ()

/-- The second query: `blob_id` must be there still, and a chunk that is there is replaced. -/
def insertChunk (w : Write) (t : Tables) : Answer × Tables :=
  match t.blobs (column w.blobId) with
  | none => (.internalError, t)
  | some _ =>
    let parts := t.chunks (column w.blobId)
    (.ok, ⟨t.blobs, Function.update t.chunks (column w.blobId)
      (Function.update parts w.chunkIndex (some (Storage.relay.kept w.part)))⟩)

/-- `DELETE FROM attachment_blobs`, which takes the chunks along. -/
def deleteBlob (id : Id) (t : Tables) : Tables :=
  ⟨Function.update t.blobs id none, Function.update t.chunks id fun _ => none⟩

/-- `GET /api/attachments/:blobId/chunks/:chunkIndex` -/
def getChunk (blobId : Id) (chunkIndex : Nat) (t : Tables) : Option Part :=
  t.chunks (column blobId) chunkIndex

abbrev StoreOp := Op String Id Part

structure State where
  tables : Tables
  writing : List Write
  log : List StoreOp

inductive Event where
  | upload (device : String) (blobId : Id) (chunkCount totalSize : Nat)
  | check (w : Write)
  | insert (w : Write)
  | abandon (w : Write)
  | delete (blobId : Id)
  deriving DecidableEq, Repr

def Enabled (s : State) : Event → Prop
  | .insert w | .abandon w => w ∈ s.writing
  | _ => True

instance (s : State) (e : Event) : Decidable (Enabled s e) := by
  cases e <;> simp only [Enabled] <;> infer_instance

def putOf (w : Write) : StoreOp :=
  .put (column w.blobId) w.device w.chunkIndex (Storage.relay.kept w.part)

def next (s : State) : Event → State
  | .upload device blobId chunkCount totalSize =>
    let r := upload device blobId chunkCount totalSize s.tables
    { s with tables := r.2
             log := if r.1 = .ok then s.log ++ [.create (column blobId) device chunkCount]
               else s.log }
  | .check w =>
    if (checkChunk w s.tables).isOk then { s with writing := w :: s.writing } else s
  | .insert w =>
    ⟨(insertChunk w s.tables).2, s.writing.erase w, s.log ++ [putOf w]⟩
  | .abandon w => { s with writing := s.writing.erase w }
  | .delete blobId =>
    { s with tables := deleteBlob (column blobId) s.tables
             log := s.log ++ [.remove (column blobId)] }

def Initial (s : State) : Prop :=
  (∀ id, s.tables.blobs id = none) ∧ (∀ id, s.tables.chunks id = fun _ => none) ∧
    s.writing = [] ∧ s.log = []

def system : System State Event := ⟨Initial, Enabled, next⟩

/-- A blob is not made anew while a write that was checked against an earlier one is under way:
senders draw an id for each file. -/
def Careful (s : State) : Event → Prop
  | .upload _ blobId _ _ => s.tables.blobs (column blobId) = none →
      ∀ w ∈ s.writing, column w.blobId ≠ column blobId
  | _ => True

instance (s : State) (e : Event) : Decidable (Careful s e) := by
  cases e <;> simp only [Careful] <;> infer_instance

/-- What the two tables hold under an id. -/
def holding (t : Tables) (id : Id) : Option (Holding String Part) :=
  (t.blobs id).map fun b => ⟨b.ownerDeviceId, b.chunkCount, t.chunks id⟩

/-- A chunk as the relay keeps it. -/
def Shaped (p : Part) : Prop := ∃ q, Storage.relay.takesPart q = true ∧ p = Storage.relay.kept q

structure Invariant (s : State) : Prop where
  stored : holding s.tables = replay s.log
  orphans : ∀ id, s.tables.blobs id = none → s.tables.chunks id = fun _ => none
  bounded : ∀ id b, s.tables.blobs id = some b → b.chunkCount ≤ 400
  within : ∀ id i p, s.tables.chunks id i = some p →
    ∃ b, s.tables.blobs id = some b ∧ i < b.chunkCount ∧ Shaped p
  checked : ∀ w ∈ s.writing, Storage.relay.takesPart w.part = true ∧
    ∀ b, s.tables.blobs (column w.blobId) = some b →
      b.ownerDeviceId = w.device ∧ w.chunkIndex < b.chunkCount

variable {s : State} {t : Tables} {w : Write} {id : Id}

theorem checkChunk_ok (h : (checkChunk w t).isOk = true) :
    ∃ b, t.blobs (column w.blobId) = some b ∧ b.ownerDeviceId = w.device ∧
      w.chunkIndex < b.chunkCount ∧ Storage.relay.takesPart w.part = true := by
  unfold checkChunk at h
  split at h
  · simp [Except.isOk, Except.toBool] at h
  · cases hb : t.blobs (column w.blobId) with
    | none => simp [hb, Except.isOk, Except.toBool] at h
    | some b =>
      by_cases howner : b.ownerDeviceId ≠ w.device
      · simp [hb, howner, Except.isOk, Except.toBool] at h
      · by_cases hpart : Storage.relay.takesPart w.part = true
        · by_cases hindex : b.chunkCount ≤ w.chunkIndex
          · simp [hb, howner, hpart, hindex, Except.isOk, Except.toBool] at h
          · exact ⟨b, rfl, not_not.mp howner, Nat.lt_of_not_le hindex, hpart⟩
        · simp [hb, howner, hpart, Except.isOk, Except.toBool] at h

theorem takesUpload_count {blobId : Id} {chunkCount totalSize : Nat}
    (h : Storage.relay.takesUpload blobId chunkCount totalSize = true) : chunkCount ≤ 400 := by
  simp only [Storage.takesUpload, Bool.and_eq_true, decide_eq_true_eq] at h
  exact h.2.2.1

theorem holding_insertBlob (b : Blob) (horphans : t.blobs id = none → t.chunks id = fun _ => none) :
    holding (insertBlob id b t) =
      (Op.create id b.ownerDeviceId b.chunkCount : StoreOp).apply (holding t) := by
  funext other
  by_cases heq : other = id
  · subst heq
    cases hb : t.blobs other with
    | none => simp [holding, insertBlob, Op.apply, hb, horphans hb]
    | some c => simp [holding, insertBlob, Op.apply, hb]
  · simp [holding, insertBlob, Op.apply, heq]

theorem holding_insertChunk (hchecked : ∀ b, t.blobs (column w.blobId) = some b →
    b.ownerDeviceId = w.device ∧ w.chunkIndex < b.chunkCount) :
    holding (insertChunk w t).2 = (putOf w).apply (holding t) := by
  funext other
  unfold insertChunk putOf
  cases hb : t.blobs (column w.blobId) with
  | none =>
    by_cases heq : other = column w.blobId
    · subst heq
      simp [holding, Op.apply, hb]
    · simp [holding, Op.apply, heq]
  | some b =>
    by_cases heq : other = column w.blobId
    · subst heq
      obtain ⟨howner, hindex⟩ := hchecked b hb
      simp [holding, Op.apply, hb, Holding.takes, Holding.put, howner, hindex]
    · simp [holding, Op.apply, heq]

theorem holding_deleteBlob :
    holding (deleteBlob id t) = (Op.remove id : StoreOp).apply (holding t) := by
  funext other
  by_cases heq : other = id
  · subst heq
    simp [holding, deleteBlob, Op.apply]
  · simp [holding, deleteBlob, Op.apply, heq]

theorem initial_invariant (h : Initial s) : Invariant s := by
  obtain ⟨hblobs, hchunks, hwriting, hlog⟩ := h
  refine ⟨?_, fun id _ => hchunks id, ?_, ?_, by simp [hwriting]⟩
  · funext id
    simp [holding, hblobs, hlog, replay]
  · simp [hblobs]
  · simp [hchunks]

theorem Invariant.uploaded (h : Invariant s) {device : String} {blobId : Id}
    {chunkCount totalSize : Nat}
    (hcareful : Careful s (.upload device blobId chunkCount totalSize)) :
    Invariant (next s (.upload device blobId chunkCount totalSize)) := by
  by_cases htakes : Storage.relay.takesUpload blobId chunkCount totalSize = true
  · simp only [next, upload, htakes, if_true]
    refine ⟨?_, fun id hid => ?_, fun id b hb => ?_, fun id i p hp => ?_, fun w hw => ?_⟩
    · rw [holding_insertBlob _ (h.orphans _), h.stored, replay_append]
    · refine h.orphans id ?_
      by_cases heq : id = column blobId
      · simp [insertBlob, heq] at hid
      · simpa [insertBlob, heq] using hid
    · by_cases heq : id = column blobId
      · subst heq
        cases hold : s.tables.blobs (column blobId) with
        | none =>
          simp only [insertBlob, hold, Function.update_self, Option.getD_none, Option.some.injEq]
            at hb
          exact hb ▸ takesUpload_count htakes
        | some c =>
          simp only [insertBlob, hold, Function.update_self, Option.getD_some, Option.some.injEq]
            at hb
          exact hb ▸ h.bounded _ c hold
      · exact h.bounded id b (by simpa [insertBlob, heq] using hb)
    · obtain ⟨b, hb, hi, hshaped⟩ := h.within id i p hp
      refine ⟨b, ?_, hi, hshaped⟩
      by_cases heq : id = column blobId
      · simp [insertBlob, heq, heq ▸ hb]
      · simpa [insertBlob, heq] using hb
    · obtain ⟨hpart, hrow⟩ := h.checked w hw
      refine ⟨hpart, fun b hb => ?_⟩
      by_cases heq : column w.blobId = column blobId
      · cases hold : s.tables.blobs (column blobId) with
        | none => exact absurd heq (hcareful hold w hw)
        | some c => exact hrow b (by simpa [insertBlob, heq, hold] using hb)
      · exact hrow b (by simpa [insertBlob, heq] using hb)
  · simp only [next, upload, htakes]
    exact h

theorem Invariant.inserted (h : Invariant s) (hw : w ∈ s.writing) :
    Invariant (next s (.insert w)) := by
  obtain ⟨hpart, hrow⟩ := h.checked w hw
  have hblobs : (insertChunk w s.tables).2.blobs = s.tables.blobs := by
    unfold insertChunk
    cases s.tables.blobs (column w.blobId) <;> rfl
  have hchunks : ∀ id i p, (insertChunk w s.tables).2.chunks id i = some p →
      s.tables.chunks id i = some p ∨ (∃ b, s.tables.blobs (column w.blobId) = some b) ∧
        id = column w.blobId ∧ i = w.chunkIndex ∧ p = Storage.relay.kept w.part := by
    intro id i p hp
    unfold insertChunk at hp
    cases hb : s.tables.blobs (column w.blobId) with
    | none => exact .inl (by simpa [hb] using hp)
    | some b =>
      by_cases hid : id = column w.blobId
      · subst hid
        by_cases hi : i = w.chunkIndex
        · subst hi
          exact .inr ⟨⟨b, rfl⟩, rfl, rfl, by simpa [hb, eq_comm] using hp⟩
        · exact .inl (by simpa [hb, hi] using hp)
      · exact .inl (by simpa [hb, hid] using hp)
  refine ⟨?_, fun id hid => ?_, fun id b hb => ?_, fun id i p hp => ?_, fun v hv => ?_⟩
  · simp only [next]
    rw [holding_insertChunk hrow, h.stored, replay_append]
  · simp only [next, hblobs] at hid
    funext i
    by_contra hsome
    obtain ⟨p, hp⟩ := Option.ne_none_iff_exists'.mp hsome
    rcases hchunks id i p hp with hold | ⟨⟨b, hb⟩, heq, -, -⟩
    · simp [h.orphans id hid] at hold
    · rw [heq, hb] at hid
      exact absurd hid (by simp)
  · exact h.bounded id b (by simpa only [next, hblobs] using hb)
  · simp only [next, hblobs]
    rcases hchunks id i p hp with hold | ⟨⟨b, hb⟩, rfl, rfl, rfl⟩
    · exact h.within id i p hold
    · exact ⟨b, hb, (hrow b hb).2, w.part, hpart, rfl⟩
  · simpa only [next, hblobs] using h.checked v (List.mem_of_mem_erase hv)

theorem Invariant.deleted (h : Invariant s) (blobId : Id) :
    Invariant (next s (.delete blobId)) := by
  have hkept : ∀ id b, (deleteBlob (column blobId) s.tables).blobs id = some b →
      id ≠ column blobId ∧ s.tables.blobs id = some b := by
    intro id b hb
    by_cases heq : id = column blobId
    · simp [deleteBlob, heq] at hb
    · exact ⟨heq, by simpa [deleteBlob, heq] using hb⟩
  refine ⟨?_, fun id hid => ?_, fun id b hb => ?_, fun id i p hp => ?_, fun v hv => ?_⟩
  · simp only [next]
    rw [holding_deleteBlob, h.stored, replay_append]
  · by_cases heq : id = column blobId
    · simp [next, deleteBlob, heq]
    · simpa [next, deleteBlob, heq] using h.orphans id (by simpa [next, deleteBlob, heq] using hid)
  · exact h.bounded id b (hkept id b hb).2
  · by_cases heq : id = column blobId
    · simp [next, deleteBlob, heq] at hp
    · simpa [next, deleteBlob, heq] using
        h.within id i p (by simpa [next, deleteBlob, heq] using hp)
  · obtain ⟨hpart, hrow⟩ := h.checked v hv
    exact ⟨hpart, fun b hb => hrow b (hkept _ b hb).2⟩

theorem step_preserves_invariant (s : State) (e : Event) (h : Invariant s)
    (he : Enabled s e ∧ Careful s e) : Invariant (next s e) := by
  cases e with
  | upload device blobId chunkCount totalSize => exact h.uploaded he.2
  | check w =>
    by_cases hok : (checkChunk w s.tables).isOk = true
    · simp only [next, hok, if_true]
      refine { h with checked := fun v hv => ?_ }
      rcases List.mem_cons.mp hv with rfl | hv
      · obtain ⟨b, hb, howner, hindex, hpart⟩ := checkChunk_ok hok
        refine ⟨hpart, fun c hc => ?_⟩
        rw [hb, Option.some.injEq] at hc
        exact hc ▸ ⟨howner, hindex⟩
      · exact h.checked v hv
    · simp only [next, hok]
      exact h
  | insert w => exact h.inserted he.1
  | abandon w => exact { h with checked := fun v hv => h.checked v (List.mem_of_mem_erase hv) }
  | delete blobId => exact h.deleted blobId

/-- What the tables owe to every reader. -/
structure Linear (s : State) : Prop where
  /-- The tables hold what the store holds after the same operations. -/
  stored : ∀ id, holding s.tables id = replay s.log id
  /-- A write is taken at its insert if the store would take it there. -/
  answered : ∀ w ∈ s.writing, (insertChunk w s.tables).1 = .ok ↔
    ∃ h, replay s.log (column w.blobId) = some h ∧ h.takes w.device w.chunkIndex = true
  bounded : ∀ blobId i p, getChunk blobId i s.tables = some p → i < 400 ∧ Shaped p

/-- However the queries of the routes interleave, the tables are the owned store. -/
theorem attachments_linear (h : Reachable (system.Within Careful) s) : Linear s := by
  have hinv : Invariant s :=
    reachable_invariant (fun _ => initial_invariant) step_preserves_invariant h
  refine ⟨fun id => by rw [hinv.stored], fun w hw => ?_, fun blobId i p hp => ?_⟩
  · rw [← hinv.stored]
    unfold insertChunk holding
    cases hb : s.tables.blobs (column w.blobId) with
    | none => simp
    | some b =>
      obtain ⟨howner, hindex⟩ := (hinv.checked w hw).2 b hb
      simp [Holding.takes, howner, hindex]
  · obtain ⟨b, hb, hi, hshaped⟩ := hinv.within (column blobId) i p hp
    exact ⟨lt_of_lt_of_le hi (hinv.bounded _ b hb), hshaped⟩

section Run

def blob : Id := "6f1c1b3e-52a7-4c55-9d0e-1f2a3b4c5d6e".toList

/-- The nonce and the tag of an empty chunk. -/
def part : Part := ⟨List.replicate 16 'A', List.replicate 22 'A' ++ ['=', '=']⟩

def write (i : Nat) : Write := ⟨"alice", blob, i, part⟩

def vacant : State := ⟨⟨fun _ => none, fun _ _ => none⟩, [], []⟩

theorem vacant_initial : Initial vacant := ⟨fun _ => rfl, fun _ => rfl, rfl, rfl⟩

/-- The second write is overtaken by the recipient's deletion. -/
def overtaken : List Event :=
  [.upload "alice" blob 2 70000, .check (write 0), .insert (write 0), .check (write 1),
    .delete blob]

def afterOvertaken : State := (system.Within Careful).replay vacant overtaken

theorem afterOvertaken_reachable : Reachable (system.Within Careful) afterOvertaken := by
  refine valid_trace_reachable (reachable_initial vacant_initial) ?_
  simp only [overtaken, System.Valid, System.Within, system]
  refine ⟨⟨?_, ?_⟩, ⟨?_, ?_⟩, ⟨?_, ?_⟩, ⟨?_, ?_⟩, ⟨?_, ?_⟩, trivial⟩ <;> decide

theorem overtaken_write_refused : write 1 ∈ afterOvertaken.writing ∧
    ¬∃ h, replay afterOvertaken.log (column blob) = some h ∧ h.takes "alice" 1 = true := by
  refine ⟨by decide, fun hstore => ?_⟩
  have hanswered := (attachments_linear afterOvertaken_reachable).answered (write 1) (by decide)
  exact absurd (hanswered.mpr hstore) (by decide)

/-- The id is taken again while the write is under way, by another device for a shorter file. -/
def reused : List Event :=
  [.upload "alice" blob 2 70000, .check (write 1), .delete blob, .upload "bob" blob 1 0,
    .insert (write 1)]

/-- Without `Careful`: a chunk of one device in the blob of another, past its end. -/
theorem stale_write_lands : ∃ s b p, Reachable system s ∧ s.tables.blobs blob = some b ∧
    b.ownerDeviceId = "bob" ∧ getChunk blob b.chunkCount s.tables = some p := by
  refine ⟨system.replay vacant reused, ⟨"bob", 1, 0⟩, part, ?_, by decide, rfl, by decide⟩
  refine valid_trace_reachable (reachable_initial vacant_initial) ?_
  simp only [reused, System.Valid, system]
  refine ⟨?_, ?_, ?_, ?_, ?_, trivial⟩ <;> decide

end Run

end RelayAttachments
