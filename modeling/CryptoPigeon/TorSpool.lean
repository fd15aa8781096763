import Mathlib.Data.List.Basic

/-! # The spool of encrypted chunks

`cleanupTorSpool` of the daemon and the end of Android's `expire`: three statements that remove
blobs without a use, links without an attachment and downloaded chunks without a pending manifest.
Each statement sees what the ones before it have left. The ids of the tables are never null; what
`json_extract` finds in a manifest may be, and a null makes `NOT IN` neither true nor false. Foreign
keys are on. -/
namespace TorSpool

/-- `tor_blobs` -/
structure Blob where
  blobId : String
  chunkCount : Nat
  totalSize : Nat
  createdAt : Int
  deriving DecidableEq, Repr

/-- `tor_chunks` and `tor_download_chunks` -/
structure Chunk where
  blobId : String
  chunkIndex : Nat
  nonce : String
  ciphertext : String
  deriving DecidableEq, Repr

/-- `tor_attachment_links` -/
structure Link where
  attachmentId : String
  blobId : String
  deriving DecidableEq, Repr

/-- `attachment_downloads` -/
structure Download where
  attachmentId : String
  manifest : String
  deriving DecidableEq, Repr

/-- The tables that the statements read; of `attachments` only the ids matter. -/
@[ext] structure Spool where
  blobs : List Blob
  chunks : List Chunk
  links : List Link
  downloadChunks : List Chunk
  attachments : List String
  downloads : List Download
  /-- The primary key of `tor_blobs`. -/
  keyed : ∀ b ∈ blobs, ∀ b' ∈ blobs, b.blobId = b'.blobId → b = b'

/-! ## The statements -/

/-- `x NOT IN (SELECT ..)`, where nothing is null. -/
def notIn {α : Type*} [DecidableEq α] (x : α) (rows : List (Option α)) : Option Bool :=
  if some x ∈ rows then some false else if none ∈ rows then none else some true

/-- The rows of a link in
`tor_attachment_links l LEFT JOIN attachments a ON a.attachment_id = l.attachment_id`. -/
def joined (s : Spool) (l : Link) : List (Link × Option String) :=
  match s.attachments.filter (· == l.attachmentId) with
  | [] => [(l, none)]
  | a :: as => (a :: as).map fun a => (l, some a)

/-- The blobs of the joined rows with `a.attachment_id IS NULL`. -/
def orphans (s : Spool) : List String :=
  ((s.links.flatMap (joined s)).filter fun row => row.2.isNone).map fun row => row.1.blobId

/-- The condition of the first statement. -/
def expired (now : Int) (s : Spool) (b : Blob) : Bool :=
  decide (b.blobId ∈ orphans s) ||
    decide (b.createdAt < now - 86400000) &&
      notIn b.blobId (s.links.map fun l => some l.blobId) == some true

/-- The rows go, and by `ON DELETE CASCADE` the chunks that refer to them. -/
def deleteBlobs (now : Int) (s : Spool) : Spool :=
  { s with
    blobs := s.blobs.filter fun b => !expired now s b
    chunks := s.chunks.filter fun c =>
      !(s.blobs.any fun b => expired now s b && b.blobId == c.blobId)
    keyed := fun b hb b' hb' =>
      s.keyed b (List.mem_of_mem_filter hb) b' (List.mem_of_mem_filter hb') }

def deleteLinks (s : Spool) : Spool :=
  { s with
    links := s.links.filter fun l => !(notIn l.attachmentId (s.attachments.map some) == some true) }

section Statements

-- `json_extract(manifest, '$.blobId')`
variable (extract : String → Option String)

def deleteDownloads (s : Spool) : Spool :=
  { s with
    downloadChunks := s.downloadChunks.filter fun c =>
      !(notIn c.blobId (s.downloads.map fun d => extract d.manifest) == some true) }

def statements (now : Int) (s : Spool) : Spool :=
  deleteDownloads extract (deleteLinks (deleteBlobs now s))

/-- Nothing is done before the tables are there. -/
def cleanupTorSpool (now : Int) : Option Spool → Option Spool := Option.map (statements extract now)

/-- The last three statements of Android's `expire`, whose tables are made with the database. -/
def expire (now : Int) (s : Spool) : Spool := statements extract now s

end Statements

/-! ## What is to go -/

section Purpose

variable (now : Int) (s : Spool) (b : Blob)

/-- Its attachment no longer exists. -/
def Orphaned : Prop := ∃ l ∈ s.links, l.blobId = b.blobId ∧ l.attachmentId ∉ s.attachments

def Linked : Prop := ∃ l ∈ s.links, l.blobId = b.blobId

/-- Without a link, and older than a day. -/
def Stale : Prop := ¬ Linked s b ∧ b.createdAt < now - 86400000

def Doomed : Prop := Orphaned s b ∨ Stale now s b

instance : Decidable (Orphaned s b) :=
  inferInstanceAs (Decidable (∃ l ∈ s.links, l.blobId = b.blobId ∧ l.attachmentId ∉ s.attachments))

instance : Decidable (Linked s b) :=
  inferInstanceAs (Decidable (∃ l ∈ s.links, l.blobId = b.blobId))

instance : Decidable (Stale now s b) := inferInstanceAs (Decidable (_ ∧ _))

instance : Decidable (Doomed now s b) := inferInstanceAs (Decidable (_ ∨ _))

end Purpose

/-- Each blob is linked to at most one attachment. -/
def OneAttachment (s : Spool) : Prop :=
  ∀ l ∈ s.links, ∀ l' ∈ s.links, l.blobId = l'.blobId → l.attachmentId = l'.attachmentId

/-- A manifest that is pending names the blob. -/
def Pending (extract : String → Option String) (s : Spool) (blobId : String) : Prop :=
  ∃ d ∈ s.downloads, extract d.manifest = some blobId

instance (extract : String → Option String) (s : Spool) (blobId : String) :
    Decidable (Pending extract s blobId) :=
  inferInstanceAs (Decidable (∃ d ∈ s.downloads, extract d.manifest = some blobId))

/-- What is left is what is not to go, row by row and in its order. -/
structure Cleaned (extract : String → Option String) (now : Int) (s t : Spool) : Prop where
  blobs : t.blobs = s.blobs.filter fun b => ¬ Doomed now s b
  chunks : t.chunks =
    s.chunks.filter fun c => ∀ b ∈ s.blobs, b.blobId = c.blobId → ¬ Doomed now s b
  links : t.links = s.links.filter fun l => l.attachmentId ∈ s.attachments
  downloadChunks : t.downloadChunks = s.downloadChunks.filter fun c => Pending extract s c.blobId
  attachments : t.attachments = s.attachments
  downloads : t.downloads = s.downloads

/-- A blob is still there, with all its chunks. -/
structure Kept (s t : Spool) (b : Blob) : Prop where
  blob : b ∈ t.blobs
  chunks : ∀ c ∈ s.chunks, c.blobId = b.blobId → c ∈ t.chunks

/-! ## The conditions -/

section Conditions

variable {extract : String → Option String} {now now' : Int} {s t : Spool} {b : Blob}

theorem notIn_true_iff {α : Type*} [DecidableEq α] {x : α} {rows : List (Option α)}
    (h : none ∉ rows) : notIn x rows = some true ↔ some x ∉ rows := by
  unfold notIn
  by_cases hx : some x ∈ rows
  · rw [if_pos hx]
    simp [hx]
  · rw [if_neg hx, if_neg h]
    simp [hx]

theorem some_mem_map {α β : Type*} {f : β → α} {x : α} {l : List β} :
    some x ∈ l.map (fun y => some (f y)) ↔ ∃ y ∈ l, f y = x := by
  simp [List.mem_map]

theorem none_notMem_map {α β : Type*} {f : β → α} {l : List β} :
    none ∉ l.map (fun y => some (f y)) := by
  simp [List.mem_map]

/-- A link has a row without an attachment exactly when there is no such attachment. -/
theorem mem_joined_none {l : Link} {row : Link × Option String} :
    (row ∈ joined s l ∧ row.2 = none) ↔ row = (l, none) ∧ l.attachmentId ∉ s.attachments := by
  unfold joined
  split
  · next hnil =>
    have habsent : l.attachmentId ∉ s.attachments := fun hmem => by
      have := List.filter_eq_nil_iff.mp hnil l.attachmentId hmem
      simp at this
    constructor
    · rintro ⟨hrow, -⟩
      exact ⟨List.mem_singleton.mp hrow, habsent⟩
    · rintro ⟨rfl, -⟩
      exact ⟨List.mem_singleton_self _, rfl⟩
  · next a as hcons =>
    have ha : a ∈ s.attachments.filter (· == l.attachmentId) := by
      rw [hcons]
      exact List.mem_cons_self
    obtain ⟨hmem, heq⟩ := List.mem_filter.mp ha
    constructor
    · rintro ⟨hrow, hnone⟩
      obtain ⟨a', -, rfl⟩ := List.mem_map.mp hrow
      cases hnone
    · rintro ⟨-, habsent⟩
      exact absurd (eq_of_beq heq ▸ hmem) habsent

theorem mem_orphans {blobId : String} :
    blobId ∈ orphans s ↔ ∃ l ∈ s.links, l.blobId = blobId ∧ l.attachmentId ∉ s.attachments := by
  simp only [orphans, List.mem_map, List.mem_filter, List.mem_flatMap, Option.isNone_iff_eq_none]
  constructor
  · rintro ⟨row, ⟨⟨l, hl, hrow⟩, hnone⟩, rfl⟩
    obtain ⟨rfl, habsent⟩ := mem_joined_none.mp ⟨hrow, hnone⟩
    exact ⟨l, hl, rfl, habsent⟩
  · rintro ⟨l, hl, rfl, habsent⟩
    obtain ⟨hrow, hnone⟩ := mem_joined_none.mpr ⟨@rfl _ (l, none), habsent⟩
    exact ⟨(l, none), ⟨⟨l, hl, hrow⟩, hnone⟩, rfl⟩

theorem expired_iff : expired now s b = true ↔ Doomed now s b := by
  have hlinked : notIn b.blobId (s.links.map fun l => some l.blobId) = some true ↔ ¬ Linked s b := by
    rw [notIn_true_iff none_notMem_map, some_mem_map, Linked]
  simp only [expired, Bool.or_eq_true, Bool.and_eq_true, decide_eq_true_eq, beq_iff_eq, hlinked,
    mem_orphans, Doomed, Orphaned, Stale]
  rw [and_comm (a := b.createdAt < now - 86400000)]

theorem live_iff {l : Link} : notIn l.attachmentId (s.attachments.map some) = some true ↔
    l.attachmentId ∉ s.attachments := by
  have hnone : none ∉ s.attachments.map some := by simp
  rw [notIn_true_iff hnone]
  simp

/-- With a blob id in every manifest `NOT IN` has no null to meet. -/
theorem pending_iff (h : ∀ d ∈ s.downloads, (extract d.manifest).isSome) {blobId : String} :
    notIn blobId (s.downloads.map fun d => extract d.manifest) = some true ↔
      ¬ Pending extract s blobId := by
  have hnone : none ∉ s.downloads.map fun d => extract d.manifest := by
    rintro hmem
    obtain ⟨d, hd, hnull⟩ := List.mem_map.mp hmem
    have hsome := h d hd
    rw [hnull] at hsome
    cases hsome
  rw [notIn_true_iff hnone, List.mem_map, Pending]

/-- The statements after the first read none of what it changes. -/
theorem statements_cleaned (h : ∀ d ∈ s.downloads, (extract d.manifest).isSome) :
    Cleaned extract now s (statements extract now s) := by
  constructor
  · refine List.filter_congr fun b _ => ?_
    rw [Bool.eq_iff_iff, Bool.not_eq_true', decide_eq_true_iff, ← expired_iff, Bool.not_eq_true]
  · refine List.filter_congr fun c _ => ?_
    rw [Bool.eq_iff_iff, decide_eq_true_iff]
    simp only [Bool.not_eq_true', List.any_eq_false, Bool.and_eq_true, beq_iff_eq, not_and]
    constructor
    · intro hall b hb hid hdoomed
      exact hall b hb (expired_iff.mpr hdoomed) hid
    · intro hall b hb hexpired hid
      exact hall b hb hid (expired_iff.mp hexpired)
  · refine List.filter_congr fun l _ => ?_
    have hlive := live_iff (s := s) (l := l)
    rw [Bool.eq_iff_iff, Bool.not_eq_true', decide_eq_true_iff, beq_eq_false_iff_ne]
    change notIn l.attachmentId (s.attachments.map some) ≠ some true ↔ _
    rw [ne_eq, hlive, not_not]
  · refine List.filter_congr fun c _ => ?_
    have hpending := @pending_iff extract s h c.blobId
    rw [Bool.eq_iff_iff, Bool.not_eq_true', decide_eq_true_iff, beq_eq_false_iff_ne]
    change notIn c.blobId (s.downloads.map fun d => extract d.manifest) ≠ some true ↔ _
    rw [ne_eq, hpending, not_not]
  · rfl
  · rfl

theorem Cleaned.kept (h : Cleaned extract now s t) (hb : b ∈ s.blobs) (hd : ¬ Doomed now s b) :
    Kept s t b := by
  constructor
  · rw [h.blobs]
    exact List.mem_filter.mpr ⟨hb, decide_eq_true hd⟩
  · intro c hc hid
    rw [h.chunks]
    refine List.mem_filter.mpr ⟨hc, decide_eq_true ?_⟩
    intro b' hb' hid'
    rw [s.keyed b' hb' b hb (hid'.trans hid)]
    exact hd

/-- Where a blob has one attachment, that it exists is enough. -/
theorem not_doomed_of_attached (hone : OneAttachment s) {l : Link} (hl : l ∈ s.links)
    (hid : l.blobId = b.blobId) (ha : l.attachmentId ∈ s.attachments) : ¬ Doomed now s b := by
  rintro (⟨l', hl', hid', habsent⟩ | ⟨hfree, -⟩)
  · rw [hone l' hl' l hl (hid'.trans hid.symm)] at habsent
    exact habsent ha
  · exact hfree ⟨l, hl, hid⟩

theorem not_doomed_of_fresh (hfree : ¬ Linked s b) (hnew : now - 86400000 ≤ b.createdAt) :
    ¬ Doomed now s b := by
  rintro (⟨l, hl, hid, -⟩ | ⟨-, hold⟩)
  · exact hfree ⟨l, hl, hid⟩
  · omega

/-! ## Twice -/

theorem Doomed.later (hle : now ≤ now') (h : Doomed now s b) : Doomed now' s b := by
  rcases h with horphaned | ⟨hfree, hold⟩
  · exact .inl horphaned
  · exact .inr ⟨hfree, by omega⟩

/-- A blob that has been left is judged as before. -/
theorem doomed_again (h : Cleaned extract now s t) (hb : ¬ Doomed now s b) :
    Doomed now' t b ↔ Doomed now' s b := by
  have hlive : ∀ l, l ∈ t.links ↔ l ∈ s.links ∧ l.attachmentId ∈ s.attachments := by
    intro l
    rw [h.links, List.mem_filter, decide_eq_true_iff]
  have horphaned : ¬ Orphaned s b := fun ho => hb (.inl ho)
  have hlinked : Linked t b ↔ Linked s b := by
    constructor
    · rintro ⟨l, hl, hid⟩
      exact ⟨l, ((hlive l).mp hl).1, hid⟩
    · rintro ⟨l, hl, hid⟩
      refine ⟨l, (hlive l).mpr ⟨hl, ?_⟩, hid⟩
      by_contra habsent
      exact horphaned ⟨l, hl, hid, habsent⟩
  have horphaned' : ¬ Orphaned t b := by
    rintro ⟨l, hl, -, habsent⟩
    rw [h.attachments] at habsent
    exact habsent ((hlive l).mp hl).2
  simp only [Doomed, Stale, horphaned, horphaned', false_or, hlinked]

theorem Cleaned.twice {u : Spool} (h : Cleaned extract now s t) (h' : Cleaned extract now' t u)
    (hle : now ≤ now') : Cleaned extract now' s u := by
  have hmem : ∀ b, b ∈ t.blobs ↔ b ∈ s.blobs ∧ ¬ Doomed now s b := by
    intro b
    rw [h.blobs, List.mem_filter, decide_eq_true_iff]
  have hkept {b : Blob} (hb : ¬ Doomed now' s b) : ¬ Doomed now s b := fun hd => hb (hd.later hle)
  constructor
  · rw [h'.blobs, h.blobs, List.filter_filter]
    refine List.filter_congr fun b _ => ?_
    rw [Bool.eq_iff_iff, Bool.and_eq_true, decide_eq_true_iff, decide_eq_true_iff,
      decide_eq_true_iff]
    constructor
    · rintro ⟨hagain, hfirst⟩
      exact fun hd => hagain ((doomed_again h hfirst).mpr hd)
    · intro hb
      exact ⟨fun hd => hb ((doomed_again h (hkept hb)).mp hd), hkept hb⟩
  · rw [h'.chunks, h.chunks, List.filter_filter]
    refine List.filter_congr fun c _ => ?_
    rw [Bool.eq_iff_iff, Bool.and_eq_true, decide_eq_true_iff, decide_eq_true_iff,
      decide_eq_true_iff]
    constructor
    · rintro ⟨hagain, hfirst⟩ b hb hid hd
      have hleft := hfirst b hb hid
      exact hagain b ((hmem b).mpr ⟨hb, hleft⟩) hid ((doomed_again h hleft).mpr hd)
    · intro hall
      refine ⟨fun b hb hid hd => ?_, fun b hb hid => hkept (hall b hb hid)⟩
      obtain ⟨hb, hleft⟩ := (hmem b).mp hb
      exact hall b hb hid ((doomed_again h hleft).mp hd)
  · rw [h'.links, h.links, List.filter_filter]
    refine List.filter_congr fun l _ => ?_
    rw [h.attachments, Bool.and_self]
  · rw [h'.downloadChunks, h.downloadChunks, List.filter_filter]
    refine List.filter_congr fun c _ => ?_
    simp only [Pending, h.downloads]
    exact Bool.and_self _
  · rw [h'.attachments, h.attachments]
  · rw [h'.downloads, h.downloads]

theorem Cleaned.unique {u : Spool} (h : Cleaned extract now s t) (h' : Cleaned extract now s u) :
    t = u := by
  apply Spool.ext
  · rw [h.blobs, h'.blobs]
  · rw [h.chunks, h'.chunks]
  · rw [h.links, h'.links]
  · rw [h.downloadChunks, h'.downloadChunks]
  · rw [h.attachments, h'.attachments]
  · rw [h.downloads, h'.downloads]

end Conditions

/-- The cleanup removes exactly what is to go, on both clients: nothing that an attachment uses, no
fresh upload; and a second cleanup, at the same time or later, does what it would have done alone. -/
theorem cleanup_exact (extract : String → Option String) (now : Int) {s : Spool}
    (hone : OneAttachment s) (hmanifests : ∀ d ∈ s.downloads, (extract d.manifest).isSome) :
    ∃ t, cleanupTorSpool extract now (some s) = some t ∧ expire extract now s = t ∧
      Cleaned extract now s t ∧
      (∀ b ∈ s.blobs, ∀ l ∈ s.links, l.blobId = b.blobId → l.attachmentId ∈ s.attachments →
        l ∈ t.links ∧ Kept s t b) ∧
      (∀ b ∈ s.blobs, ¬ Linked s b → now - 86400000 ≤ b.createdAt → Kept s t b) ∧
      ∀ now', now ≤ now' →
        cleanupTorSpool extract now' (some t) = cleanupTorSpool extract now' (some s) := by
  have hclean : Cleaned extract now s (statements extract now s) := statements_cleaned hmanifests
  refine ⟨statements extract now s, rfl, rfl, hclean, ?_, ?_, ?_⟩
  · intro b hb l hl hid ha
    refine ⟨?_, hclean.kept hb (not_doomed_of_attached hone hl hid ha)⟩
    rw [hclean.links]
    exact List.mem_filter.mpr ⟨hl, decide_eq_true ha⟩
  · intro b hb hfree hnew
    exact hclean.kept hb (not_doomed_of_fresh hfree hnew)
  · intro now' hle
    have hleft : ∀ d ∈ (statements extract now s).downloads, (extract d.manifest).isSome := by
      rw [hclean.downloads]
      exact hmanifests
    have hagain : Cleaned extract now' (statements extract now s)
        (statements extract now' (statements extract now s)) := statements_cleaned hleft
    have halone : Cleaned extract now' s (statements extract now' s) :=
      statements_cleaned hmanifests
    exact congrArg some ((hclean.twice hagain hle).unique halone)

/-- A blob of a deleted attachment, one in use, an old upload and a fresh one. -/
def crowded : Spool where
  blobs := [⟨"gone", 1, 9, 0⟩, ⟨"used", 1, 9, 0⟩, ⟨"old", 1, 9, 0⟩, ⟨"fresh", 1, 9, 86400001⟩]
  chunks := [⟨"gone", 0, "n", "c"⟩, ⟨"used", 0, "n", "c"⟩]
  links := [⟨"a", "gone"⟩, ⟨"b", "used"⟩]
  downloadChunks := [⟨"done", 0, "n", "c"⟩, ⟨"next", 0, "n", "c"⟩]
  attachments := ["b"]
  downloads := [⟨"b", "\x7b\"blobId\":\"next\"\x7d"⟩]
  keyed := by decide

/-- What SQLite finds in the manifest of `crowded`. -/
def extracted (manifest : String) : Option String :=
  if manifest = "\x7b\"blobId\":\"next\"\x7d" then some "next" else none

theorem crowded_cleaned : ∃ t, cleanupTorSpool extracted 90000000 (some crowded) = some t ∧
    Cleaned extracted 90000000 crowded t ∧
    t.blobs.map Blob.blobId = ["used", "fresh"] ∧
    cleanupTorSpool extracted 90000000 (some t) = some t := by
  have hone : OneAttachment crowded := by
    unfold OneAttachment
    decide
  obtain ⟨t, ht, -, hclean, -, -, hagain⟩ :=
    cleanup_exact extracted 90000000 hone (by decide)
  refine ⟨t, ht, hclean, ?_, (hagain _ (Int.le_refl _)).trans ht⟩
  rw [hclean.blobs]
  decide

end TorSpool
