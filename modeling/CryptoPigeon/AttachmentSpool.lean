import CryptoPigeon.TorRouting
import CryptoPigeon.TransitionSystem

/-! # Where the chunks of an attachment are kept

An attachment is uploaded to the spool or to the relay, by the mode at that time. The route
of its envelope is chosen later: a plain pass, a Tor job, or a job's prepared fallback, which
uploads the spooled chunks first. One sender's tables and its blobs at the relay are modelled;
`uploads`, `finished`, `sent`, `delivered` and `reuploaded` are history. -/
namespace AttachmentSpool

open TransitionSystem
open TorRouting (Mode)
open VaultStore (OutboxRow Attachment)

inductive Client where
  | desktop
  | android
  deriving DecidableEq, Repr

inductive Transport where
  | tor
  | relay
  deriving DecidableEq, Repr

/-- One encrypted chunk. -/
structure Part where
  nonce : String
  ciphertext : String
  deriving DecidableEq, Repr

/-- What one run of `encryptAndUploadAttachment` makes: the ids and the chunks of its
manifest. `spooled` tells a Tor mode from `RELAY_ONLY` at that time. -/
structure Upload where
  attachmentId : String
  blobId : String
  parts : List Part
  spooled : Bool
  deriving DecidableEq, Repr

structure BlobRow where
  blobId : String
  chunkCount : Nat
  createdAt : Nat
  deriving DecidableEq, Repr

structure ChunkRow where
  blobId : String
  chunkIndex : Nat
  part : Part
  deriving DecidableEq, Repr

/-- `tor_blobs` and `tor_chunks`, or `attachment_blobs` and `attachment_chunks`. -/
structure Place where
  blobs : List BlobRow
  chunks : List ChunkRow
  deriving DecidableEq, Repr

inductive Request where
  | upload (blobId : String) (chunkCount : Nat)
  | chunk (row : ChunkRow)
  deriving DecidableEq, Repr

def hasBlob (p : Place) (id : String) : Bool := p.blobs.any (fun b => b.blobId == id)

def sameChunk (row other : ChunkRow) : Bool :=
  other.blobId == row.blobId && other.chunkIndex == row.chunkIndex

/-- Both upload endpoints: the spool refuses a key that is there, the relay keeps the blob row
and overwrites the chunk. -/
def handle (overwrites : Bool) (now : Nat) (p : Place) : Request → Option Place
  | .upload id n =>
    if hasBlob p id then if overwrites then some p else none
    else some { p with blobs := p.blobs ++ [⟨id, n, now⟩] }
  | .chunk row =>
    match p.blobs.find? (fun b => b.blobId == row.blobId) with
    | none => none
    | some b =>
      if row.chunkIndex < b.chunkCount ∧ (overwrites = true ∨ p.chunks.any (sameChunk row) = false)
      then some { p with chunks := p.chunks.filter (fun c => !sameChunk row c) ++ [row] }
      else none

def handleSpool : Nat → Place → Request → Option Place := handle false

def handleRelay : Nat → Place → Request → Option Place := handle true

def handleAll (overwrites : Bool) (now : Nat) (p : Place) : List Request → Option Place
  | [] => some p
  | r :: rest => (handle overwrites now p r).bind (handleAll overwrites now · rest)

/-- The blob's metadata, then its chunks in order. -/
def uploadRequests (u : Upload) : List Request :=
  .upload u.blobId u.parts.length ::
    u.parts.zipIdx.map (fun x => .chunk ⟨u.blobId, x.2, x.1⟩)

structure Link where
  attachmentId : String
  blobId : String
  deriving DecidableEq, Repr

/-- A delivery that runs outside the serialized section, with the fallback requests that are
left to send and the blobs they carry. -/
structure Job where
  row : OutboxRow
  requests : Option (List Request)
  blobs : List String
  accepted : Bool
  deriving DecidableEq, Repr

structure State where
  mode : Mode
  spool : Place
  relay : Place
  links : List Link
  attachments : List Attachment
  outbox : List OutboxRow
  jobs : List Job
  uploads : List Upload
  finished : List Upload
  sent : List OutboxRow
  delivered : List String
  reuploaded : List String
  deriving DecidableEq, Repr

/-- The query of `prepareRelay`: blobs linked to an attachment of the envelope's message. -/
def linkedBlobs (s : State) (envelopeId : String) : List BlobRow :=
  s.spool.blobs.filter fun b => s.links.any fun l => l.blobId == b.blobId &&
    s.attachments.any fun a => a.attachmentId == l.attachmentId &&
      s.outbox.any fun o => o.messageId == a.messageId && o.envelopeId == envelopeId

/-- `ORDER BY chunk_index`. -/
def chunksOf (p : Place) (blobId : String) : List ChunkRow :=
  (p.chunks.filter (fun c => c.blobId == blobId)).insertionSort
    (fun c d => c.chunkIndex ≤ d.chunkIndex)

/-- The uploads that go before the envelope; `none` is `CHUNKS_INCOMPLETE`. -/
def prepareRelay (s : State) (envelopeId : String) : Option (List Request) :=
  if (linkedBlobs s envelopeId).any
      (fun b => (chunksOf s.spool b.blobId).length != b.chunkCount) then none
  else some ((linkedBlobs s envelopeId).flatMap fun b =>
    .upload b.blobId b.chunkCount :: (chunksOf s.spool b.blobId).map .chunk)

/-- The blob of a link whose attachment is gone, or a blob that nothing has linked for a day. -/
def doomed (s : State) (now : Nat) (b : BlobRow) : Bool :=
  s.links.any (fun l => l.blobId == b.blobId &&
    !s.attachments.any (fun a => a.attachmentId == l.attachmentId)) ||
  (decide (b.createdAt + 86400000 < now) && !s.links.any (fun l => l.blobId == b.blobId))

def cleanupTorSpool (now : Nat) (s : State) : State :=
  { s with
    spool := {
      blobs := s.spool.blobs.filter (fun b => !doomed s now b)
      chunks := s.spool.chunks.filter (fun c =>
        s.spool.blobs.any (fun b => b.blobId == c.blobId && !doomed s now b)) }
    links := s.links.filter (fun l => s.attachments.any (fun a => a.attachmentId == l.attachmentId)) }

def Place.delete (p : Place) (blobId : String) : Place where
  blobs := p.blobs.filter (fun b => b.blobId != blobId)
  chunks := p.chunks.filter (fun c => c.blobId != blobId)

/-- `INSERT OR REPLACE INTO tor_attachment_links`. -/
def putLink (links : List Link) (l : Link) : List Link :=
  links.filter (fun k => k.attachmentId != l.attachmentId) ++ [l]

inductive Event where
  | config (mode : Mode)
  | upload (u : Upload) (requests : Nat) (returned : Bool) (now : Nat) (stored : Place)
  | send (u : Upload) (a : Attachment) (row : OutboxRow) (committed : Bool)
  | expire (messageId : String)
  | cleanup (now : Nat)
  | flush (row : OutboxRow) (responded : Bool)
  | start (row : OutboxRow)
  | deliver (j : Job) (responded : Bool)
  | prepare (j : Job) (requests : List Request)
  | post (j : Job) (r : Request) (rest : List Request) (stored : Place) (now : Nat)
  | postEnvelope (j : Job) (responded : Bool)
  | complete (j : Job)
  | stop (j : Job)
  | deleteBlob (blobId : String)
  deriving DecidableEq, Repr

def dropEnvelope (id : String) (outbox : List OutboxRow) : List OutboxRow :=
  outbox.filter (fun o => o.envelopeId != id)

def replaceJob (j : Job) (jobs : List Job) : List Job :=
  jobs.map fun k => if k.row.envelopeId = j.row.envelopeId then j else k

def dropJob (j : Job) (jobs : List Job) : List Job :=
  jobs.filter (fun k => k.row.envelopeId != j.row.envelopeId)

/-- The desktop links before its transaction and in every mode, Android in the transaction and
in a Tor mode. -/
def sendMessage (client : Client) (u : Upload) (a : Attachment) (row : OutboxRow)
    (committed : Bool) (s : State) : State :=
  let links := match client with
    | .desktop => putLink s.links ⟨u.attachmentId, u.blobId⟩
    | .android => if committed ∧ s.mode ≠ .relayOnly then
        putLink s.links ⟨u.attachmentId, u.blobId⟩ else s.links
  if committed then
    { s with
      links := links
      attachments := s.attachments ++ [a]
      outbox := s.outbox ++ [row]
      sent := s.sent ++ [row] }
  else { s with links := links }

def next (client : Client) (s : State) : Event → State
  | .config mode => { s with mode := mode }
  | .upload u _ returned _ stored =>
    { s with
      spool := if u.spooled then stored else s.spool
      relay := if u.spooled then s.relay else stored
      uploads := s.uploads ++ [u]
      finished := if returned then s.finished ++ [u] else s.finished }
  | .send u a row committed => sendMessage client u a row committed s
  | .expire messageId =>
    { s with
      attachments := s.attachments.filter (fun a => a.messageId != messageId)
      outbox := s.outbox.filter (fun o => o.messageId != messageId) }
  | .cleanup now => cleanupTorSpool now s
  | .flush row responded =>
    if responded then { s with outbox := dropEnvelope row.envelopeId s.outbox } else s
  | .start row => { s with jobs := s.jobs ++ [⟨row, none, [], false⟩] }
  | .deliver j responded =>
    { s with
      delivered := s.delivered ++ [j.row.messageId]
      jobs := if responded then replaceJob { j with accepted := true } s.jobs else s.jobs }
  | .prepare j requests =>
    { s with jobs := replaceJob { j with
        requests := some requests
        blobs := (linkedBlobs s j.row.envelopeId).map BlobRow.blobId } s.jobs }
  | .post j _ rest stored _ =>
    { s with
      relay := stored
      reuploaded := if rest = [] then s.reuploaded ++ j.blobs else s.reuploaded
      jobs := replaceJob { j with requests := some rest } s.jobs }
  | .postEnvelope j responded =>
    if responded then { s with jobs := replaceJob { j with accepted := true } s.jobs } else s
  | .complete j =>
    { s with outbox := dropEnvelope j.row.envelopeId s.outbox, jobs := dropJob j s.jobs }
  | .stop j => { s with jobs := dropJob j s.jobs }
  | .deleteBlob id =>
    { s with
      relay := s.relay.delete id
      reuploaded := s.reuploaded.filter (fun b => b != id) }

/-- Ids are random. An upload may stop after any of its requests; its manifest is returned
only when all have been answered. A message can carry what an upload returned. Jobs of the
fallback send their requests in order and stop at the first refusal. -/
def Enabled (s : State) : Event → Prop
  | .config _ | .expire _ | .cleanup _ | .deleteBlob _ => True
  | .upload u requests returned now stored =>
    (∀ v ∈ s.uploads, v.blobId ≠ u.blobId ∧ v.attachmentId ≠ u.attachmentId) ∧
      u.spooled = decide (s.mode ≠ .relayOnly) ∧
      handleAll (!u.spooled) now (if u.spooled then s.spool else s.relay)
        ((uploadRequests u).take requests) = some stored ∧
      (returned = true → (uploadRequests u).length ≤ requests)
  | .send u a row committed =>
    u ∈ s.finished ∧ a.attachmentId = u.attachmentId ∧ a.messageId = row.messageId ∧
      (∀ o ∈ s.sent, o.envelopeId ≠ row.envelopeId ∧ o.messageId ≠ row.messageId) ∧
      (committed = true → ∀ b ∈ s.attachments, b.attachmentId ≠ a.attachmentId)
  | .flush row _ => row ∈ s.outbox ∧ s.mode = .relayOnly
  | .start row =>
    row ∈ s.outbox ∧ s.mode ≠ .relayOnly ∧ ∀ j ∈ s.jobs, j.row.envelopeId ≠ row.envelopeId
  | .deliver j _ => j ∈ s.jobs ∧ j.requests = none ∧ j.accepted = false
  | .prepare j requests =>
    j ∈ s.jobs ∧ j.requests = none ∧ j.accepted = false ∧ s.mode = .hybrid ∧
      prepareRelay s j.row.envelopeId = some requests
  | .post j r rest stored now =>
    j ∈ s.jobs ∧ j.requests = some (r :: rest) ∧ handleRelay now s.relay r = some stored
  | .postEnvelope j _ => j ∈ s.jobs ∧ j.requests = some [] ∧ j.accepted = false
  | .complete j => j ∈ s.jobs ∧ j.accepted = true
  | .stop j => j ∈ s.jobs

def start : State := ⟨.direct, ⟨[], []⟩, ⟨[], []⟩, [], [], [], [], [], [], [], [], []⟩

def system (client : Client) : System State Event where
  Initial s := s = start
  Enabled := Enabled
  next := next client

/-- The message is still in the vault and has the attachment. -/
def Carries (s : State) (messageId : String) (u : Upload) : Prop :=
  u ∈ s.finished ∧ ∃ a ∈ s.attachments, a.messageId = messageId ∧ a.attachmentId = u.attachmentId

/-- Every chunk with its nonce and its bytes. -/
def Whole (p : Place) (u : Upload) : Prop :=
  (∃ b ∈ p.blobs, b.blobId = u.blobId ∧ b.chunkCount = u.parts.length) ∧
    ∀ i part, u.parts[i]? = some part → ⟨u.blobId, i, part⟩ ∈ p.chunks

/-- Where the recipient looks: the spool by a link of the attachment, or the relay. -/
def Available (s : State) : Transport → Upload → Prop
  | .tor, u => Whole s.spool u ∧ ⟨u.attachmentId, u.blobId⟩ ∈ s.links
  | .relay, u => Whole s.relay u

/-- The steps in which a transport takes the envelope of a message. -/
def accepts : Event → Option (Transport × String)
  | .flush row _ => some (.relay, row.messageId)
  | .deliver j _ => some (.tor, j.row.messageId)
  | .postEnvelope j _ => some (.relay, j.row.messageId)
  | _ => none

/-- The envelope may still be taken. -/
def Pending (s : State) (messageId : String) : Prop :=
  (∃ o ∈ s.outbox, o.messageId = messageId) ∨ ∃ j ∈ s.jobs, j.row.messageId = messageId

def placeOf (s : State) (u : Upload) : Place := if u.spooled then s.spool else s.relay

/-- The steps that keep an attachment with its envelope. A plain pass sends what was uploaded
to the relay, at first or by a fallback; a job's peer takes what was spooled; a message is sent
while its blob is where it was uploaded, on Android a spooled one in a Tor mode; a blob is
deleted at the relay once no pass or job has its envelope. -/
def Kept (client : Client) (s : State) : Event → Prop
  | .send u _ _ _ =>
    hasBlob (placeOf s u) u.blobId = true ∧
      (client = .android → u.spooled = true → s.mode ≠ .relayOnly)
  | .flush row _ =>
    ∀ u, Carries s row.messageId u → u.spooled = false ∨ u.blobId ∈ s.reuploaded
  | .deliver j _ => ∀ u, Carries s j.row.messageId u → u.spooled = true
  | .deleteBlob id =>
    (∀ m u, Pending s m → Carries s m u → u.blobId ≠ id) ∧ ∀ j ∈ s.jobs, id ∉ j.blobs
  | _ => True

/-- The rows of a place are rows of the uploads. -/
structure Genuine (uploads : List Upload) (p : Place) : Prop where
  blobs : ∀ b ∈ p.blobs, ∃ u ∈ uploads, u.blobId = b.blobId ∧ u.parts.length = b.chunkCount
  chunks : ∀ c ∈ p.chunks, ∃ u ∈ uploads, u.blobId = c.blobId ∧ u.parts[c.chunkIndex]? = some c.part

def GenuineRequest (uploads : List Upload) : Request → Prop
  | .upload id n => ∃ u ∈ uploads, u.blobId = id ∧ u.parts.length = n
  | .chunk c => ∃ u ∈ uploads, u.blobId = c.blobId ∧ u.parts[c.chunkIndex]? = some c.part

def Distinct (uploads : List Upload) : Prop :=
  ∀ u ∈ uploads, ∀ v ∈ uploads, (u.blobId = v.blobId → u = v) ∧
    (u.attachmentId = v.attachmentId → u = v)

/-- Nothing of `p` is missing in `q`. -/
structure Extends (p q : Place) : Prop where
  blobs : p.blobs ⊆ q.blobs
  chunks : p.chunks ⊆ q.chunks

/-- What is not stored of the upload is still among the requests. -/
structure Left (requests : List Request) (p : Place) (u : Upload) : Prop where
  blob : (∃ b ∈ p.blobs, b.blobId = u.blobId ∧ b.chunkCount = u.parts.length) ∨
    .upload u.blobId u.parts.length ∈ requests
  chunks : ∀ i part, u.parts[i]? = some part →
    ⟨u.blobId, i, part⟩ ∈ p.chunks ∨ .chunk ⟨u.blobId, i, part⟩ ∈ requests

section Places

variable {uploads more : List Upload} {p q : Place} {u : Upload} {r : Request} {now : Nat}
  {overwrites : Bool} {rest : List Request} {id : String}

theorem hasBlob_iff : hasBlob p id = true ↔ ∃ b ∈ p.blobs, b.blobId = id := by
  simp [hasBlob]

theorem Extends.refl (p : Place) : Extends p p := ⟨fun _ h => h, fun _ h => h⟩

theorem Extends.trans {o : Place} (h : Extends o p) (k : Extends p q) : Extends o q :=
  ⟨fun _ hb => k.blobs (h.blobs hb), fun _ hc => k.chunks (h.chunks hc)⟩

theorem Extends.hasBlob (h : Extends p q) (hid : hasBlob p id = true) : hasBlob q id = true := by
  obtain ⟨b, hb, hid⟩ := hasBlob_iff.mp hid
  exact hasBlob_iff.mpr ⟨b, h.blobs hb, hid⟩

theorem Whole.mono (h : Whole p u) (he : Extends p q) : Whole q u := by
  obtain ⟨⟨b, hb, hid⟩, hc⟩ := h
  exact ⟨⟨b, he.blobs hb, hid⟩, fun i part hp => he.chunks (hc i part hp)⟩

theorem Left.mono (h : Left rest p u) (he : Extends p q) : Left rest q u where
  blob := h.blob.imp_left fun ⟨b, hb, hid⟩ => ⟨b, he.blobs hb, hid⟩
  chunks i part hp := (h.chunks i part hp).imp_left fun hc => he.chunks hc

theorem Whole.left (h : Whole p u) (rest : List Request) : Left rest p u :=
  ⟨.inl h.1, fun i part hp => .inl (h.2 i part hp)⟩

theorem Left.whole (h : Left [] p u) : Whole p u :=
  ⟨h.blob.resolve_right List.not_mem_nil,
    fun i part hp => (h.chunks i part hp).resolve_right List.not_mem_nil⟩

theorem Genuine.mono (h : Genuine uploads p) (hm : uploads ⊆ more) : Genuine more p where
  blobs b hb := let ⟨u, hu, hid⟩ := h.blobs b hb; ⟨u, hm hu, hid⟩
  chunks c hc := let ⟨u, hu, hid⟩ := h.chunks c hc; ⟨u, hm hu, hid⟩

theorem GenuineRequest.mono (h : GenuineRequest uploads r) (hm : uploads ⊆ more) :
    GenuineRequest more r := by
  cases r with
  | upload id n => exact let ⟨u, hu, hid⟩ := h; ⟨u, hm hu, hid⟩
  | chunk c => exact let ⟨u, hu, hid⟩ := h; ⟨u, hm hu, hid⟩

/-- The metadata is there already, or is added. -/
theorem handle_upload {n : Nat} (h : handle overwrites now p (.upload id n) = some q) :
    (hasBlob p id = true ∧ q = p) ∨ q = { p with blobs := p.blobs ++ [⟨id, n, now⟩] } := by
  simp only [handle] at h
  split at h
  · next hhas =>
    split at h
    · exact .inl ⟨hhas, (Option.some.inj h).symm⟩
    · cases h
  · exact .inr (Option.some.inj h).symm

/-- The chunk takes the place of the one with its index. -/
theorem handle_chunk {row : ChunkRow} (h : handle overwrites now p (.chunk row) = some q) :
    q = { p with chunks := p.chunks.filter (fun c => !sameChunk row c) ++ [row] } := by
  simp only [handle] at h
  split at h
  · cases h
  · split at h
    · exact (Option.some.inj h).symm
    · cases h

theorem Distinct.snoc (h : Distinct uploads)
    (hfresh : ∀ v ∈ uploads, v.blobId ≠ u.blobId ∧ v.attachmentId ≠ u.attachmentId) :
    Distinct (uploads ++ [u]) := by
  intro v hv w hw
  rcases List.mem_append.mp hv with hv | hv <;> rcases List.mem_append.mp hw with hw | hw
  · exact h v hv w hw
  · rw [List.mem_singleton.mp hw]
    exact ⟨fun he => absurd he (hfresh v hv).1, fun he => absurd he (hfresh v hv).2⟩
  · rw [List.mem_singleton.mp hv]
    exact ⟨fun he => absurd he.symm (hfresh w hw).1, fun he => absurd he.symm (hfresh w hw).2⟩
  · rw [List.mem_singleton.mp hv, List.mem_singleton.mp hw]
    exact ⟨fun _ => rfl, fun _ => rfl⟩

/-- What one request changes. -/
theorem handle_spec (hd : Distinct uploads) (hp : Genuine uploads p)
    (hr : GenuineRequest uploads r) (h : handle overwrites now p r = some q) :
    Extends p q ∧ Genuine uploads q ∧
      (∀ b ∈ q.blobs, b ∈ p.blobs ∨ ∃ n, r = .upload b.blobId n) := by
  cases r with
  | upload id n =>
    obtain ⟨v, hv, rfl, rfl⟩ := hr
    rcases handle_upload h with ⟨-, rfl⟩ | rfl
    · exact ⟨.refl _, hp, fun b hb => .inl hb⟩
    · refine ⟨⟨fun b hb => List.mem_append_left _ hb, fun _ hc => hc⟩, ⟨?_, hp.chunks⟩, ?_⟩
      · intro b hb
        rcases List.mem_append.mp hb with hb | hb
        · exact hp.blobs b hb
        · obtain rfl := List.mem_singleton.mp hb
          exact ⟨v, hv, rfl, rfl⟩
      · intro b hb
        rcases List.mem_append.mp hb with hb | hb
        · exact .inl hb
        · obtain rfl := List.mem_singleton.mp hb
          exact .inr ⟨_, rfl⟩
  | chunk row =>
    obtain rfl := handle_chunk h
    refine ⟨⟨fun _ hb => hb, ?_⟩, ⟨hp.blobs, ?_⟩, fun b hb => .inl hb⟩
    · intro c hc
      by_cases hsame : sameChunk row c = true
      -- one blob id is one upload, so the row that is overwritten was the same
      · obtain ⟨hid, hidx⟩ : c.blobId = row.blobId ∧ c.chunkIndex = row.chunkIndex := by
          simpa [sameChunk] using hsame
        obtain ⟨v, hv, hvid, hvp⟩ := hp.chunks c hc
        obtain ⟨w, hw, hwid, hwp⟩ := hr
        obtain rfl := (hd v hv w hw).1 (by rw [hvid, hwid, hid])
        have hpart : c.part = row.part := by
          rw [hidx, hwp] at hvp
          exact (Option.some.inj hvp).symm
        have hrow : c = row := by
          cases c; cases row; simp_all
        exact List.mem_append_right _ (List.mem_singleton.mpr hrow)
      · exact List.mem_append_left _ (List.mem_filter.mpr ⟨hc, by simpa using hsame⟩)
    · intro c hc
      rcases List.mem_append.mp hc with hc | hc
      · exact hp.chunks c (List.mem_filter.mp hc).1
      · obtain rfl := List.mem_singleton.mp hc
        exact hr

/-- A request that was answered is stored. -/
theorem Left.handle (hd : Distinct uploads) (hu : u ∈ uploads) (hp : Genuine uploads p)
    (hr : GenuineRequest uploads r) (hl : Left (r :: rest) p u)
    (h : handle overwrites now p r = some q) : Left rest q u := by
  obtain ⟨he, hq, -⟩ := handle_spec hd hp hr h
  constructor
  · rcases hl.blob with ⟨b, hb, hid⟩ | hmem
    · exact .inl ⟨b, he.blobs hb, hid⟩
    · rcases List.mem_cons.mp hmem with rfl | hmem
      · have hb : ∃ b ∈ q.blobs, b.blobId = u.blobId := by
          rcases handle_upload h with ⟨hhas, rfl⟩ | rfl
          · exact hasBlob_iff.mp hhas
          · exact ⟨_, List.mem_append_right _ (List.mem_singleton.mpr rfl), rfl⟩
        obtain ⟨b, hb, hid⟩ := hb
        obtain ⟨v, hv, hvid, hvn⟩ := hq.blobs b hb
        obtain rfl := (hd v hv u hu).1 (hvid.trans hid)
        exact .inl ⟨b, hb, hid, hvn.symm⟩
      · exact .inr hmem
  · intro i part hpart
    rcases hl.chunks i part hpart with hc | hmem
    · exact .inl (he.chunks hc)
    · rcases List.mem_cons.mp hmem with rfl | hmem
      · obtain rfl := handle_chunk h
        exact .inl (List.mem_append_right _ (List.mem_singleton.mpr rfl))
      · exact .inr hmem

theorem handleAll_spec {rs : List Request} (hd : Distinct uploads) (hp : Genuine uploads p)
    (hr : ∀ r ∈ rs, GenuineRequest uploads r) (h : handleAll overwrites now p rs = some q) :
    Extends p q ∧ Genuine uploads q ∧
      (∀ b ∈ q.blobs, b ∈ p.blobs ∨ ∃ n, .upload b.blobId n ∈ rs) ∧
      ∀ u ∈ uploads, Left rs p u → Whole q u := by
  induction rs generalizing p with
  | nil =>
    obtain rfl := Option.some.inj h
    exact ⟨.refl _, hp, fun b hb => .inl hb, fun u _ hl => hl.whole⟩
  | cons r rest ih =>
    obtain ⟨o, ho, h⟩ := Option.bind_eq_some_iff.mp h
    have hr0 := hr r (List.mem_cons_self ..)
    obtain ⟨he, hg, hb⟩ := handle_spec hd hp hr0 ho
    obtain ⟨he', hg', hb', hw⟩ := ih hg (fun r hm => hr r (List.mem_cons_of_mem _ hm)) h
    refine ⟨he.trans he', hg', fun b hbq => ?_, fun u hu hl => ?_⟩
    · rcases hb' b hbq with hbo | ⟨n, hn⟩
      · rcases hb b hbo with hbp | ⟨n, rfl⟩
        · exact .inl hbp
        · exact .inr ⟨n, List.mem_cons_self ..⟩
      · exact .inr ⟨n, List.mem_cons_of_mem _ hn⟩
    · exact hw u hu (hl.handle hd hu hp hr0 ho)

theorem mem_uploadRequests :
    r ∈ uploadRequests u ↔ r = .upload u.blobId u.parts.length ∨
      ∃ i part, u.parts[i]? = some part ∧ r = .chunk ⟨u.blobId, i, part⟩ := by
  unfold uploadRequests
  simp only [List.mem_cons, List.mem_map, List.mem_zipIdx_iff_getElem?, Prod.exists]
  refine or_congr_right ⟨?_, ?_⟩
  · rintro ⟨part, i, hp, rfl⟩
    exact ⟨i, part, hp, rfl⟩
  · rintro ⟨i, part, hp, rfl⟩
    exact ⟨part, i, hp, rfl⟩

theorem uploadRequests_genuine (hu : u ∈ uploads) (hr : r ∈ uploadRequests u) :
    GenuineRequest uploads r := by
  rcases mem_uploadRequests.mp hr with rfl | ⟨i, part, hp, rfl⟩
  · exact ⟨u, hu, rfl, rfl⟩
  · exact ⟨u, hu, rfl, hp⟩

theorem uploadRequests_left (p : Place) (u : Upload) : Left (uploadRequests u) p u :=
  ⟨.inr (mem_uploadRequests.mpr (.inl rfl)),
    fun i part hp => .inr (mem_uploadRequests.mpr (.inr ⟨i, part, hp, rfl⟩))⟩

/-- An upload that stopped after `n` requests. -/
theorem uploadRequests_spec {n : Nat} (hd : Distinct uploads) (hu : u ∈ uploads)
    (hp : Genuine uploads p)
    (h : handleAll overwrites now p ((uploadRequests u).take n) = some q) :
    Extends p q ∧ Genuine uploads q ∧ (∀ b ∈ q.blobs, b ∈ p.blobs ∨ b.blobId = u.blobId) ∧
      ((uploadRequests u).length ≤ n → Whole q u) := by
  obtain ⟨hx, hg, hb, hw⟩ := handleAll_spec hd hp
    (fun r hr => uploadRequests_genuine hu (List.mem_of_mem_take hr)) h
  refine ⟨hx, hg, fun b hbq => (hb b hbq).imp_right ?_, fun hall => hw u hu ?_⟩
  · rintro ⟨k, hk⟩
    rcases mem_uploadRequests.mp (List.mem_of_mem_take hk) with he | ⟨i, part, -, he⟩
    · exact (Request.upload.inj he).1
    · cases he
  · rw [List.take_of_length_le hall]
    exact uploadRequests_left p u

theorem Genuine.delete_genuine (h : Genuine uploads p) (id : String) :
    Genuine uploads (p.delete id) where
  blobs b hb := h.blobs b (List.mem_filter.mp hb).1
  chunks c hc := h.chunks c (List.mem_filter.mp hc).1

theorem Place.delete_hasBlob (h : hasBlob p u.blobId = true) (hne : u.blobId ≠ id) :
    hasBlob (p.delete id) u.blobId = true := by
  obtain ⟨b, hb, hid⟩ := hasBlob_iff.mp h
  exact hasBlob_iff.mpr ⟨b, List.mem_filter.mpr ⟨hb, by simpa [hid] using hne⟩, hid⟩

theorem Whole.delete (h : Whole p u) (hne : u.blobId ≠ id) : Whole (p.delete id) u := by
  obtain ⟨⟨b, hb, hid⟩, hc⟩ := h
  refine ⟨⟨b, List.mem_filter.mpr ⟨hb, by simpa [hid.1] using hne⟩, hid⟩, fun i part hp => ?_⟩
  exact List.mem_filter.mpr ⟨hc i part hp, by simpa using hne⟩

theorem Left.delete (h : Left rest p u) (hne : u.blobId ≠ id) :
    Left rest (p.delete id) u where
  blob := h.blob.imp_left fun ⟨b, hb, hid⟩ =>
    ⟨b, List.mem_filter.mpr ⟨hb, by simpa [hid.1] using hne⟩, hid⟩
  chunks i part hp := (h.chunks i part hp).imp_left fun hc =>
    List.mem_filter.mpr ⟨hc, by simpa using hne⟩

end Places

def spooledUploads (s : State) : List Upload := s.uploads.filter Upload.spooled

structure Registry (s : State) : Prop where
  distinct : Distinct s.uploads
  finished : s.finished ⊆ s.uploads
  sent : ∀ o ∈ s.sent, ∀ o' ∈ s.sent, (o.envelopeId = o'.envelopeId → o = o') ∧
    (o.messageId = o'.messageId → o = o')
  outbox : s.outbox ⊆ s.sent
  jobs : ∀ j ∈ s.jobs, j.row ∈ s.sent
  attachments : ∀ a ∈ s.attachments, (∃ u ∈ s.finished, u.attachmentId = a.attachmentId) ∧
    ∃ o ∈ s.sent, o.messageId = a.messageId
  delivered : ∀ m ∈ s.delivered, ∃ o ∈ s.sent, o.messageId = m

/-- What the tables hold: rows of uploads, and a finished upload whole or not at all. -/
structure Contents (s : State) : Prop where
  spool : Genuine (spooledUploads s) s.spool
  relay : Genuine s.uploads s.relay
  links : ∀ l ∈ s.links, ∃ u ∈ s.uploads, u.attachmentId = l.attachmentId ∧ u.blobId = l.blobId
  requests : ∀ j ∈ s.jobs, ∀ rs, j.requests = some rs →
    ∀ r ∈ rs, GenuineRequest (spooledUploads s) r
  spoolWhole : ∀ u ∈ s.finished, u.spooled = true → hasBlob s.spool u.blobId = true →
    Whole s.spool u
  relayWhole : ∀ u ∈ s.finished, u.spooled = false → hasBlob s.relay u.blobId = true →
    Whole s.relay u
  reuploaded : ∀ b ∈ s.reuploaded, ∃ u ∈ s.uploads, u.blobId = b ∧ Whole s.relay u

/-- What the messages of the vault still need. -/
structure Coverage (s : State) : Prop where
  linked : ∀ m u, Carries s m u → u.spooled = true →
    ⟨u.attachmentId, u.blobId⟩ ∈ s.links ∧ hasBlob s.spool u.blobId = true
  pending : ∀ m u, Pending s m → Carries s m u → u.spooled = false →
    hasBlob s.relay u.blobId = true
  requests : ∀ j ∈ s.jobs, ∀ rs, j.requests = some rs →
    ∀ b ∈ j.blobs, ∃ u ∈ s.uploads, u.blobId = b ∧ Left rs s.relay u
  waiting : ∀ j ∈ s.jobs, j.requests = none → ∀ u, Carries s j.row.messageId u →
    u.spooled = true → j.row ∈ s.outbox ∨ u.blobId ∈ s.reuploaded
  prepared : ∀ j ∈ s.jobs, j.requests ≠ none → ∀ u, Carries s j.row.messageId u →
    u.spooled = true → u.blobId ∈ j.blobs ∨ u.blobId ∈ s.reuploaded
  delivered : ∀ m ∈ s.delivered, ∀ u, Carries s m u → u.spooled = true

structure Invariant (s : State) : Prop where
  registry : Registry s
  contents : Contents s
  coverage : Coverage s

section Bookkeeping

variable {client : Client} {s t : State} {j : Job} {m : String} {u : Upload}

theorem spooledUploads_subset (s : State) : spooledUploads s ⊆ s.uploads :=
  fun _ h => (List.mem_filter.mp h).1

theorem Carries.of_subset (h : Carries t m u) (ha : t.attachments ⊆ s.attachments)
    (hf : t.finished = s.finished) : Carries s m u := by
  obtain ⟨hu, a, hat, hm⟩ := h
  exact ⟨hf ▸ hu, a, ha hat, hm⟩

theorem mem_replaceJob {k : Job} {jobs : List Job} (h : k ∈ replaceJob j jobs) :
    k = j ∨ k ∈ jobs := by
  obtain ⟨x, hx, rfl⟩ := List.mem_map.mp h
  split
  · exact .inl rfl
  · exact .inr hx

/-- A job as it was, or one that was just started for a row of the outbox. -/
def Known (s : State) (j : Job) : Prop :=
  (∃ k ∈ s.jobs, k.row = j.row ∧ k.requests = j.requests ∧ k.blobs = j.blobs) ∨
    j.row ∈ s.outbox ∧ j.requests = none

theorem known_self (h : j ∈ s.jobs) : Known s j := .inl ⟨j, h, rfl, rfl, rfl⟩

theorem known_accepted (h : j ∈ s.jobs) {k : Job}
    (hk : k ∈ replaceJob { j with accepted := true } s.jobs) : Known s k := by
  rcases mem_replaceJob hk with rfl | hk
  · exact .inl ⟨j, h, rfl, rfl, rfl⟩
  · exact known_self hk

theorem Known.pending (h : Known s j) : Pending s j.row.messageId := by
  rcases h with ⟨k, hk, hrow, -⟩ | ⟨ho, -⟩
  · exact .inr ⟨k, hk, by rw [hrow]⟩
  · exact .inl ⟨j.row, ho, rfl⟩

/-- A step that leaves the stored chunks, the links and what was uploaded as they are keeps the
invariant when rows only go away, jobs are known and a job without requests that still needs
its row keeps it. -/
theorem Invariant.settle (h : Invariant s)
    (ht : t = { s with
      mode := t.mode, attachments := t.attachments, outbox := t.outbox, jobs := t.jobs
      delivered := t.delivered })
    (ha : t.attachments ⊆ s.attachments) (ho : t.outbox ⊆ s.outbox)
    (hj : ∀ j ∈ t.jobs, Known s j)
    (hrow : ∀ j ∈ t.jobs, ∀ u, Carries t j.row.messageId u → u.spooled = true →
      j.row ∈ s.outbox → j.row ∈ t.outbox ∨ u.blobId ∈ s.reuploaded)
    (hd : ∀ m ∈ t.delivered, m ∈ s.delivered ∨
      (∃ o ∈ s.sent, o.messageId = m) ∧ ∀ u, Carries t m u → u.spooled = true) :
    Invariant t := by
  obtain ⟨mode, spool, relay, links, attachments, outbox, jobs, uploads, finished, sent,
    delivered, reuploaded⟩ := t
  obtain ⟨rfl, rfl, rfl, rfl, rfl, rfl, rfl⟩ : spool = s.spool ∧ relay = s.relay ∧
      links = s.links ∧ uploads = s.uploads ∧ finished = s.finished ∧ sent = s.sent ∧
      reuploaded = s.reuploaded := by
    simpa using ht
  obtain ⟨hr, hc, hv⟩ := h
  have carries {m : String} {u : Upload} (hx : Carries _ m u) : Carries s m u :=
    hx.of_subset ha rfl
  refine ⟨⟨hr.distinct, hr.finished, hr.sent, fun o h => hr.outbox (ho h), ?_,
    fun a h => hr.attachments a (ha h), ?_⟩, ⟨hc.spool, hc.relay, hc.links, ?_, hc.spoolWhole,
    hc.relayWhole, hc.reuploaded⟩, ⟨fun m u hx => hv.linked m u (carries hx), ?_, ?_, ?_, ?_, ?_⟩⟩
  · intro j hjt
    rcases hj j hjt with ⟨k, hk, hrw, -⟩ | ⟨hout, -⟩
    · exact hrw ▸ hr.jobs k hk
    · exact hr.outbox hout
  · intro m hm
    rcases hd m hm with hm | ⟨hm, -⟩
    · exact hr.delivered m hm
    · exact hm
  · intro j hjt rs hrs
    rcases hj j hjt with ⟨k, hk, -, hreq, -⟩ | ⟨-, hnone⟩
    · exact hc.requests k hk rs (hreq.trans hrs)
    · rw [hnone] at hrs
      cases hrs
  · intro m u hp hx
    refine hv.pending m u ?_ (carries hx)
    rcases hp with ⟨o, hot, rfl⟩ | ⟨j, hjt, rfl⟩
    · exact .inl ⟨o, ho hot, rfl⟩
    · exact (hj j hjt).pending
  · intro j hjt rs hrs
    rcases hj j hjt with ⟨k, hk, -, hreq, hb⟩ | ⟨-, hnone⟩
    · exact hb ▸ hv.requests k hk rs (hreq.trans hrs)
    · rw [hnone] at hrs
      cases hrs
  · intro j hjt hnone u hx hs
    have hout : j.row ∈ s.outbox ∨ u.blobId ∈ s.reuploaded := by
      rcases hj j hjt with ⟨k, hk, hrw, hreq, -⟩ | ⟨hout, -⟩
      · exact hrw ▸ hv.waiting k hk (hreq.trans hnone) u (by rw [hrw]; exact carries hx) hs
      · exact .inl hout
    exact hout.elim (hrow j hjt u hx hs) .inr
  · intro j hjt hsome u hx hs
    rcases hj j hjt with ⟨k, hk, hrw, hreq, hb⟩ | ⟨-, hnone⟩
    · exact hb ▸ hv.prepared k hk (hreq ▸ hsome) u (by rw [hrw]; exact carries hx) hs
    · exact absurd hnone hsome
  · intro m hm u hx
    rcases hd m hm with hm | ⟨-, hm⟩
    · exact hv.delivered m hm u (carries hx)
    · exact hm u hx

theorem dropEnvelope_subset (id : String) (outbox : List OutboxRow) :
    dropEnvelope id outbox ⊆ outbox := fun _ h => (List.mem_filter.mp h).1

theorem mem_dropEnvelope {o : OutboxRow} {id : String} (h : o ∈ s.outbox)
    (hne : o.envelopeId ≠ id) : o ∈ dropEnvelope id s.outbox :=
  List.mem_filter.mpr ⟨h, by simpa using hne⟩

theorem Invariant.config (h : Invariant s) (mode : Mode) :
    Invariant (next client s (.config mode)) :=
  h.settle rfl (fun _ h => h) (fun _ h => h) (fun _ h => known_self h)
    (fun _ _ _ _ _ ho => .inl ho) (fun _ hm => .inl hm)

theorem Invariant.expire (h : Invariant s) (messageId : String) :
    Invariant (next client s (.expire messageId)) := by
  refine h.settle rfl (fun _ h => (List.mem_filter.mp h).1) (fun _ h => (List.mem_filter.mp h).1)
    (fun _ h => known_self h) (fun j _ u hx _ ho => .inl ?_) (fun _ hm => .inl hm)
  -- a message that still has the attachment is not the one that went
  obtain ⟨-, a, ha, hm, -⟩ := hx
  have hne := (List.mem_filter.mp ha).2
  rw [hm] at hne
  exact List.mem_filter.mpr ⟨ho, hne⟩

theorem Invariant.flush {row : OutboxRow} {responded : Bool} (h : Invariant s)
    (he : Enabled s (.flush row responded)) (hk : Kept client s (.flush row responded)) :
    Invariant (next client s (.flush row responded)) := by
  cases responded with
  | false => exact h
  | true =>
    refine h.settle rfl (fun _ h => h) (dropEnvelope_subset _ _) (fun _ h => known_self h)
      (fun j _ u hx hs ho => ?_) (fun _ hm => .inl hm)
    by_cases hid : j.row.envelopeId = row.envelopeId
    · have hrow : j.row = row := (h.registry.sent _ (h.registry.outbox ho) _
        (h.registry.outbox he.1)).1 hid
      refine .inr ((hk u ?_).resolve_left (by simp [hs]))
      exact hrow ▸ hx.of_subset (fun _ h => h) rfl
    · exact .inl (mem_dropEnvelope ho hid)

theorem Invariant.start {row : OutboxRow} (h : Invariant s) (he : Enabled s (.start row)) :
    Invariant (next client s (.start row)) := by
  refine h.settle rfl (fun _ h => h) (fun _ h => h) (fun j hj => ?_)
    (fun _ _ _ _ _ ho => .inl ho) (fun _ hm => .inl hm)
  rcases List.mem_append.mp hj with hj | hj
  · exact known_self hj
  · obtain rfl := List.mem_singleton.mp hj
    exact .inr ⟨he.1, rfl⟩

theorem Invariant.deliver {responded : Bool} (h : Invariant s)
    (he : Enabled s (.deliver j responded)) (hk : Kept client s (.deliver j responded)) :
    Invariant (next client s (.deliver j responded)) := by
  refine h.settle rfl (fun _ h => h) (fun _ h => h) (fun k hkm => ?_)
    (fun _ _ _ _ _ ho => .inl ho) (fun m hm => ?_)
  · cases responded with
    | false => exact known_self hkm
    | true => exact known_accepted he.1 hkm
  · rcases List.mem_append.mp hm with hm | hm
    · exact .inl hm
    · obtain rfl := List.mem_singleton.mp hm
      exact .inr ⟨⟨j.row, h.registry.jobs j he.1, rfl⟩,
        fun u hx => hk u (hx.of_subset (fun _ h => h) rfl)⟩

theorem Invariant.postEnvelope {responded : Bool} (h : Invariant s)
    (he : Enabled s (.postEnvelope j responded)) :
    Invariant (next client s (.postEnvelope j responded)) := by
  cases responded with
  | false => exact h
  | true =>
    exact h.settle rfl (fun _ h => h) (fun _ h => h) (fun k hk => known_accepted he.1 hk)
      (fun _ _ _ _ _ ho => .inl ho) (fun _ hm => .inl hm)

theorem Invariant.stop (h : Invariant s) (j : Job) : Invariant (next client s (.stop j)) :=
  h.settle rfl (fun _ h => h) (fun _ h => h) (fun _ hk => known_self (List.mem_filter.mp hk).1)
    (fun _ _ _ _ _ ho => .inl ho) (fun _ hm => .inl hm)

theorem Invariant.complete (h : Invariant s) (j : Job) :
    Invariant (next client s (.complete j)) := by
  refine h.settle rfl (fun _ h => h) (dropEnvelope_subset _ _)
    (fun _ hk => known_self (List.mem_filter.mp hk).1)
    (fun k hk _ _ _ ho => .inl (mem_dropEnvelope ho ?_)) (fun _ hm => .inl hm)
  simpa using (List.mem_filter.mp hk).2

end Bookkeeping

section Storing

variable {client : Client} {s : State} {j : Job} {m : String} {u v : Upload}

theorem Distinct.mono {l more : List Upload} (h : Distinct more) (hm : l ⊆ more) : Distinct l :=
  fun u hu v hv => h u (hm hu) v (hm hv)

theorem Registry.same_blob (h : Registry s) (hu : u ∈ s.uploads) (hv : v ∈ s.uploads)
    (hid : u.blobId = v.blobId) : u = v := (h.distinct u hu v hv).1 hid

theorem Registry.same_attachment (h : Registry s) (hu : u ∈ s.uploads) (hv : v ∈ s.uploads)
    (hid : u.attachmentId = v.attachmentId) : u = v := (h.distinct u hu v hv).2 hid

theorem genuine_relay {r : Request}
    (hr : GenuineRequest (spooledUploads s) r) : GenuineRequest s.uploads r :=
  hr.mono (spooledUploads_subset s)

theorem Invariant.post {r : Request} {rest : List Request} {stored : Place} {now : Nat}
    (h : Invariant s) (he : Enabled s (.post j r rest stored now)) :
    Invariant (next client s (.post j r rest stored now)) := by
  obtain ⟨hr, hc, hv⟩ := h
  obtain ⟨hj, hreq, hstored⟩ := he
  have hgen := hc.requests j hj _ hreq r (List.mem_cons_self ..)
  obtain ⟨hext, hrelay, hnew⟩ :=
    handle_spec hr.distinct hc.relay (genuine_relay hgen) hstored
  have hleft : ∀ b ∈ j.blobs, ∃ u ∈ s.uploads, u.blobId = b ∧ Left rest stored u := by
    intro b hb
    obtain ⟨u, hu, hid, hl⟩ := hv.requests j hj _ hreq b hb
    exact ⟨u, hu, hid, hl.handle hr.distinct hu hc.relay (genuine_relay hgen) hstored⟩
  -- every job of the new state but this one was there before
  have hjobs {P : Job → Prop} (hp : ∀ k ∈ s.jobs, P k) (hj : P { j with requests := some rest }) :
      ∀ k ∈ replaceJob { j with requests := some rest } s.jobs, P k := fun k hk =>
    (mem_replaceJob hk).elim (fun he => he ▸ hj) (hp k)
  have hre : ∀ b ∈ (if rest = [] then s.reuploaded ++ j.blobs else s.reuploaded),
      ∃ u ∈ s.uploads, u.blobId = b ∧ Whole stored u := by
    intro b hb
    have hold : b ∈ s.reuploaded → ∃ u ∈ s.uploads, u.blobId = b ∧ Whole stored u := fun hb =>
      let ⟨u, hu, hid, hw⟩ := hc.reuploaded b hb
      ⟨u, hu, hid, hw.mono hext⟩
    split at hb
    · rename_i hnil
      rcases List.mem_append.mp hb with hb | hb
      · exact hold hb
      · obtain ⟨u, hu, hid, hl⟩ := hleft b hb
        exact ⟨u, hu, hid, Left.whole (hnil ▸ hl)⟩
    · exact hold hb
  have hkeep : ∀ b ∈ s.reuploaded, b ∈ (if rest = [] then s.reuploaded ++ j.blobs
      else s.reuploaded) := by
    intro b hb
    split
    · exact List.mem_append_left _ hb
    · exact hb
  refine ⟨⟨hr.distinct, hr.finished, hr.sent, hr.outbox, hjobs hr.jobs (hr.jobs j hj),
    hr.attachments, hr.delivered⟩, ⟨hc.spool, hrelay, hc.links, hjobs hc.requests ?_,
    hc.spoolWhole, ?_, hre⟩, ⟨hv.linked, ?_, hjobs ?_ ?_, hjobs ?_ ?_, hjobs ?_ ?_,
    hv.delivered⟩⟩
  · intro rs hrs x hx
    obtain rfl := Option.some.inj hrs
    exact hc.requests j hj _ hreq x (List.mem_cons_of_mem _ hx)
  · intro u hu hs hb
    obtain ⟨b, hb, hid⟩ := hasBlob_iff.mp hb
    rcases hnew b hb with hb | ⟨n, rfl⟩
    · exact (hc.relayWhole u hu hs (hasBlob_iff.mpr ⟨b, hb, hid⟩)).mono hext
    -- a fallback uploads nothing but what was spooled
    · obtain ⟨w, hw, hwid, -⟩ := hgen
      obtain rfl := hr.same_blob (spooledUploads_subset s hw) (hr.finished hu) (hwid.trans hid)
      rw [(List.mem_filter.mp hw).2] at hs
      cases hs
  · intro m u hp hx hs
    have hp : Pending s m := by
      rcases hp with ho | ⟨k, hk, rfl⟩
      · exact .inl ho
      · rcases mem_replaceJob hk with rfl | hk
        · exact .inr ⟨j, hj, rfl⟩
        · exact .inr ⟨k, hk, rfl⟩
    exact hext.hasBlob (hv.pending m u hp hx hs)
  · intro k hk rs hrs b hb
    obtain ⟨u, hu, hid, hl⟩ := hv.requests k hk rs hrs b hb
    exact ⟨u, hu, hid, hl.mono hext⟩
  · intro rs hrs b hb
    obtain rfl := Option.some.inj hrs
    exact hleft b hb
  · intro k hk hnone u hx hs
    exact (hv.waiting k hk hnone u hx hs).imp_right (hkeep _)
  · intro hnone
    cases hnone
  · intro k hk hsome u hx hs
    exact (hv.prepared k hk hsome u hx hs).imp_right (hkeep _)
  · intro _ u hx hs
    exact (hv.prepared j hj (by simp [hreq]) u hx hs).imp_right (hkeep _)

theorem Invariant.deleteBlob {id : String} (h : Invariant s)
    (hk : Kept client s (.deleteBlob id)) : Invariant (next client s (.deleteBlob id)) := by
  obtain ⟨hr, hc, hv⟩ := h
  obtain ⟨hcarried, hjobs⟩ := hk
  have hkeep {b : String} (hb : b ∈ s.reuploaded) (hne : b ≠ id) :
      b ∈ s.reuploaded.filter (fun b => b != id) := List.mem_filter.mpr ⟨hb, by simpa using hne⟩
  refine ⟨⟨hr.distinct, hr.finished, hr.sent, hr.outbox, hr.jobs, hr.attachments, hr.delivered⟩,
    ⟨hc.spool, hc.relay.delete_genuine id, hc.links, hc.requests, hc.spoolWhole, ?_, ?_⟩,
    ⟨hv.linked, ?_, ?_, ?_, ?_, hv.delivered⟩⟩
  · intro u hu hs hb
    obtain ⟨b, hb, hid⟩ := hasBlob_iff.mp hb
    obtain ⟨hb, hne⟩ := List.mem_filter.mp hb
    have hne : u.blobId ≠ id := by simpa [hid] using hne
    exact (hc.relayWhole u hu hs (hasBlob_iff.mpr ⟨b, hb, hid⟩)).delete hne
  · intro b hb
    obtain ⟨hb, hne⟩ := List.mem_filter.mp hb
    obtain ⟨u, hu, rfl, hw⟩ := hc.reuploaded b hb
    exact ⟨u, hu, rfl, hw.delete (by simpa using hne)⟩
  · intro m u hp hx hs
    exact Place.delete_hasBlob (hv.pending m u hp hx hs) (hcarried m u hp hx)
  · intro j hj rs hrs b hb
    obtain ⟨u, hu, rfl, hl⟩ := hv.requests j hj rs hrs b hb
    exact ⟨u, hu, rfl, hl.delete (fun he => hjobs j hj (he ▸ hb))⟩
  · intro j hj hnone u hx hs
    exact (hv.waiting j hj hnone u hx hs).imp_right fun hb =>
      hkeep hb (hcarried _ u (.inr ⟨j, hj, rfl⟩) hx)
  · intro j hj hsome u hx hs
    exact (hv.prepared j hj hsome u hx hs).imp_right fun hb =>
      hkeep hb (hcarried _ u (.inr ⟨j, hj, rfl⟩) hx)

theorem mem_linkedBlobs {envelopeId : String} {b : BlobRow} :
    b ∈ linkedBlobs s envelopeId ↔ b ∈ s.spool.blobs ∧ ∃ l ∈ s.links, l.blobId = b.blobId ∧
      ∃ a ∈ s.attachments, a.attachmentId = l.attachmentId ∧
        ∃ o ∈ s.outbox, o.messageId = a.messageId ∧ o.envelopeId = envelopeId := by
  simp [linkedBlobs, List.mem_filter]

theorem mem_chunksOf {p : Place} {id : String} {c : ChunkRow} :
    c ∈ chunksOf p id ↔ c ∈ p.chunks ∧ c.blobId = id := by
  unfold chunksOf
  rw [List.mem_insertionSort, List.mem_filter, beq_iff_eq]

/-- The blob of a linked row belongs to the upload that the message carries. -/
theorem linkedBlobs_upload (h : Invariant s) {envelopeId : String} {b : BlobRow}
    (hb : b ∈ linkedBlobs s envelopeId) :
    ∃ u ∈ s.finished, u.spooled = true ∧ u.blobId = b.blobId ∧ Whole s.spool u := by
  obtain ⟨hr, hc, -⟩ := h
  obtain ⟨hb, l, hl, hlb, a, ha, hal, -⟩ := mem_linkedBlobs.mp hb
  obtain ⟨u, hu, hua⟩ := (hr.attachments a ha).1
  obtain ⟨v, hv, hva, hvb⟩ := hc.links l hl
  obtain rfl := hr.same_attachment (hr.finished hu) hv (hua.trans (hal.trans hva.symm))
  obtain ⟨w, hw, hwb, -⟩ := hc.spool.blobs b hb
  obtain rfl := hr.same_blob (spooledUploads_subset s hw) hv (hwb.trans (hlb.symm.trans hvb.symm))
  have hs : w.spooled = true := (List.mem_filter.mp hw).2
  exact ⟨w, hu, hs, hwb, hc.spoolWhole w hu hs (hasBlob_iff.mpr ⟨b, hb, hwb.symm⟩)⟩

theorem mem_prepareRelay {envelopeId : String} {rs : List Request}
    (h : prepareRelay s envelopeId = some rs) {r : Request} :
    r ∈ rs ↔ ∃ b ∈ linkedBlobs s envelopeId, r = .upload b.blobId b.chunkCount ∨
      ∃ c ∈ s.spool.chunks, c.blobId = b.blobId ∧ r = .chunk c := by
  unfold prepareRelay at h
  split at h
  · cases h
  · obtain rfl := Option.some.inj h
    simp only [List.mem_flatMap, List.mem_cons, List.mem_map, mem_chunksOf]
    refine exists_congr fun b => and_congr_right fun _ => or_congr_right ⟨?_, ?_⟩
    · rintro ⟨c, ⟨hc, hid⟩, rfl⟩
      exact ⟨c, hc, hid, rfl⟩
    · rintro ⟨c, hc, hid, rfl⟩
      exact ⟨c, ⟨hc, hid⟩, rfl⟩

theorem Invariant.prepare {rs : List Request} (h : Invariant s)
    (he : Enabled s (.prepare j rs)) : Invariant (next client s (.prepare j rs)) := by
  have hlinked {b : BlobRow} (hb : b ∈ linkedBlobs s j.row.envelopeId) := linkedBlobs_upload h hb
  obtain ⟨hr, hc, hv⟩ := h
  obtain ⟨hj, hnone, -, -, hrs⟩ := he
  let j' : Job := { j with
    requests := some rs
    blobs := (linkedBlobs s j.row.envelopeId).map BlobRow.blobId }
  have hjobs {P : Job → Prop} (hp : ∀ k ∈ s.jobs, P k) (hj : P j') :
      ∀ k ∈ replaceJob j' s.jobs, P k := fun k hk =>
    (mem_replaceJob hk).elim (fun he => he ▸ hj) (hp k)
  refine ⟨⟨hr.distinct, hr.finished, hr.sent, hr.outbox, hjobs hr.jobs (hr.jobs j hj),
    hr.attachments, hr.delivered⟩, ⟨hc.spool, hc.relay, hc.links, hjobs hc.requests ?_,
    hc.spoolWhole, hc.relayWhole, hc.reuploaded⟩, ⟨hv.linked, ?_, hjobs hv.requests ?_,
    hjobs hv.waiting nofun, hjobs hv.prepared ?_, hv.delivered⟩⟩
  · intro _ he r hr
    obtain rfl := Option.some.inj he
    obtain ⟨b, hb, rfl | ⟨c, hcm, -, rfl⟩⟩ := (mem_prepareRelay hrs).mp hr
    · exact hc.spool.blobs b (mem_linkedBlobs.mp hb).1
    · exact hc.spool.chunks c hcm
  · intro m u hp hx hs
    refine hv.pending m u ?_ hx hs
    rcases hp with ho | ⟨k, hk, rfl⟩
    · exact .inl ho
    · rcases mem_replaceJob hk with rfl | hk
      · exact .inr ⟨j, hj, rfl⟩
      · exact .inr ⟨k, hk, rfl⟩
  · intro _ he id hid
    obtain rfl := Option.some.inj he
    obtain ⟨b, hb, rfl⟩ := List.mem_map.mp hid
    obtain ⟨u, hu, -, hub, ⟨c, hcb, hcid, hcn⟩, hchunks⟩ := hlinked hb
    refine ⟨u, hr.finished hu, hub, ⟨.inr ?_, fun i part hp => .inr ?_⟩⟩
    · obtain ⟨w, hw, hwb, hwn⟩ := hc.spool.blobs b (mem_linkedBlobs.mp hb).1
      obtain rfl := hr.same_blob (spooledUploads_subset s hw) (hr.finished hu)
        (hwb.trans hub.symm)
      exact (mem_prepareRelay hrs).mpr ⟨b, hb, .inl (by rw [hwb, hwn])⟩
    · exact (mem_prepareRelay hrs).mpr ⟨b, hb, .inr ⟨_, hchunks i part hp, hub, rfl⟩⟩
  · intro _ u hx hs
    refine (hv.waiting j hj hnone u hx hs).imp_left fun hout => ?_
    obtain ⟨hlink, hblob⟩ := hv.linked _ u hx hs
    obtain ⟨b, hb, hid⟩ := hasBlob_iff.mp hblob
    obtain ⟨-, a, ha, ham, hau⟩ := hx
    exact List.mem_map.mpr ⟨b, mem_linkedBlobs.mpr ⟨hb, _, hlink, hid.symm, a, ha, hau,
      j.row, hout, ham.symm, rfl⟩, hid⟩

/-- The blob of a message that is still there is neither unlinked nor orphaned. -/
theorem not_doomed (h : Invariant s) (hx : Carries s m u) (hs : u.spooled = true)
    {b : BlobRow} (hb : b.blobId = u.blobId) (now : Nat) : doomed s now b = false := by
  obtain ⟨hr, hc, hv⟩ := h
  obtain ⟨hlink, -⟩ := hv.linked m u hx hs
  obtain ⟨hu, a, ha, -, hau⟩ := hx
  have horphan : s.links.any (fun l => l.blobId == b.blobId &&
      !s.attachments.any (fun a => a.attachmentId == l.attachmentId)) = false := by
    refine List.any_eq_false.mpr fun l hl hbad => ?_
    obtain ⟨hlb, hgone⟩ := Bool.and_eq_true_iff.mp hbad
    obtain ⟨v, hvm, hva, hvb⟩ := hc.links l hl
    have hid : v.blobId = u.blobId := by rw [hvb, ← hb]; simpa using hlb
    obtain rfl := hr.same_blob hvm (hr.finished hu) hid
    have hthere : s.attachments.any (fun a => a.attachmentId == l.attachmentId) = true :=
      List.any_eq_true.mpr ⟨a, ha, by simp [hau, hva]⟩
    rw [hthere] at hgone
    cases hgone
  have hlinked : s.links.any (fun l => l.blobId == b.blobId) = true :=
    List.any_eq_true.mpr ⟨_, hlink, by simp [hb]⟩
  rw [doomed, horphan, hlinked, Bool.not_true, Bool.and_false, Bool.or_false]

theorem Invariant.cleanup (h : Invariant s) (now : Nat) :
    Invariant (next client s (.cleanup now)) := by
  have hkept {m : String} {u : Upload} (hx : Carries s m u) (hs : u.spooled = true)
      {b : BlobRow} (hb : b.blobId = u.blobId) := not_doomed h hx hs hb now
  obtain ⟨hr, hc, hv⟩ := h
  refine ⟨⟨hr.distinct, hr.finished, hr.sent, hr.outbox, hr.jobs, hr.attachments, hr.delivered⟩,
    ⟨⟨?_, ?_⟩, hc.relay, ?_, hc.requests, ?_, hc.relayWhole, hc.reuploaded⟩,
    ⟨?_, hv.pending, hv.requests, hv.waiting, hv.prepared, hv.delivered⟩⟩
  · intro b hb
    exact hc.spool.blobs b (List.mem_filter.mp hb).1
  · intro c hcm
    exact hc.spool.chunks c (List.mem_filter.mp hcm).1
  · intro l hl
    exact hc.links l (List.mem_filter.mp hl).1
  · intro u hu hs hhas
    obtain ⟨b, hb, hid⟩ := hasBlob_iff.mp hhas
    have ⟨hbs, hstays⟩ := List.mem_filter.mp hb
    obtain ⟨-, hchunks⟩ := hc.spoolWhole u hu hs (hasBlob_iff.mpr ⟨b, hbs, hid⟩)
    obtain ⟨v, hvm, hvid, hvn⟩ := hc.spool.blobs b hbs
    obtain rfl := hr.same_blob (spooledUploads_subset s hvm) (hr.finished hu) (hvid.trans hid)
    refine ⟨⟨b, hb, hid, hvn.symm⟩, fun i part hp => ?_⟩
    refine List.mem_filter.mpr ⟨hchunks i part hp, List.any_eq_true.mpr ⟨b, hbs, ?_⟩⟩
    exact Bool.and_eq_true_iff.mpr ⟨by simpa using hid, hstays⟩
  · intro m u hx hs
    obtain ⟨hlink, hblob⟩ := hv.linked m u hx hs
    obtain ⟨b, hb, hid⟩ := hasBlob_iff.mp hblob
    have hstays := hkept hx hs hid
    obtain ⟨-, a, ha, -, hau⟩ := hx
    refine ⟨List.mem_filter.mpr ⟨hlink, List.any_eq_true.mpr ⟨a, ha, by simpa using hau⟩⟩, ?_⟩
    exact hasBlob_iff.mpr ⟨b, List.mem_filter.mpr ⟨hb, by simp [hstays]⟩, hid⟩

theorem mem_putLink {links : List Link} {k l : Link} (h : k ∈ putLink links l) :
    k ∈ links ∨ k = l := by
  rcases List.mem_append.mp h with h | h
  · exact .inl (List.mem_filter.mp h).1
  · exact .inr (List.mem_singleton.mp h)

theorem putLink_self (links : List Link) (l : Link) : l ∈ putLink links l :=
  List.mem_append_right _ (List.mem_singleton.mpr rfl)

/-- Linking an upload leaves the links of the others, and its own if it had one. -/
theorem putLink_keeps (hr : Registry s) (hu : u ∈ s.uploads) (hv : v ∈ s.uploads)
    (h : ⟨v.attachmentId, v.blobId⟩ ∈ s.links) :
    ⟨v.attachmentId, v.blobId⟩ ∈ putLink s.links ⟨u.attachmentId, u.blobId⟩ := by
  by_cases hid : v.attachmentId = u.attachmentId
  · obtain rfl := hr.same_attachment hv hu hid
    exact putLink_self _ _
  · exact List.mem_append_left _ (List.mem_filter.mpr ⟨h, by simpa using hid⟩)

/-- Links may be put for uploads. -/
theorem Invariant.relink (h : Invariant s) {links : List Link}
    (hl : ∀ l ∈ links, l ∈ s.links ∨ ∃ u ∈ s.uploads, l = ⟨u.attachmentId, u.blobId⟩)
    (hk : ∀ u ∈ s.uploads, ⟨u.attachmentId, u.blobId⟩ ∈ s.links →
      ⟨u.attachmentId, u.blobId⟩ ∈ links) : Invariant { s with links := links } := by
  obtain ⟨hr, hc, hv⟩ := h
  refine ⟨⟨hr.distinct, hr.finished, hr.sent, hr.outbox, hr.jobs, hr.attachments, hr.delivered⟩,
    ⟨hc.spool, hc.relay, fun l hlm => ?_, hc.requests, hc.spoolWhole, hc.relayWhole,
      hc.reuploaded⟩,
    ⟨fun m u hx hs => ?_, hv.pending, hv.requests, hv.waiting, hv.prepared, hv.delivered⟩⟩
  · rcases hl l hlm with hlm | ⟨u, hu, rfl⟩
    · exact hc.links l hlm
    · exact ⟨u, hu, rfl, rfl⟩
  · obtain ⟨hlink, hblob⟩ := hv.linked m u hx hs
    exact ⟨hk u (hr.finished hx.1) hlink, hblob⟩

/-- The transaction of a send, with the link already there. -/
def commitMessage (a : Attachment) (row : OutboxRow) (s : State) : State :=
  { s with
    attachments := s.attachments ++ [a]
    outbox := s.outbox ++ [row]
    sent := s.sent ++ [row] }

theorem Invariant.commitMessage {a : Attachment} {row : OutboxRow} (h : Invariant s)
    (hu : u ∈ s.finished) (hau : a.attachmentId = u.attachmentId)
    (ham : a.messageId = row.messageId)
    (hfresh : ∀ o ∈ s.sent, o.envelopeId ≠ row.envelopeId ∧ o.messageId ≠ row.messageId)
    (hblob : hasBlob (placeOf s u) u.blobId = true)
    (hlink : u.spooled = true → ⟨u.attachmentId, u.blobId⟩ ∈ s.links) :
    Invariant (commitMessage a row s) := by
  obtain ⟨hr, hc, hv⟩ := h
  -- the new message carries the upload, the others what they carried
  have carries {m : String} {v : Upload} (hx : Carries (AttachmentSpool.commitMessage a row s) m v) :
      Carries s m v ∨ m = row.messageId ∧ v = u := by
    obtain ⟨hvf, b, hb, hbm, hbv⟩ := hx
    rcases List.mem_append.mp hb with hb | hb
    · exact .inl ⟨hvf, b, hb, hbm, hbv⟩
    · obtain rfl := List.mem_singleton.mp hb
      exact .inr ⟨hbm.symm.trans ham, hr.same_attachment (hr.finished hvf) (hr.finished hu)
        (hbv.symm.trans hau)⟩
  have hold {o : OutboxRow} (ho : o ∈ s.sent) {v : Upload}
      (hx : Carries (AttachmentSpool.commitMessage a row s) o.messageId v) :
      Carries s o.messageId v :=
    (carries hx).resolve_right fun hn => (hfresh o ho).2 hn.1
  have hnew {v : Upload} (hx : Carries s row.messageId v) : False := by
    obtain ⟨-, b, hb, hbm, -⟩ := hx
    obtain ⟨-, o, ho, hom⟩ := hr.attachments b hb
    exact (hfresh o ho).2 (hom.trans hbm)
  refine ⟨⟨hr.distinct, hr.finished, ?_, ?_, fun j hj => List.mem_append_left _ (hr.jobs j hj),
    ?_, ?_⟩, ⟨hc.spool, hc.relay, hc.links, hc.requests, hc.spoolWhole, hc.relayWhole,
    hc.reuploaded⟩, ⟨?_, ?_, hv.requests, ?_, ?_, ?_⟩⟩
  · intro o ho o' ho'
    rcases List.mem_append.mp ho with hs | hn <;> rcases List.mem_append.mp ho' with hs' | hn'
    · exact hr.sent o hs o' hs'
    · obtain rfl := List.mem_singleton.mp hn'
      exact ⟨fun he => absurd he (hfresh o hs).1, fun he => absurd he (hfresh o hs).2⟩
    · obtain rfl := List.mem_singleton.mp hn
      exact ⟨fun he => absurd he.symm (hfresh o' hs').1,
        fun he => absurd he.symm (hfresh o' hs').2⟩
    · obtain rfl := List.mem_singleton.mp hn
      obtain rfl := List.mem_singleton.mp hn'
      exact ⟨fun _ => rfl, fun _ => rfl⟩
  · intro o ho
    exact (List.mem_append.mp ho).elim (fun ho => List.mem_append_left _ (hr.outbox ho))
      (List.mem_append_right _)
  · intro b hb
    rcases List.mem_append.mp hb with hb | hb
    · obtain ⟨hf, o, ho, hom⟩ := hr.attachments b hb
      exact ⟨hf, o, List.mem_append_left _ ho, hom⟩
    · obtain rfl := List.mem_singleton.mp hb
      exact ⟨⟨u, hu, hau.symm⟩, row, List.mem_append_right _ (List.mem_singleton.mpr rfl),
        ham.symm⟩
  · intro m hm
    obtain ⟨o, ho, hom⟩ := hr.delivered m hm
    exact ⟨o, List.mem_append_left _ ho, hom⟩
  · intro m v hx hs
    rcases carries hx with hx | ⟨-, rfl⟩
    · exact hv.linked m v hx hs
    · refine ⟨hlink hs, ?_⟩
      rwa [placeOf, if_pos hs] at hblob
  · intro m v hp hx hs
    rcases carries hx with hcar | ⟨-, rfl⟩
    · refine hv.pending m v ?_ hcar hs
      rcases hp with ⟨o, ho, hom⟩ | hj
      · rcases List.mem_append.mp ho with ho | hn
        · exact .inl ⟨o, ho, hom⟩
        · rw [← hom, List.mem_singleton.mp hn] at hcar
          exact (hnew hcar).elim
      · exact .inr hj
    · rwa [placeOf, if_neg (by simp [hs])] at hblob
  · intro j hj hnone v hx hs
    exact (hv.waiting j hj hnone v (hold (hr.jobs j hj) hx) hs).imp_left
      (List.mem_append_left _)
  · intro j hj hsome v hx hs
    exact hv.prepared j hj hsome v (hold (hr.jobs j hj) hx) hs
  · intro m hm v hx
    obtain ⟨o, ho, rfl⟩ := hr.delivered m hm
    exact hv.delivered _ hm v (hold ho hx)

theorem Invariant.send {a : Attachment} {row : OutboxRow} {committed : Bool} (h : Invariant s)
    (he : Enabled s (.send u a row committed)) (hk : Kept client s (.send u a row committed)) :
    Invariant (next client s (.send u a row committed)) := by
  obtain ⟨hu, hau, ham, hfresh, -⟩ := he
  obtain ⟨hblob, htor⟩ := hk
  have hput : Invariant { s with links := putLink s.links ⟨u.attachmentId, u.blobId⟩ } := by
    refine h.relink (fun l hl => (mem_putLink hl).imp_right fun he => ⟨u, ?_, he⟩)
      (fun v hv => putLink_keeps h.registry (h.registry.finished hu) hv)
    exact h.registry.finished hu
  cases committed with
  | false =>
    cases client with
    | desktop => exact hput
    | android => exact h
  | true =>
    cases client with
    | desktop => exact hput.commitMessage hu hau ham hfresh hblob fun _ => putLink_self _ _
    | android =>
      by_cases hmode : s.mode ≠ .relayOnly
      · have hlinked : next .android s (.send u a row true) = AttachmentSpool.commitMessage a row
            { s with links := putLink s.links ⟨u.attachmentId, u.blobId⟩ } := by
          simp [next, sendMessage, hmode, AttachmentSpool.commitMessage]
        rw [hlinked]
        exact hput.commitMessage hu hau ham hfresh hblob fun _ => putLink_self _ _
      · have hunlinked : next .android s (.send u a row true) =
            AttachmentSpool.commitMessage a row s := by
          simp [next, sendMessage, hmode, AttachmentSpool.commitMessage]
        rw [hunlinked]
        exact h.commitMessage hu hau ham hfresh hblob fun hs => absurd (htor rfl hs) hmode

theorem Invariant.upload {n now : Nat} {returned : Bool} {stored : Place} (h : Invariant s)
    (he : Enabled s (.upload u n returned now stored)) :
    Invariant (next client s (.upload u n returned now stored)) := by
  obtain ⟨hr, hc, hv⟩ := h
  obtain ⟨hfresh, -, hstored, hall⟩ := he
  set t := next client s (.upload u n returned now stored) with ht
  have hgrow : s.uploads ⊆ t.uploads := List.subset_append_left _ _
  have hself : u ∈ t.uploads := List.mem_append_right _ (List.mem_singleton.mpr rfl)
  have hdistinct : Distinct t.uploads := hr.distinct.snoc hfresh
  have hspooled : spooledUploads s ⊆ spooledUploads t := fun v hv =>
    List.mem_filter.mpr ⟨hgrow (List.mem_filter.mp hv).1, (List.mem_filter.mp hv).2⟩
  have hfin {v : Upload} (hv : v ∈ t.finished) : v ∈ s.finished ∨ v = u ∧ returned = true := by
    cases returned with
    | false => exact .inl hv
    | true =>
      rcases List.mem_append.mp hv with hv | hv
      · exact .inl hv
      · exact .inr ⟨List.mem_singleton.mp hv, rfl⟩
  have hfinished : s.finished ⊆ t.finished := by
    cases returned with
    | false => exact fun _ h => h
    | true => exact List.subset_append_left _ _
  -- an attachment of the vault is of an upload that was there before
  have carries {m : String} {v : Upload} (hx : Carries t m v) : Carries s m v := by
    obtain ⟨hv, a, ha, ham, hav⟩ := hx
    refine (hfin hv).elim (fun hv => ⟨hv, a, ha, ham, hav⟩) fun hnew => ?_
    obtain ⟨w, hw, hwa⟩ := (hr.attachments a ha).1
    exact absurd (hwa.trans (hav.trans (by rw [hnew.1]))) (hfresh w (hr.finished hw)).2
  have hregistry : Registry t :=
    ⟨hdistinct, fun v hv => (hfin hv).elim (fun hv => hgrow (hr.finished hv))
      (fun hn => hn.1 ▸ hself), hr.sent, hr.outbox, hr.jobs,
      fun a ha => ⟨let ⟨v, hv, hva⟩ := (hr.attachments a ha).1; ⟨v, hfinished hv, hva⟩,
        (hr.attachments a ha).2⟩, hr.delivered⟩
  have hlinks : ∀ l ∈ s.links, ∃ v ∈ t.uploads, v.attachmentId = l.attachmentId ∧
      v.blobId = l.blobId := fun l hl =>
    let ⟨v, hv, hid⟩ := hc.links l hl
    ⟨v, hgrow hv, hid⟩
  have hrequests : ∀ j ∈ s.jobs, ∀ rs, j.requests = some rs →
      ∀ r ∈ rs, GenuineRequest (spooledUploads t) r := fun j hj rs hrs r hr =>
    (hc.requests j hj rs hrs r hr).mono hspooled
  -- a row of another blob was there before the upload
  have hbefore {p : Place} (hb : ∀ b ∈ stored.blobs, b ∈ p.blobs ∨ b.blobId = u.blobId)
      {v : Upload} (hvf : v ∈ s.finished) (h : hasBlob stored v.blobId = true) :
      hasBlob p v.blobId = true := by
    obtain ⟨b, hbm, hid⟩ := hasBlob_iff.mp h
    refine hasBlob_iff.mpr ⟨b, (hb b hbm).resolve_right fun he => ?_, hid⟩
    exact (hfresh v (hr.finished hvf)).1 (hid.symm.trans he)
  -- the uploads that are finished stay whole at the place they were uploaded to
  have hother {p : Place} {side : Bool} (hside : u.spooled ≠ side)
      (hw : ∀ v ∈ s.finished, v.spooled = side → hasBlob p v.blobId = true → Whole p v) :
      ∀ v ∈ t.finished, v.spooled = side → hasBlob p v.blobId = true → Whole p v := by
    intro v hv hvs hhas
    rcases hfin hv with hv | ⟨rfl, -⟩
    · exact hw v hv hvs hhas
    · exact absurd hvs hside
  have hsame {p : Place} {side : Bool} (hx : Extends p stored)
      (hb : ∀ b ∈ stored.blobs, b ∈ p.blobs ∨ b.blobId = u.blobId)
      (hlast : (uploadRequests u).length ≤ n → Whole stored u)
      (hw : ∀ v ∈ s.finished, v.spooled = side → hasBlob p v.blobId = true → Whole p v) :
      ∀ v ∈ t.finished, v.spooled = side → hasBlob stored v.blobId = true → Whole stored v := by
    intro v hv hvs hhas
    rcases hfin hv with hv | ⟨rfl, hret⟩
    · exact (hw v hv hvs (hbefore hb hv hhas)).mono hx
    · exact hlast (hall hret)
  -- whatever the places keep, the rest follows
  have hrest (hspool : Extends s.spool t.spool) (hrelay : Extends s.relay t.relay)
      (hg : Genuine (spooledUploads t) t.spool) (hg' : Genuine t.uploads t.relay)
      (hw : ∀ v ∈ t.finished, v.spooled = true → hasBlob t.spool v.blobId = true →
        Whole t.spool v)
      (hw' : ∀ v ∈ t.finished, v.spooled = false → hasBlob t.relay v.blobId = true →
        Whole t.relay v) : Invariant t := by
    refine ⟨hregistry, ⟨hg, hg', hlinks, hrequests, hw, hw', ?_⟩, ⟨?_, ?_, ?_, ?_, ?_, ?_⟩⟩
    · intro b hb
      obtain ⟨v, hv, hid, hw⟩ := hc.reuploaded b hb
      exact ⟨v, hgrow hv, hid, hw.mono hrelay⟩
    · intro m v hcar hvs
      obtain ⟨hl, hhas⟩ := hv.linked m v (carries hcar) hvs
      exact ⟨hl, hspool.hasBlob hhas⟩
    · intro m v hp hcar hvs
      exact hrelay.hasBlob (hv.pending m v hp (carries hcar) hvs)
    · intro j hj rs hrs b hbm
      obtain ⟨v, hvm, hid, hl⟩ := hv.requests j hj rs hrs b hbm
      exact ⟨v, hgrow hvm, hid, hl.mono hrelay⟩
    · exact fun j hj hnone v hcar => hv.waiting j hj hnone v (carries hcar)
    · exact fun j hj hsome v hcar => hv.prepared j hj hsome v (carries hcar)
    · exact fun m hm v hcar => hv.delivered m hm v (carries hcar)
  cases hs : u.spooled with
  | true =>
    have hmem : u ∈ spooledUploads t := List.mem_filter.mpr ⟨hself, hs⟩
    have hspool : t.spool = stored := if_pos hs
    have hrelay : t.relay = s.relay := if_pos hs
    rw [if_pos hs] at hstored
    obtain ⟨hx, hg, hb, hlast⟩ := uploadRequests_spec
      (hdistinct.mono (spooledUploads_subset t)) hmem (hc.spool.mono hspooled) hstored
    rw [hspool, hrelay] at hrest
    exact hrest hx (.refl _) hg (hc.relay.mono hgrow) (hsame hx hb hlast hc.spoolWhole)
      (hother (by simp [hs]) hc.relayWhole)
  | false =>
    have hspool : t.spool = s.spool := if_neg (by simp [hs])
    have hrelay : t.relay = stored := if_neg (by simp [hs])
    rw [if_neg (by simp [hs])] at hstored
    obtain ⟨hx, hg, hb, hlast⟩ := uploadRequests_spec hdistinct hself (hc.relay.mono hgrow) hstored
    rw [hspool, hrelay] at hrest
    exact hrest (.refl _) hx (hc.spool.mono hspooled) hg (hother (by simp [hs]) hc.spoolWhole)
      (hsame hx hb hlast hc.relayWhole)

theorem Invariant.step {e : Event} (h : Invariant s) (he : Enabled s e) (hk : Kept client s e) :
    Invariant (next client s e) := by
  cases e with
  | config mode => exact h.config mode
  | upload u n returned now stored => exact h.upload he
  | send u a row committed => exact h.send he hk
  | expire messageId => exact h.expire messageId
  | cleanup now => exact h.cleanup now
  | flush row responded => exact h.flush he hk
  | start row => exact h.start he
  | deliver j responded => exact h.deliver he hk
  | prepare j requests => exact h.prepare he
  | post j r rest stored now => exact h.post he
  | postEnvelope j responded => exact h.postEnvelope he
  | complete j => exact h.complete j
  | stop j => exact h.stop j
  | deleteBlob id => exact h.deleteBlob hk

theorem Invariant.spooled_available (h : Invariant s) (hx : Carries s m u)
    (hs : u.spooled = true) : Available s .tor u := by
  obtain ⟨hlink, hblob⟩ := h.coverage.linked m u hx hs
  exact ⟨h.contents.spoolWhole u hx.1 hs hblob, hlink⟩

theorem Invariant.uploaded_available (h : Invariant s) (hp : Pending s m) (hx : Carries s m u)
    (hs : u.spooled = false) : Available s .relay u :=
  h.contents.relayWhole u hx.1 hs (h.coverage.pending m u hp hx hs)

theorem Invariant.reuploaded_available (h : Invariant s) (hx : Carries s m u)
    (hb : u.blobId ∈ s.reuploaded) : Available s .relay u := by
  obtain ⟨v, hv, hid, hw⟩ := h.contents.reuploaded _ hb
  obtain rfl := h.registry.same_blob hv (h.registry.finished hx.1) hid
  exact hw

/-- Whatever takes an envelope in this step, what the message carries is where that
transport's recipient looks. -/
def Accompanied (s : State) (e : Event) : Prop :=
  ∀ transport m u, accepts e = some (transport, m) → Carries s m u → Available s transport u

theorem Invariant.accompanied {e : Event} (h : Invariant s) (he : Enabled s e)
    (hk : Kept client s e) : Accompanied s e := by
  intro transport m u ha hx
  cases e with
  | flush row responded =>
    obtain ⟨rfl, rfl⟩ := Prod.mk.inj (Option.some.inj ha)
    rcases hk u hx with hs | hb
    · exact h.uploaded_available (.inl ⟨row, he.1, rfl⟩) hx hs
    · exact h.reuploaded_available hx hb
  | deliver j responded =>
    obtain ⟨rfl, rfl⟩ := Prod.mk.inj (Option.some.inj ha)
    exact h.spooled_available hx (hk u hx)
  | postEnvelope j responded =>
    obtain ⟨rfl, rfl⟩ := Prod.mk.inj (Option.some.inj ha)
    obtain ⟨hj, hnil, -⟩ := he
    cases hs : u.spooled with
    | false => exact h.uploaded_available (.inr ⟨j, hj, rfl⟩) hx hs
    | true =>
      rcases h.coverage.prepared j hj (by simp [hnil]) u hx hs with hb | hb
      -- the fallback has posted every request, so nothing is left of the upload
      · obtain ⟨v, hv, hid, hl⟩ := h.coverage.requests j hj [] hnil _ hb
        obtain rfl := h.registry.same_blob hv (h.registry.finished hx.1) hid
        exact hl.whole
      · exact h.reuploaded_available hx hb
  | _ => cases ha

theorem start_invariant : Invariant start := by
  refine ⟨⟨?_, ?_, ?_, ?_, ?_, ?_, ?_⟩, ⟨⟨?_, ?_⟩, ⟨?_, ?_⟩, ?_, ?_, ?_, ?_, ?_⟩,
    ⟨?_, ?_, ?_, ?_, ?_, ?_⟩⟩ <;>
  simp [start, Distinct, Carries]

end Storing

/-- In every run that keeps attachments with their envelopes, no transport takes an envelope
whose attachment is not where its recipient looks, and what was spooled or has gone over Tor
stays in the spool as long as the message does. -/
theorem attachments_supplied {client : Client} {s : State}
    (h : Reachable ((system client).Within (Kept client)) s) :
    (∀ e, ((system client).Within (Kept client)).Enabled s e → Accompanied s e) ∧
      ∀ m u, Carries s m u → u.spooled = true ∨ m ∈ s.delivered → Available s .tor u := by
  have hi : Invariant s := by
    have hstep (s : State) (e : Event) (hi : Invariant s) (he : Enabled s e ∧ Kept client s e) :
        Invariant (next client s e) := hi.step he.1 he.2
    refine reachable_invariant (fun s hs => ?_) hstep h
    obtain rfl : s = start := hs
    exact start_invariant
  refine ⟨fun e he => hi.accompanied he.1 he.2, fun m u hx hs => hi.spooled_available hx ?_⟩
  exact hs.elim id fun hm => hi.coverage.delivered m hm u hx

def sampleUpload : Upload := ⟨"attachment", "blob", [⟨"nonce", "sealed"⟩], true⟩

def sampleAttachment : Attachment := ⟨"attachment", "message", "manifest"⟩

def sampleRow : OutboxRow := ⟨"envelope", "message", "device", "ciphertext", 0⟩

def sampleSpool : Place := ⟨[⟨"blob", 1, 0⟩], [⟨"blob", 0, ⟨"nonce", "sealed"⟩⟩]⟩

def sampleJob : Job := ⟨sampleRow, none, [], false⟩

/-- An attachment is spooled and its message is sent. -/
def spooledTrace : List Event :=
  [.upload sampleUpload 2 true 0 sampleSpool, .send sampleUpload sampleAttachment sampleRow true]

def afterSpooled (client : Client) : State := (system client).replay start spooledTrace

theorem sampleUpload_only {client : Client} {m : String} {u : Upload}
    (h : Carries (afterSpooled client) m u) : u = sampleUpload := by
  cases client <;> exact List.mem_singleton.mp h.1

theorem spooledTrace_valid (client : Client) :
    ((system client).Within (Kept client)).Valid start spooledTrace := by
  refine ⟨⟨?_, trivial⟩, ⟨?_, ?_⟩, trivial⟩
  · simp only [system, Enabled]
    decide +kernel
  · simp only [system, Enabled]
    cases client <;> decide +kernel
  · cases client <;> exact ⟨by decide +kernel, fun _ _ => by decide +kernel⟩

/-- Over Tor the peer finds the chunk in the spool. -/
theorem delivered_accompanied :
    Accompanied ((system .desktop).next (afterSpooled .desktop) (.start sampleRow))
      (.deliver sampleJob true) := by
  have hs : Reachable ((system .desktop).Within (Kept .desktop)) (afterSpooled .desktop) :=
    valid_trace_reachable (reachable_initial rfl) (spooledTrace_valid .desktop)
  have hstart : ((system .desktop).Within (Kept .desktop)).Enabled (afterSpooled .desktop)
      (.start sampleRow) := ⟨by simp only [system, Enabled]; decide +kernel, trivial⟩
  refine (attachments_supplied (reachable_step hs hstart)).1 _ ⟨?_, fun u hx => ?_⟩
  · simp only [system, Enabled]
    decide +kernel
  · have hsent : Carries (afterSpooled .desktop) sampleJob.row.messageId u :=
      hx.of_subset (fun _ h => h) rfl
    rw [sampleUpload_only hsent]
    rfl

/-- A run after which the relay takes an envelope without the bytes of its attachment. -/
def Abandons (client : Client) : Prop :=
  ∃ s e, Reachable (system client) s ∧ Enabled s e ∧ ¬Accompanied s e

theorem abandons_chunks (client : Client) : Abandons client := by
  have hs : Reachable (system client) (afterSpooled client) :=
    within_reachable (valid_trace_reachable (reachable_initial rfl) (spooledTrace_valid client))
  have hconfig : (system client).Enabled (afterSpooled client) (.config .relayOnly) := trivial
  refine ⟨_, .flush sampleRow true, reachable_step hs hconfig, ?_, fun h => ?_⟩
  · cases client <;> exact ⟨by decide +kernel, rfl⟩
  · have hx : Carries ((system client).next (afterSpooled client) (.config .relayOnly)) "message"
        sampleUpload := by
      cases client <;> exact ⟨by decide +kernel, sampleAttachment, by decide +kernel, rfl, rfl⟩
    obtain ⟨⟨b, hb, -⟩, -⟩ := h .relay "message" sampleUpload rfl hx
    cases client <;> cases hb

/-- Switched to `RELAY_ONLY` after the upload, both clients hand the relay the envelope alone. -/
theorem relay_takes_envelope_alone : Abandons .desktop ∧ Abandons .android :=
  ⟨abandons_chunks .desktop, abandons_chunks .android⟩

end AttachmentSpool
