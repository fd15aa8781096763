import CryptoPigeon.TransitionSystem
import Mathlib.Data.List.Basic

/-! # One-time prekeys of a device

Uploads and bundle requests of one device, statement by statement at READ COMMITTED: a written
row is locked until its transaction ends, an upload waits for it and a bundle request skips it.
The keys of the registration count as a first upload. Bundle requests stay in the state when
they have ended; `before` and `after` (history) are the rows around their commit. -/
namespace PrekeyBundles

open TransitionSystem

inductive Kind where
  | classical
  | pq
  deriving DecidableEq, Repr

/-- A row of `one_time_prekeys` or `pq_one_time_prekeys`. -/
structure Row where
  kind : Kind
  id : Nat
  publicKey : String
  signature : String
  lastResort : Bool
  consumed : Bool
  uploadedAt : Nat
  deriving DecidableEq, Repr

structure Write where
  kind : Kind
  id : Nat
  publicKey : String
  signature : String
  lastResort : Bool
  deriving DecidableEq, Repr

structure Upload where
  id : Nat
  now : Nat
  writes : List Write
  deriving DecidableEq, Repr

inductive Stage where
  | began
  | tookClassical
  | tookPq
  | committed
  | answered
  | failed
  | rolledBack
  deriving DecidableEq, Repr

/-- A bundle request and the rows that it has consumed and returns. -/
structure Bundle where
  id : Nat
  stage : Stage
  classical : Option Row
  pq : Option Row
  before : List Row
  after : List Row
  deriving DecidableEq, Repr

structure State where
  rows : List Row
  uploads : List Upload
  bundles : List Bundle
  deriving DecidableEq, Repr

/-- The columns of the unique constraint. -/
def Row.place (r : Row) : Kind × Nat := (r.kind, r.id)

def Write.place (w : Write) : Kind × Nat := (w.kind, w.id)

def Bundle.given (b : Bundle) : List Row := b.classical.toList ++ b.pq.toList

def Bundle.isOpen (b : Bundle) : Bool :=
  b.stage = .began || b.stage = .tookClassical || b.stage = .tookPq

/-- Its transaction has been committed. -/
def Bundle.settled (b : Bundle) : Bool :=
  b.stage = .committed || b.stage = .answered || b.stage = .failed

/-- One of these open uploads has written the row. -/
def Written (uploads : List Upload) (place : Kind × Nat) : Prop :=
  ∃ u ∈ uploads, ∃ w ∈ u.writes, w.place = place

/-- An open bundle request has consumed it. -/
def Taken (bundles : List Bundle) (place : Kind × Nat) : Prop :=
  ∃ b ∈ bundles, b.isOpen ∧ ∃ r ∈ b.given, r.place = place

instance (uploads : List Upload) (place : Kind × Nat) : Decidable (Written uploads place) :=
  inferInstanceAs (Decidable (∃ u ∈ uploads, _))

instance (bundles : List Bundle) (place : Kind × Nat) : Decidable (Taken bundles place) :=
  inferInstanceAs (Decidable (∃ b ∈ bundles, _))

/-- An upsert leaves `prekey_type` as it is. -/
def typeAt (s : State) (u : Upload) (w : Write) : Bool :=
  match s.rows.find? (·.place = w.place) with
  | some r => r.lastResort
  | none =>
    match u.writes.find? (·.place = w.place) with
    | some x => x.lastResort
    | none => w.lastResort

def putUpload (u : Upload) (s : State) : State :=
  { s with uploads := s.uploads.map fun x => if x.id = u.id then u else x }

def putBundle (b : Bundle) (s : State) : State :=
  { s with bundles := s.bundles.map fun x => if x.id = b.id then b else x }

def upsert (u : Upload) (w : Write) (s : State) : State :=
  putUpload { u with writes := u.writes ++ [{ w with lastResort := typeAt s u w }] } s

/-- `ON CONFLICT (device_id, signal_prekey_id) DO UPDATE`. -/
def applyWrite (now : Nat) (rows : List Row) (w : Write) : List Row :=
  if rows.any (·.place = w.place) then
    rows.map fun r =>
      if r.place = w.place then
        { r with
          publicKey := w.publicKey
          signature := w.signature
          consumed := false }
      else r
  else rows ++ [⟨w.kind, w.id, w.publicKey, w.signature, w.lastResort, false, now⟩]

def dropUpload (u : Upload) (s : State) : State :=
  { s with uploads := s.uploads.filter fun x => x.id ≠ u.id }

def commitUpload (u : Upload) (s : State) : State :=
  { dropUpload u s with rows := u.writes.foldl (applyWrite u.now) s.rows }

/-- What `FOR UPDATE SKIP LOCKED` may pick for a device. -/
def Available (s : State) (kind : Kind) (r : Row) : Prop :=
  r.kind = kind ∧ r.consumed = false ∧ r.lastResort = false ∧ ¬Written s.uploads r.place ∧
    ¬Taken s.bundles r.place

instance (s : State) (kind : Kind) (r : Row) : Decidable (Available s kind r) :=
  inferInstanceAs (Decidable (_ ∧ _ ∧ _ ∧ _ ∧ _))

/-- `ORDER BY uploaded_at ASC LIMIT 1`. -/
def Picks (s : State) (kind : Kind) : Option Row → Prop
  | some r => r ∈ s.rows ∧ Available s kind r ∧
      ∀ x ∈ s.rows, Available s kind x → r.uploadedAt ≤ x.uploadedAt
  | none => ∀ x ∈ s.rows, ¬Available s kind x

def mark (given : List Row) (rows : List Row) : List Row :=
  rows.map fun r => if given.any (·.place = r.place) then { r with consumed := true } else r

def commitBundle (b : Bundle) (s : State) : State :=
  let rows := mark b.given s.rows
  { putBundle { b with
      stage := .committed
      before := s.rows
      after := rows } s with rows }

/-- A request that ends without a commit. -/
def rollback (b : Bundle) (s : State) : State :=
  putBundle { b with
    stage := .rolledBack
    before := s.rows
    after := s.rows } s

/-- `answer` and `countFailed` follow the two counts after the commit. -/
inductive Event where
  | beginUpload (id now : Nat)
  | upsert (u : Upload) (w : Write)
  | commitUpload (u : Upload)
  | dropUpload (u : Upload)
  | beginBundle (id : Nat)
  | takeClassical (b : Bundle) (choice : Option Row)
  | takePq (b : Bundle) (choice : Option Row)
  | commitBundle (b : Bundle)
  | rollback (b : Bundle)
  | answer (b : Bundle)
  | countFailed (b : Bundle)
  deriving DecidableEq, Repr

def Enabled (s : State) : Event → Prop
  | .beginUpload id _ => ∀ u ∈ s.uploads, u.id ≠ id
  | .upsert u w => u ∈ s.uploads ∧ ¬Written (s.uploads.filter fun x => x.id ≠ u.id) w.place ∧
      ¬Taken s.bundles w.place
  | .commitUpload u => u ∈ s.uploads
  | .dropUpload u => u ∈ s.uploads
  | .beginBundle id => ∀ b ∈ s.bundles, b.id ≠ id
  | .takeClassical b choice => b ∈ s.bundles ∧ b.stage = .began ∧ Picks s .classical choice
  | .takePq b choice => b ∈ s.bundles ∧ b.stage = .tookClassical ∧ Picks s .pq choice
  | .commitBundle b => b ∈ s.bundles ∧ b.stage = .tookPq ∧
      ∃ r ∈ s.rows, r.kind = .pq ∧ r.lastResort = true
  | .rollback b => b ∈ s.bundles ∧ b.isOpen
  | .answer b => b ∈ s.bundles ∧ b.stage = .committed
  | .countFailed b => b ∈ s.bundles ∧ b.stage = .committed

def next (s : State) : Event → State
  | .beginUpload id now => { s with uploads := ⟨id, now, []⟩ :: s.uploads }
  | .upsert u w => PrekeyBundles.upsert u w s
  | .commitUpload u => PrekeyBundles.commitUpload u s
  | .dropUpload u => PrekeyBundles.dropUpload u s
  | .beginBundle id => { s with bundles := ⟨id, .began, none, none, [], []⟩ :: s.bundles }
  | .takeClassical b choice =>
    putBundle { b with
      stage := .tookClassical
      classical := choice } s
  | .takePq b choice =>
    putBundle { b with
      stage := .tookPq
      pq := choice } s
  | .commitBundle b => PrekeyBundles.commitBundle b s
  | .rollback b => PrekeyBundles.rollback b s
  | .answer b => putBundle { b with stage := .answered } s
  | .countFailed b => putBundle { b with stage := .failed } s

def system : System State Event := ⟨fun s => s = ⟨[], [], []⟩, Enabled, next⟩

/-- The row was unconsumed before and is consumed after. -/
def Consumes (before after : List Row) (r : Row) : Prop :=
  r ∈ before ∧ r.consumed = false ∧ ∃ x ∈ after, x.place = r.place ∧ x.consumed = true

/-- No key is in two answers, and answered requests consume what they return, the others nothing. -/
structure HandedOnce (s : State) : Prop where
  once : ∀ b ∈ s.bundles, b.stage = .answered → ∀ c ∈ s.bundles, c.stage = .answered →
    ∀ r ∈ b.given, ∀ x ∈ c.given, r.kind = x.kind → r.publicKey = x.publicKey → b = c
  failed : ∀ b ∈ s.bundles, b.stage = .rolledBack ∨ b.stage = .failed →
    ∀ r, ¬Consumes b.before b.after r
  answered : ∀ b ∈ s.bundles, b.stage = .answered → ∀ r, Consumes b.before b.after r ↔ r ∈ b.given

/-- A committed bundle request has the key. -/
def Handed (s : State) (kind : Kind) (publicKey : String) : Prop :=
  ∃ b ∈ s.bundles, b.settled ∧ ∃ r ∈ b.given, r.kind = kind ∧ r.publicKey = publicKey

/-- A row or an open upload offers the key as a one-time key under this id. -/
def Offers (s : State) (kind : Kind) (publicKey : String) (id : Nat) : Prop :=
  (∃ r ∈ s.rows, r.kind = kind ∧ r.publicKey = publicKey ∧ r.id = id ∧ r.lastResort = false ∧
    r.consumed = false) ∨
  ∃ u ∈ s.uploads, ∃ w ∈ u.writes, w.kind = kind ∧ w.publicKey = publicKey ∧ w.id = id ∧
    w.lastResort = false

/-- An upload writes no one-time key that was handed out or is offered under another id, and a
count fails only after a request that took nothing. -/
def Careful (s : State) : Event → Prop
  | .upsert u w => typeAt s u w = false → ¬Handed s w.kind w.publicKey ∧
      ∀ id, Offers s w.kind w.publicKey id → id = w.id
  | .countFailed b => b.given = []
  | _ => True

/-- A place has one row. -/
def Distinct (rows : List Row) : Prop := ∀ r ∈ rows, ∀ x ∈ rows, r.place = x.place → r = x

/-- Between the steps of uploads and bundle requests. -/
structure Invariant (s : State) : Prop where
  places : Distinct s.rows
  uploadIds : ∀ u ∈ s.uploads, ∀ v ∈ s.uploads, u.id = v.id → u = v
  bundleIds : ∀ b ∈ s.bundles, ∀ c ∈ s.bundles, b.id = c.id → b = c
  writes : ∀ u ∈ s.uploads, ∀ v ∈ s.uploads, ∀ w ∈ u.writes, ∀ x ∈ v.writes,
    w.place = x.place → u.id = v.id
  mixed : ∀ u ∈ s.uploads, ∀ w ∈ u.writes, ¬Taken s.bundles w.place
  takes : ∀ b ∈ s.bundles, b.isOpen → ∀ c ∈ s.bundles, c.isOpen → ∀ r ∈ b.given, ∀ x ∈ c.given,
    r.place = x.place → b.id = c.id
  taken : ∀ b ∈ s.bundles, b.isOpen → ∀ r ∈ b.given,
    r ∈ s.rows ∧ r.lastResort = false ∧ r.consumed = false
  types : ∀ u ∈ s.uploads, ∀ w ∈ u.writes,
    (∀ r ∈ s.rows, r.place = w.place → r.lastResort = w.lastResort) ∧
      ∀ x ∈ u.writes, x.place = w.place → x.lastResort = w.lastResort
  fresh : ∀ kind key id, Offers s kind key id → ¬Handed s kind key
  apart : ∀ kind key id id', Offers s kind key id → Offers s kind key id' → id = id'
  once : ∀ b ∈ s.bundles, b.settled → ∀ c ∈ s.bundles, c.settled → ∀ r ∈ b.given, ∀ x ∈ c.given,
    r.kind = x.kind → r.publicKey = x.publicKey → b.id = c.id
  consumes : ∀ b ∈ s.bundles, b.settled → ∀ r, Consumes b.before b.after r ↔ r ∈ b.given
  rolledBack : ∀ b ∈ s.bundles, b.stage = .rolledBack → b.before = b.after ∧ Distinct b.after
  failed : ∀ b ∈ s.bundles, b.stage = .failed → b.given = []

section Steps

variable {s : State} {u v : Upload} {b c : Bundle} {w : Write} {r x : Row} {place : Kind × Nat}

theorem mem_putUpload (h : v ∈ (putUpload u s).uploads) : v = u ∨ (v ∈ s.uploads ∧ v.id ≠ u.id) := by
  obtain ⟨y, hy, rfl⟩ := List.mem_map.mp h
  split
  · exact .inl rfl
  · next hne => exact .inr ⟨hy, hne⟩

theorem mem_putBundle (h : c ∈ (putBundle b s).bundles) : c = b ∨ (c ∈ s.bundles ∧ c.id ≠ b.id) := by
  obtain ⟨y, hy, rfl⟩ := List.mem_map.mp h
  split
  · exact .inl rfl
  · next hne => exact .inr ⟨hy, hne⟩

theorem mem_dropUpload (h : v ∈ (dropUpload u s).uploads) : v ∈ s.uploads ∧ v.id ≠ u.id := by
  obtain ⟨hv, hne⟩ := List.mem_filter.mp h
  exact ⟨hv, of_decide_eq_true hne⟩

theorem mem_applyWrite {now : Nat} {rows : List Row} (h : r ∈ applyWrite now rows w) :
    (r ∈ rows ∧ r.place ≠ w.place) ∨
      (r.place = w.place ∧ r.publicKey = w.publicKey ∧ r.consumed = false ∧
        ((∃ y ∈ rows, y.place = w.place ∧ r.lastResort = y.lastResort) ∨
          r.lastResort = w.lastResort)) := by
  unfold applyWrite at h
  split at h
  · obtain ⟨y, hy, rfl⟩ := List.mem_map.mp h
    split
    · next hplace => exact .inr ⟨hplace, rfl, rfl, .inl ⟨y, hy, hplace, rfl⟩⟩
    · next hne => exact .inl ⟨hy, hne⟩
  · next hnone =>
    rcases List.mem_append.mp h with hr | hr
    · refine .inl ⟨hr, fun heq => hnone ?_⟩
      exact List.any_eq_true.mpr ⟨r, hr, decide_eq_true heq⟩
    · obtain rfl := List.mem_singleton.mp hr
      exact .inr ⟨rfl, rfl, rfl, .inr rfl⟩

/-- Where the rows of a committed upload come from. -/
theorem foldl_writes {now : Nat} {writes : List Write} {rows : List Row}
    (h : r ∈ writes.foldl (applyWrite now) rows) :
    (r ∈ rows ∧ ∀ w ∈ writes, w.place ≠ r.place) ∨
      ∃ w ∈ writes, w.place = r.place ∧ r.publicKey = w.publicKey ∧ r.consumed = false ∧
        ((∃ y ∈ rows, y.place = r.place ∧ r.lastResort = y.lastResort) ∨
          ∃ y ∈ writes, y.place = r.place ∧ r.lastResort = y.lastResort) := by
  induction writes generalizing rows with
  | nil => exact .inl ⟨h, fun _ hw => by cases hw⟩
  | cons w ws ih =>
    rcases ih h with ⟨hr, hother⟩ | ⟨x, hx, hplace, hkey, hconsumed, htype⟩
    · rcases mem_applyWrite hr with ⟨hr, hne⟩ | ⟨hplace, hkey, hconsumed, htype⟩
      · refine .inl ⟨hr, fun y hy => ?_⟩
        rcases List.mem_cons.mp hy with rfl | hy
        · exact hne.symm
        · exact hother y hy
      · refine .inr ⟨w, List.mem_cons_self, hplace.symm, hkey, hconsumed, ?_⟩
        rcases htype with ⟨y, hy, hyplace, hlast⟩ | hlast
        · exact .inl ⟨y, hy, hyplace.trans hplace.symm, hlast⟩
        · exact .inr ⟨w, List.mem_cons_self, hplace.symm, hlast⟩
    · refine .inr ⟨x, List.mem_cons_of_mem w hx, hplace, hkey, hconsumed, ?_⟩
      rcases htype with ⟨y, hy, hyplace, hlast⟩ | ⟨y, hy, hyplace, hlast⟩
      · rcases mem_applyWrite hy with ⟨hy, -⟩ | ⟨hyw, -, -, ⟨z, hz, hzplace, hzlast⟩ | hwlast⟩
        · exact .inl ⟨y, hy, hyplace, hlast⟩
        · exact .inl ⟨z, hz, hzplace.trans (hyw.symm.trans hyplace), hlast.trans hzlast⟩
        · exact .inr ⟨w, List.mem_cons_self, hyw.symm.trans hyplace, hlast.trans hwlast⟩
      · exact .inr ⟨y, List.mem_cons_of_mem w hy, hyplace, hlast⟩

theorem applyWrite_distinct {now : Nat} {rows : List Row} (h : Distinct rows) :
    Distinct (applyWrite now rows w) := by
  unfold applyWrite
  split
  · intro r hr x hx heq
    obtain ⟨y, hy, rfl⟩ := List.mem_map.mp hr
    obtain ⟨z, hz, rfl⟩ := List.mem_map.mp hx
    have hyz : y.place = z.place := by
      split_ifs at heq <;> exact heq
    rw [h y hy z hz hyz]
  · next hnone =>
    have hne : ∀ y ∈ rows, y.place ≠ w.place := by simpa using hnone
    intro r hr x hx heq
    rcases List.mem_append.mp hr with hr | hr <;> rcases List.mem_append.mp hx with hx | hx
    · exact h r hr x hx heq
    · rw [List.mem_singleton.mp hx] at heq
      exact absurd heq (hne r hr)
    · rw [List.mem_singleton.mp hr] at heq
      exact absurd heq.symm (hne x hx)
    · rw [List.mem_singleton.mp hr, List.mem_singleton.mp hx]

theorem foldl_distinct {now : Nat} {writes : List Write} {rows : List Row} (h : Distinct rows) :
    Distinct (writes.foldl (applyWrite now) rows) := by
  induction writes generalizing rows with
  | nil => exact h
  | cons w ws ih => exact ih (applyWrite_distinct h)

/-- Rows that nothing writes stay. -/
theorem foldl_kept {now : Nat} {writes : List Write} {rows : List Row} (hr : r ∈ rows)
    (hother : ∀ w ∈ writes, w.place ≠ r.place) : r ∈ writes.foldl (applyWrite now) rows := by
  induction writes generalizing rows with
  | nil => exact hr
  | cons w ws ih =>
    refine ih ?_ fun y hy => hother y (List.mem_cons_of_mem w hy)
    unfold applyWrite
    split
    · exact List.mem_map.mpr ⟨r, hr, if_neg (hother w List.mem_cons_self).symm⟩
    · exact List.mem_append_left _ hr

theorem Offers.upload (hu : u ∈ s.uploads) (hw : w ∈ u.writes) (hlast : w.lastResort = false) :
    Offers s w.kind w.publicKey w.id := .inr ⟨u, hu, w, hw, rfl, rfl, rfl, hlast⟩

theorem Offers.row (hr : r ∈ s.rows) (hlast : r.lastResort = false) (hfree : r.consumed = false) :
    Offers s r.kind r.publicKey r.id := .inl ⟨r, hr, rfl, rfl, rfl, hlast, hfree⟩

/-- Fewer offers and uploads are as safe. -/
theorem Invariant.uploads {uploads : List Upload} (hi : Invariant s)
    (hsub : ∀ u ∈ uploads, u ∈ s.uploads) : Invariant { s with uploads } := by
  have hoffers : ∀ {kind key id}, Offers { s with uploads } kind key id → Offers s kind key id := by
    rintro kind key id (hrow | ⟨u, hu, hw⟩)
    · exact .inl hrow
    · exact .inr ⟨u, hsub u hu, hw⟩
  exact { hi with
    uploadIds := fun u hu v hv => hi.uploadIds u (hsub u hu) v (hsub v hv)
    writes := fun u hu v hv => hi.writes u (hsub u hu) v (hsub v hv)
    mixed := fun u hu => hi.mixed u (hsub u hu)
    types := fun u hu => hi.types u (hsub u hu)
    fresh := fun kind key id h => hi.fresh kind key id (hoffers h)
    apart := fun kind key id id' h h' => hi.apart kind key id id' (hoffers h) (hoffers h') }

theorem invariant_dropUpload (hi : Invariant s) : Invariant (dropUpload u s) :=
  hi.uploads fun _ hv => (mem_dropUpload hv).1

theorem invariant_beginUpload {id now : Nat} (hid : ∀ u ∈ s.uploads, u.id ≠ id) (hi : Invariant s) :
    Invariant { s with uploads := ⟨id, now, []⟩ :: s.uploads } := by
  have hoffers : ∀ {kind key id'}, Offers { s with uploads := ⟨id, now, []⟩ :: s.uploads } kind key id' →
      Offers s kind key id' := by
    rintro kind key id' (hrow | ⟨u, hu, w, hw, hrest⟩)
    · exact .inl hrow
    · rcases List.mem_cons.mp hu with rfl | hu
      · cases hw
      · exact .inr ⟨u, hu, w, hw, hrest⟩
  refine { hi with
    uploadIds := fun u hu v hv heq => ?_
    writes := fun u hu v hv w hw x hx => ?_
    mixed := fun u hu w hw => ?_
    types := fun u hu w hw => ?_
    fresh := fun kind key id h => hi.fresh kind key id (hoffers h)
    apart := fun kind key id id' h h' => hi.apart kind key id id' (hoffers h) (hoffers h') }
  · rcases List.mem_cons.mp hu with rfl | hu <;> rcases List.mem_cons.mp hv with rfl | hv
    · rfl
    · exact absurd heq.symm (hid v hv)
    · exact absurd heq (hid u hu)
    · exact hi.uploadIds u hu v hv heq
  · rcases List.mem_cons.mp hu with rfl | hu
    · cases hw
    · rcases List.mem_cons.mp hv with rfl | hv
      · cases hx
      · exact hi.writes u hu v hv w hw x hx
  · rcases List.mem_cons.mp hu with rfl | hu
    · cases hw
    · exact hi.mixed u hu w hw
  · rcases List.mem_cons.mp hu with rfl | hu
    · cases hw
    · exact hi.types u hu w hw

theorem invariant_commitUpload (hu : u ∈ s.uploads) (hi : Invariant s) :
    Invariant (commitUpload u s) := by
  have hd : Invariant (dropUpload u s) := invariant_dropUpload hi
  -- a written row is one-time exactly when its write is
  have hwritten : ∀ r ∈ (commitUpload u s).rows, (∃ w ∈ u.writes, w.place = r.place) →
      ∃ w ∈ u.writes, w.place = r.place ∧ r.publicKey = w.publicKey ∧ r.lastResort = w.lastResort := by
    rintro r hr ⟨w', hw', hplace'⟩
    rcases foldl_writes hr with ⟨-, hother⟩ | ⟨w, hw, hplace, hkey, -, htype⟩
    · exact absurd hplace' (hother w' hw')
    · refine ⟨w, hw, hplace, hkey, ?_⟩
      rcases htype with ⟨y, hy, hyplace, hlast⟩ | ⟨y, hy, hyplace, hlast⟩
      · exact hlast.trans ((hi.types u hu w hw).1 y hy (hyplace.trans hplace.symm))
      · exact hlast.trans ((hi.types u hu w hw).2 y hy (hyplace.trans hplace.symm))
  have hcases : ∀ r ∈ (commitUpload u s).rows, (r ∈ s.rows ∧ ∀ w ∈ u.writes, w.place ≠ r.place) ∨
      ∃ w ∈ u.writes, w.place = r.place ∧ r.publicKey = w.publicKey ∧ r.lastResort = w.lastResort := by
    intro r hr
    rcases foldl_writes hr with hold | ⟨w, hw, hplace, -⟩
    · exact .inl hold
    · exact .inr (hwritten r hr ⟨w, hw, hplace⟩)
  have hoffers : ∀ {kind key id}, Offers (commitUpload u s) kind key id → Offers s kind key id := by
    rintro kind key id (⟨r, hr, rfl, rfl, rfl, hlast, hfree⟩ | ⟨v, hv, hw⟩)
    · rcases hcases r hr with ⟨hold, -⟩ | ⟨w, hw, hplace, hkey, hwlast⟩
      · exact .row hold hlast hfree
      · obtain ⟨hkind, hid⟩ := Prod.mk.inj hplace
        rw [hkey, ← hkind, ← hid]
        exact .upload hu hw (hwlast.symm.trans hlast)
    · exact .inr ⟨v, (mem_dropUpload hv).1, hw⟩
  refine { hd with
    places := foldl_distinct hi.places
    taken := fun b hb hopen r hr => ?_
    types := fun v hv w hw => ⟨fun r hr hplace => ?_, (hd.types v hv w hw).2⟩
    fresh := fun kind key id h => hi.fresh kind key id (hoffers h)
    apart := fun kind key id id' h h' => hi.apart kind key id id' (hoffers h) (hoffers h') }
  · obtain ⟨hrow, hrest⟩ := hi.taken b hb hopen r hr
    refine ⟨foldl_kept hrow fun w hw heq => ?_, hrest⟩
    exact hi.mixed u hu w hw ⟨b, hb, hopen, r, hr, heq.symm⟩
  · obtain ⟨hv', hne⟩ := mem_dropUpload hv
    rcases hcases r hr with ⟨hold, -⟩ | ⟨x, hx, hxplace, -⟩
    · exact (hi.types v hv' w hw).1 r hold hplace
    · exact absurd (hi.writes v hv' u hu w hw x hx (hplace.symm.trans hxplace.symm)) hne

/-- An upsert takes the type that the row has, if there is one. -/
theorem typeAt_eq (hu : u ∈ s.uploads) (hi : Invariant s) :
    (∀ r ∈ s.rows, r.place = w.place → r.lastResort = typeAt s u w) ∧
      ∀ x ∈ u.writes, x.place = w.place → x.lastResort = typeAt s u w := by
  unfold typeAt
  cases hrow : s.rows.find? (·.place = w.place) with
  | some y =>
    have hy := List.mem_of_find?_eq_some hrow
    have hplace : y.place = w.place := by simpa using List.find?_some hrow
    refine ⟨fun r hr heq => ?_, fun x hx heq => ?_⟩
    · rw [hi.places r hr y hy (heq.trans hplace.symm)]
    · exact ((hi.types u hu x hx).1 y hy (hplace.trans heq.symm)).symm
  | none =>
    refine ⟨fun r hr heq => absurd heq (by simpa using List.find?_eq_none.mp hrow r hr), fun x hx heq => ?_⟩
    dsimp only
    cases hwrite : u.writes.find? (·.place = w.place) with
    | some y =>
      have hy := List.mem_of_find?_eq_some hwrite
      have hplace : y.place = w.place := by simpa using List.find?_some hwrite
      exact (hi.types u hu y hy).2 x hx (heq.trans hplace.symm)
    | none => exact absurd heq (by simpa using List.find?_eq_none.mp hwrite x hx)

theorem invariant_upsert (hu : u ∈ s.uploads)
    (hfree : ¬Written (s.uploads.filter fun x => x.id ≠ u.id) w.place)
    (htaken : ¬Taken s.bundles w.place) (hcareful : Careful s (.upsert u w)) (hi : Invariant s) :
    Invariant (upsert u w s) := by
  obtain ⟨hrows, hwrites⟩ := typeAt_eq (w := w) hu hi
  have hmem : ∀ v ∈ (upsert u w s).uploads, ∀ x ∈ v.writes,
      (∃ y ∈ s.uploads, y.id = v.id ∧ x ∈ y.writes) ∨
        (v.id = u.id ∧ x = { w with lastResort := typeAt s u w }) := by
    intro v hv x hx
    rcases mem_putUpload hv with rfl | ⟨hv, -⟩
    · rcases List.mem_append.mp hx with hx | hx
      · exact .inl ⟨u, hu, rfl, hx⟩
      · exact .inr ⟨rfl, List.mem_singleton.mp hx⟩
    · exact .inl ⟨v, hv, rfl, hx⟩
  have hother : ∀ v ∈ s.uploads, ∀ x ∈ v.writes, x.place = w.place → v.id = u.id := by
    intro v hv x hx heq
    by_contra hne
    exact hfree ⟨v, List.mem_filter.mpr ⟨hv, decide_eq_true hne⟩, x, hx, heq⟩
  have hoffers : ∀ {kind key id}, Offers (upsert u w s) kind key id → Offers s kind key id ∨
      (typeAt s u w = false ∧ kind = w.kind ∧ key = w.publicKey ∧ id = w.id) := by
    rintro kind key id (hrow | ⟨v, hv, x, hx, rfl, rfl, rfl, hlast⟩)
    · exact .inl (.inl hrow)
    · rcases hmem v hv x hx with ⟨y, hy, -, hx⟩ | ⟨-, rfl⟩
      · exact .inl (.upload hy hx hlast)
      · exact .inr ⟨hlast, rfl, rfl, rfl⟩
  refine { hi with
    uploadIds := fun v hv y hy heq => ?_
    writes := fun v hv y hy x hx z hz heq => ?_
    mixed := fun v hv x hx => ?_
    types := fun v hv x hx => ?_
    fresh := fun kind key id h => ?_
    apart := fun kind key id id' h h' => ?_ }
  · rcases mem_putUpload hv with rfl | ⟨hv', hvne⟩ <;> rcases mem_putUpload hy with rfl | ⟨hy', hyne⟩
    · rfl
    · exact absurd heq.symm hyne
    · exact absurd heq hvne
    · exact hi.uploadIds v hv' y hy' heq
  · rcases hmem v hv x hx with ⟨v', hv', hvid, hx⟩ | ⟨hvid, rfl⟩ <;>
      rcases hmem y hy z hz with ⟨y', hy', hyid, hz⟩ | ⟨hyid, rfl⟩
    · exact hvid.symm.trans ((hi.writes v' hv' y' hy' x hx z hz heq).trans hyid)
    · exact hvid.symm.trans ((hother v' hv' x hx heq).trans hyid.symm)
    · exact hvid.trans ((hother y' hy' z hz heq.symm).symm.trans hyid)
    · exact hvid.trans hyid.symm
  · rcases hmem v hv x hx with ⟨y, hy, -, hx⟩ | ⟨-, rfl⟩
    · exact hi.mixed y hy x hx
    · exact htaken
  · rcases mem_putUpload hv with rfl | ⟨hv, -⟩
    · rcases List.mem_append.mp hx with hx | hx
      · refine ⟨(hi.types u hu x hx).1, fun z hz heq => ?_⟩
        rcases List.mem_append.mp hz with hz | hz
        · exact (hi.types u hu x hx).2 z hz heq
        · obtain rfl := List.mem_singleton.mp hz
          exact (hwrites x hx heq.symm).symm
      · obtain rfl := List.mem_singleton.mp hx
        refine ⟨hrows, fun z hz heq => ?_⟩
        rcases List.mem_append.mp hz with hz | hz
        · exact hwrites z hz heq
        · obtain rfl := List.mem_singleton.mp hz
          rfl
    · exact hi.types v hv x hx
  · rcases hoffers h with hold | ⟨htype, rfl, rfl, rfl⟩
    · exact hi.fresh kind key id hold
    · exact (hcareful htype).1
  · rcases hoffers h with hold | ⟨htype, rfl, rfl, rfl⟩ <;> rcases hoffers h' with hold' | ⟨htype', hk, hkey, hid⟩
    · exact hi.apart kind key id id' hold hold'
    · subst hk hkey hid
      exact (hcareful htype').2 id hold
    · exact ((hcareful htype).2 id' hold').symm
    · exact hid.symm

theorem settled_not_open (h : b.isOpen = true) : b.settled = false := by
  unfold Bundle.isOpen at h
  unfold Bundle.settled
  cases hs : b.stage <;> simp_all

/-- A bundle request is rewritten under its id. -/
theorem bundleIds_put {b' : Bundle} (hi : Invariant s) (hid : b'.id = b.id) :
    ∀ x ∈ (putBundle b' s).bundles, ∀ c ∈ (putBundle b' s).bundles, x.id = c.id → x = c := by
  intro x hx c hc heq
  rcases mem_putBundle hx with rfl | ⟨hx', hxne⟩ <;> rcases mem_putBundle hc with rfl | ⟨hc', hcne⟩
  · rfl
  · exact absurd heq.symm hcne
  · exact absurd heq hxne
  · exact hi.bundleIds x hx' c hc' heq

/-- A bundle request goes to a stage in which it holds no row, with what it had. -/
theorem Invariant.quiet {b' : Bundle} (hb : b ∈ s.bundles) (hi : Invariant s) (hid : b'.id = b.id)
    (hclosed : b'.isOpen = false)
    (hsame : b'.settled → b.settled ∧ b'.given = b.given ∧ b'.before = b.before ∧ b'.after = b.after)
    (hrolled : b'.stage = .rolledBack → b'.before = b'.after ∧ Distinct b'.after)
    (hfailed : b'.stage = .failed → b'.given = []) : Invariant (putBundle b' s) := by
  have hopen : ∀ c ∈ (putBundle b' s).bundles, c.isOpen → c ∈ s.bundles := by
    intro c hc hco
    rcases mem_putBundle hc with rfl | ⟨hc, -⟩
    · rw [hclosed] at hco
      cases hco
    · exact hc
  have hsettled : ∀ c ∈ (putBundle b' s).bundles, c.settled → ∃ y ∈ s.bundles, y.settled ∧
      y.id = c.id ∧ c.given = y.given ∧ c.before = y.before ∧ c.after = y.after := by
    intro c hc hcs
    rcases mem_putBundle hc with rfl | ⟨hc, -⟩
    · obtain ⟨hbs, hgiven, hbefore, hafter⟩ := hsame hcs
      exact ⟨b, hb, hbs, hid.symm, hgiven, hbefore, hafter⟩
    · exact ⟨c, hc, hcs, rfl, rfl, rfl, rfl⟩
  refine
    { places := hi.places
      uploadIds := hi.uploadIds
      bundleIds := bundleIds_put hi hid
      writes := hi.writes
      mixed := fun u hu w hw => ?_
      takes := fun c hc hco y hy hyo => hi.takes c (hopen c hc hco) hco y (hopen y hy hyo) hyo
      taken := fun c hc hco => hi.taken c (hopen c hc hco) hco
      types := hi.types
      fresh := fun kind key id h => ?_
      apart := hi.apart
      once := fun c hc hcs y hy hys r hr x hx => ?_
      consumes := fun c hc hcs r => ?_
      rolledBack := fun c hc hcs => ?_
      failed := fun c hc hcs => ?_ }
  · rintro ⟨c, hc, hco, hrest⟩
    exact hi.mixed u hu w hw ⟨c, hopen c hc hco, hco, hrest⟩
  · rintro ⟨c, hc, hcs, r, hr, hrest⟩
    obtain ⟨y, hy, hys, -, hgiven, -⟩ := hsettled c hc hcs
    exact hi.fresh kind key id h ⟨y, hy, hys, r, hgiven ▸ hr, hrest⟩
  · obtain ⟨c', hc', hcs', hcid, hcg, -⟩ := hsettled c hc hcs
    obtain ⟨y', hy', hys', hyid, hyg, -⟩ := hsettled y hy hys
    intro hkind hkey
    rw [← hcid, ← hyid]
    exact hi.once c' hc' hcs' y' hy' hys' r (hcg ▸ hr) x (hyg ▸ hx) hkind hkey
  · obtain ⟨y, hy, hys, -, hgiven, hbefore, hafter⟩ := hsettled c hc hcs
    rw [hgiven, hbefore, hafter]
    exact hi.consumes y hy hys r
  · rcases mem_putBundle hc with rfl | ⟨hc, -⟩
    · exact hrolled hcs
    · exact hi.rolledBack c hc hcs
  · rcases mem_putBundle hc with rfl | ⟨hc, -⟩
    · exact hfailed hcs
    · exact hi.failed c hc hcs

/-- A bundle request takes a row, or finds none. -/
theorem Invariant.take {b' : Bundle} {kind : Kind} {choice : Option Row} (hb : b ∈ s.bundles)
    (hi : Invariant s) (hbo : b.isOpen) (hpicks : Picks s kind choice) (hid : b'.id = b.id)
    (hopen : b'.isOpen) (hgiven : ∀ r ∈ b'.given, r ∈ b.given ∨ choice = some r) :
    Invariant (putBundle b' s) := by
  have hunsettled := settled_not_open hopen
  have hfree : ∀ r, choice = some r → r ∈ s.rows ∧ Available s kind r := by
    rintro r rfl
    exact ⟨hpicks.1, hpicks.2.1⟩
  have hopens : ∀ c ∈ (putBundle b' s).bundles, c.isOpen → ∃ y ∈ s.bundles, y.isOpen ∧ y.id = c.id ∧
      ∀ r ∈ c.given, r ∈ y.given ∨ (choice = some r ∧ c.id = b.id) := by
    intro c hc hco
    rcases mem_putBundle hc with rfl | ⟨hc, -⟩
    · exact ⟨b, hb, hbo, hid.symm, fun r hr => (hgiven r hr).imp_right fun h => ⟨h, hid⟩⟩
    · exact ⟨c, hc, hco, rfl, fun r hr => .inl hr⟩
  have hsettled : ∀ c ∈ (putBundle b' s).bundles, c.settled → c ∈ s.bundles := by
    intro c hc hcs
    rcases mem_putBundle hc with rfl | ⟨hc, -⟩
    · rw [hunsettled] at hcs
      cases hcs
    · exact hc
  have hstage : ∀ c ∈ (putBundle b' s).bundles, c.isOpen = false → c ∈ s.bundles := by
    intro c hc hcs
    rcases mem_putBundle hc with rfl | ⟨hc, -⟩
    · rw [hopen] at hcs
      cases hcs
    · exact hc
  refine
    { places := hi.places
      uploadIds := hi.uploadIds
      bundleIds := bundleIds_put hi hid
      writes := hi.writes
      mixed := fun u hu w hw => ?_
      takes := fun c hc hco y hy hyo r hr x hx heq => ?_
      taken := fun c hc hco r hr => ?_
      types := hi.types
      fresh := fun kind key id h => ?_
      apart := hi.apart
      once := fun c hc hcs y hy hys => hi.once c (hsettled c hc hcs) hcs y (hsettled y hy hys) hys
      consumes := fun c hc hcs => hi.consumes c (hsettled c hc hcs) hcs
      rolledBack := fun c hc hcs => hi.rolledBack c (hstage c hc (by simp [Bundle.isOpen, hcs])) hcs
      failed := fun c hc hcs => hi.failed c (hstage c hc (by simp [Bundle.isOpen, hcs])) hcs }
  · rintro ⟨c, hc, hco, r, hr, heq⟩
    obtain ⟨y, hy, hyo, -, hor⟩ := hopens c hc hco
    rcases hor r hr with hr | ⟨hr, -⟩
    · exact hi.mixed u hu w hw ⟨y, hy, hyo, r, hr, heq⟩
    · exact (hfree r hr).2.2.2.2.1 ⟨u, hu, w, hw, heq.symm⟩
  · obtain ⟨c', hc', hco', hcid, hcor⟩ := hopens c hc hco
    obtain ⟨y', hy', hyo', hyid, hyor⟩ := hopens y hy hyo
    rcases hcor r hr with hr | ⟨hr, hcb⟩ <;> rcases hyor x hx with hx | ⟨hx, hyb⟩
    · rw [← hcid, ← hyid]
      exact hi.takes c' hc' hco' y' hy' hyo' r hr x hx heq
    · exact absurd ⟨c', hc', hco', r, hr, heq⟩ (hfree x hx).2.2.2.2.2
    · exact absurd ⟨y', hy', hyo', x, hx, heq.symm⟩ (hfree r hr).2.2.2.2.2
    · exact hcb.trans hyb.symm
  · obtain ⟨y, hy, hyo, -, hor⟩ := hopens c hc hco
    rcases hor r hr with hr | ⟨hr, -⟩
    · exact hi.taken y hy hyo r hr
    · obtain ⟨hrow, -, hunconsumed, hlast, -⟩ := hfree r hr
      exact ⟨hrow, hlast, hunconsumed⟩
  · rintro ⟨c, hc, hcs, hrest⟩
    exact hi.fresh kind key id h ⟨c, hsettled c hc hcs, hcs, hrest⟩

theorem mem_mark {given rows : List Row} (h : r ∈ mark given rows) :
    (r ∈ rows ∧ ∀ g ∈ given, g.place ≠ r.place) ∨
      ∃ y ∈ rows, (∃ g ∈ given, g.place = y.place) ∧ r = { y with consumed := true } := by
  obtain ⟨y, hy, rfl⟩ := List.mem_map.mp h
  split
  · next hmarked =>
    obtain ⟨g, hg, hplace⟩ := List.any_eq_true.mp hmarked
    exact .inr ⟨y, hy, ⟨g, hg, of_decide_eq_true hplace⟩, rfl⟩
  · next hnot =>
    refine .inl ⟨hy, fun g hg hplace => hnot ?_⟩
    exact List.any_eq_true.mpr ⟨g, hg, decide_eq_true hplace⟩

theorem mark_kept {given rows : List Row} (hr : r ∈ rows) (hother : ∀ g ∈ given, g.place ≠ r.place) :
    r ∈ mark given rows := by
  refine List.mem_map.mpr ⟨r, hr, if_neg fun hmarked => ?_⟩
  obtain ⟨g, hg, hplace⟩ := List.any_eq_true.mp hmarked
  exact hother g hg (of_decide_eq_true hplace)

theorem mark_marked {given rows : List Row} (hr : r ∈ rows) (hg : r ∈ given) :
    { r with consumed := true } ∈ mark given rows :=
  List.mem_map.mpr ⟨r, hr, if_pos (List.any_eq_true.mpr ⟨r, hg, decide_eq_true rfl⟩)⟩

/-- Exactly the rows that are taken are consumed. -/
theorem mark_consumes {given rows : List Row} (hplaces : Distinct rows)
    (htaken : ∀ r ∈ given, r ∈ rows ∧ r.consumed = false) :
    Consumes rows (mark given rows) r ↔ r ∈ given := by
  constructor
  · rintro ⟨hr, hfree, x, hx, hplace, hconsumed⟩
    rcases mem_mark hx with ⟨hx, -⟩ | ⟨y, hy, ⟨g, hg, hgplace⟩, rfl⟩
    · rw [hplaces x hx r hr hplace] at hconsumed
      rw [hfree] at hconsumed
      cases hconsumed
    · rw [← hplaces g (htaken g hg).1 r hr (hgplace.trans hplace)]
      exact hg
  · intro hg
    obtain ⟨hr, hfree⟩ := htaken r hg
    exact ⟨hr, hfree, _, mark_marked hr hg, rfl, rfl⟩

theorem invariant_commitBundle (hb : b ∈ s.bundles) (hbo : b.isOpen) (hi : Invariant s) :
    Invariant (commitBundle b s) := by
  let b' : Bundle := { b with
    stage := .committed
    before := s.rows
    after := mark b.given s.rows }
  have htaken := hi.taken b hb hbo
  have hmem : ∀ c ∈ (commitBundle b s).bundles, c = b' ∨ (c ∈ s.bundles ∧ c.id ≠ b.id) :=
    fun c hc => mem_putBundle hc
  have hopen : ∀ c ∈ (commitBundle b s).bundles, c.isOpen → c ∈ s.bundles ∧ c.id ≠ b.id := by
    intro c hc hco
    rcases hmem c hc with rfl | hc
    · cases hco
    · exact hc
  have hoffers : ∀ {kind key id}, Offers (commitBundle b s) kind key id → Offers s kind key id ∧
      ∀ r ∈ b.given, r.place ≠ (kind, id) := by
    rintro kind key id (⟨r, hr, rfl, rfl, rfl, hlast, hfree⟩ | ⟨u, hu, w, hw, rfl, rfl, rfl, hlast⟩)
    · rcases mem_mark hr with ⟨hr, hother⟩ | ⟨y, -, -, rfl⟩
      · exact ⟨.row hr hlast hfree, hother⟩
      · cases hfree
    · refine ⟨.upload hu hw hlast, fun r hr hplace => ?_⟩
      exact hi.mixed u hu w hw ⟨b, hb, hbo, r, hr, hplace⟩
  have hown : ∀ r ∈ b.given, Offers s r.kind r.publicKey r.id := fun r hr =>
    .row (htaken r hr).1 (htaken r hr).2.1 (htaken r hr).2.2
  have hhanded : ∀ c ∈ s.bundles, c.settled → ∀ x ∈ c.given, ∀ r ∈ b.given, x.kind = r.kind →
      x.publicKey ≠ r.publicKey :=
    fun c hc hcs x hx r hr hkind hkey =>
      hi.fresh r.kind r.publicKey r.id (hown r hr) ⟨c, hc, hcs, x, hx, hkind, hkey⟩
  refine
    { places := fun r hr x hx heq => ?_
      uploadIds := hi.uploadIds
      bundleIds := bundleIds_put hi rfl
      writes := hi.writes
      mixed := fun u hu w hw => ?_
      takes := fun c hc hco y hy hyo => hi.takes c (hopen c hc hco).1 hco y (hopen y hy hyo).1 hyo
      taken := fun c hc hco r hr => ?_
      types := fun u hu w hw => ⟨fun r hr hplace => ?_, (hi.types u hu w hw).2⟩
      fresh := fun kind key id h => ?_
      apart := fun kind key id id' h h' => hi.apart kind key id id' (hoffers h).1 (hoffers h').1
      once := fun c hc hcs y hy hys r hr x hx hkind hkey => ?_
      consumes := fun c hc hcs r => ?_
      rolledBack := fun c hc hcs => ?_
      failed := fun c hc hcs => ?_ }
  · obtain ⟨y, hy, rfl⟩ := List.mem_map.mp hr
    obtain ⟨z, hz, rfl⟩ := List.mem_map.mp hx
    have hyz : y.place = z.place := by
      split_ifs at heq <;> exact heq
    rw [hi.places y hy z hz hyz]
  · rintro ⟨c, hc, hco, hrest⟩
    exact hi.mixed u hu w hw ⟨c, (hopen c hc hco).1, hco, hrest⟩
  · obtain ⟨hc', hne⟩ := hopen c hc hco
    obtain ⟨hrow, hrest⟩ := hi.taken c hc' hco r hr
    exact ⟨mark_kept hrow fun g hg hplace => hne (hi.takes c hc' hco b hb hbo r hr g hg hplace.symm),
      hrest⟩
  · rcases mem_mark hr with ⟨hr, -⟩ | ⟨y, hy, -, rfl⟩
    · exact (hi.types u hu w hw).1 r hr hplace
    · exact (hi.types u hu w hw).1 y hy hplace
  · obtain ⟨hold, hother⟩ := hoffers h
    rintro ⟨c, hc, hcs, r, hr, rfl, rfl⟩
    rcases hmem c hc with rfl | ⟨hc, -⟩
    · have hid := hi.apart r.kind r.publicKey id r.id hold (hown r hr)
      exact hother r hr (by rw [hid]; rfl)
    · exact hi.fresh r.kind r.publicKey id hold ⟨c, hc, hcs, r, hr, rfl, rfl⟩
  · rcases hmem c hc with rfl | ⟨hc, -⟩ <;> rcases hmem y hy with rfl | ⟨hy, -⟩
    · rfl
    · exact absurd hkey.symm (hhanded y hy hys x hx r hr hkind.symm)
    · exact absurd hkey (hhanded c hc hcs r hr x hx hkind)
    · exact hi.once c hc hcs y hy hys r hr x hx hkind hkey
  · rcases hmem c hc with rfl | ⟨hc, -⟩
    · exact mark_consumes hi.places fun x hx => ⟨(htaken x hx).1, (htaken x hx).2.2⟩
    · exact hi.consumes c hc hcs r
  · rcases hmem c hc with rfl | ⟨hc, -⟩
    · cases hcs
    · exact hi.rolledBack c hc hcs
  · rcases hmem c hc with rfl | ⟨hc, -⟩
    · cases hcs
    · exact hi.failed c hc hcs

theorem invariant_beginBundle {id : Nat} (hid : ∀ b ∈ s.bundles, b.id ≠ id) (hi : Invariant s) :
    Invariant { s with bundles := ⟨id, .began, none, none, [], []⟩ :: s.bundles } := by
  have hold : ∀ c ∈ (⟨id, .began, none, none, [], []⟩ :: s.bundles : List Bundle),
      c.given ≠ [] → c ∈ s.bundles := by
    intro c hc hgiven
    rcases List.mem_cons.mp hc with rfl | hc
    · exact absurd rfl hgiven
    · exact hc
  have hclosed : ∀ c ∈ (⟨id, .began, none, none, [], []⟩ :: s.bundles : List Bundle),
      c.isOpen = false → c ∈ s.bundles := by
    intro c hc hco
    rcases List.mem_cons.mp hc with rfl | hc
    · cases hco
    · exact hc
  have hsettled : ∀ c ∈ (⟨id, .began, none, none, [], []⟩ :: s.bundles : List Bundle),
      c.settled → c ∈ s.bundles := by
    intro c hc hcs
    rcases List.mem_cons.mp hc with rfl | hc
    · cases hcs
    · exact hc
  refine
    { places := hi.places
      uploadIds := hi.uploadIds
      bundleIds := fun b hb c hc heq => ?_
      writes := hi.writes
      mixed := fun u hu w hw => ?_
      takes := fun c hc hco y hy hyo r hr x hx => hi.takes c (hold c hc (List.ne_nil_of_mem hr)) hco
        y (hold y hy (List.ne_nil_of_mem hx)) hyo r hr x hx
      taken := fun c hc hco r hr => hi.taken c (hold c hc (List.ne_nil_of_mem hr)) hco r hr
      types := hi.types
      fresh := fun kind key id h => ?_
      apart := hi.apart
      once := fun c hc hcs y hy hys => hi.once c (hsettled c hc hcs) hcs y (hsettled y hy hys) hys
      consumes := fun c hc hcs => hi.consumes c (hsettled c hc hcs) hcs
      rolledBack := fun c hc hcs => hi.rolledBack c (hclosed c hc (by simp [Bundle.isOpen, hcs])) hcs
      failed := fun c hc hcs => hi.failed c (hclosed c hc (by simp [Bundle.isOpen, hcs])) hcs }
  · rcases List.mem_cons.mp hb with rfl | hb <;> rcases List.mem_cons.mp hc with rfl | hc
    · rfl
    · exact absurd heq.symm (hid c hc)
    · exact absurd heq (hid b hb)
    · exact hi.bundleIds b hb c hc heq
  · rintro ⟨c, hc, hco, r, hr, heq⟩
    exact hi.mixed u hu w hw ⟨c, hold c hc (List.ne_nil_of_mem hr), hco, r, hr, heq⟩
  · rintro ⟨c, hc, hcs, hrest⟩
    exact hi.fresh kind key id h ⟨c, hsettled c hc hcs, hcs, hrest⟩

end Steps

theorem next_invariant {s : State} {e : Event} (hi : Invariant s) (he : Enabled s e)
    (hc : Careful s e) : Invariant (next s e) := by
  cases e with
  | beginUpload id now => exact invariant_beginUpload he hi
  | upsert u w => exact invariant_upsert he.1 he.2.1 he.2.2 hc hi
  | commitUpload u => exact invariant_commitUpload he hi
  | dropUpload u => exact invariant_dropUpload hi
  | beginBundle id => exact invariant_beginBundle he hi
  | takeClassical b choice =>
    obtain ⟨hb, hstage, hpicks⟩ := he
    refine Invariant.take hb hi (by simp [Bundle.isOpen, hstage]) hpicks rfl rfl fun r hr => ?_
    rcases List.mem_append.mp hr with hr | hr
    · exact .inr (Option.mem_toList.mp hr)
    · exact .inl (List.mem_append_right _ hr)
  | takePq b choice =>
    obtain ⟨hb, hstage, hpicks⟩ := he
    refine Invariant.take hb hi (by simp [Bundle.isOpen, hstage]) hpicks rfl rfl fun r hr => ?_
    rcases List.mem_append.mp hr with hr | hr
    · exact .inl (List.mem_append_left _ hr)
    · exact .inr (Option.mem_toList.mp hr)
  | commitBundle b => exact invariant_commitBundle he.1 (by simp [Bundle.isOpen, he.2.1]) hi
  | rollback b =>
    exact hi.quiet he.1 rfl rfl (fun h => by cases h) (fun _ => ⟨rfl, hi.places⟩)
      fun h => by cases h
  | answer b =>
    have hsettled : b.settled = true := by simp [Bundle.settled, he.2]
    exact hi.quiet he.1 rfl rfl (fun _ => ⟨hsettled, rfl, rfl, rfl⟩) (fun h => by cases h) fun h => by cases h
  | countFailed b =>
    have hsettled : b.settled = true := by simp [Bundle.settled, he.2]
    exact hi.quiet he.1 rfl rfl (fun _ => ⟨hsettled, rfl, rfl, rfl⟩) (fun h => by cases h) fun _ => hc

theorem Invariant.handedOnce {s : State} (hi : Invariant s) : HandedOnce s where
  once b hb hbs c hc hcs r hr x hx hkind hkey := by
    have hsettled : ∀ y : Bundle, y.stage = .answered → y.settled := fun y h => by simp [Bundle.settled, h]
    exact hi.bundleIds b hb c hc (hi.once b hb (hsettled b hbs) c hc (hsettled c hcs) r hr x hx hkind hkey)
  failed b hb hend r := by
    rcases hend with hrolled | hfailed
    · obtain ⟨hsame, hdistinct⟩ := hi.rolledBack b hb hrolled
      rintro ⟨hr, hfree, x, hx, hplace, hconsumed⟩
      rw [hsame] at hr
      rw [hdistinct x hx r hr hplace, hfree] at hconsumed
      cases hconsumed
    · rw [hi.consumes b hb (by simp [Bundle.settled, hfailed]), hi.failed b hb hfailed]
      exact List.not_mem_nil
  answered b hb hbs := hi.consumes b hb (by simp [Bundle.settled, hbs])

/-- While uploads are careful, one-time keys are handed out once. -/
theorem prekeys_handed_once {s : State} (h : Reachable (system.Within Careful) s) : HandedOnce s := by
  refine (reachable_invariant (I := Invariant) (fun t ht => ?_) (fun t e hi he => ?_) h).handedOnce
  · obtain rfl : t = _ := ht
    exact
      { places := fun _ hr => by cases hr
        uploadIds := fun _ hu => by cases hu
        bundleIds := fun _ hb => by cases hb
        writes := fun _ hu => by cases hu
        mixed := fun _ hu => by cases hu
        takes := fun _ hb => by cases hb
        taken := fun _ hb => by cases hb
        types := fun _ hu => by cases hu
        fresh := fun _ _ _ _ ⟨_, hb, _⟩ => by cases hb
        apart := fun _ _ _ _ hoffers _ => by
          rcases hoffers with ⟨_, hr, _⟩ | ⟨_, hu, _⟩
          · cases hr
          · cases hu
        once := fun _ hb => by cases hb
        consumes := fun _ hb => by cases hb
        rolledBack := fun _ hb => by cases hb
        failed := fun _ hb => by cases hb }
  · exact next_invariant hi he.1 he.2

section Retry

instance (s : State) (kind : Kind) (choice : Option Row) : Decidable (Picks s kind choice) :=
  match choice with
  | some r => inferInstanceAs (Decidable (r ∈ s.rows ∧ Available s kind r ∧
      ∀ x ∈ s.rows, Available s kind x → r.uploadedAt ≤ x.uploadedAt))
  | none => inferInstanceAs (Decidable (∀ x ∈ s.rows, ¬Available s kind x))

instance (s : State) (e : Event) : Decidable (Enabled s e) :=
  match e with
  | .beginUpload id _ => inferInstanceAs (Decidable (∀ u ∈ s.uploads, u.id ≠ id))
  | .upsert u w => inferInstanceAs (Decidable (u ∈ s.uploads ∧
      ¬Written (s.uploads.filter fun x => x.id ≠ u.id) w.place ∧ ¬Taken s.bundles w.place))
  | .commitUpload u => inferInstanceAs (Decidable (u ∈ s.uploads))
  | .dropUpload u => inferInstanceAs (Decidable (u ∈ s.uploads))
  | .beginBundle id => inferInstanceAs (Decidable (∀ b ∈ s.bundles, b.id ≠ id))
  | .takeClassical b choice =>
    inferInstanceAs (Decidable (b ∈ s.bundles ∧ b.stage = .began ∧ Picks s .classical choice))
  | .takePq b choice =>
    inferInstanceAs (Decidable (b ∈ s.bundles ∧ b.stage = .tookClassical ∧ Picks s .pq choice))
  | .commitBundle b => inferInstanceAs (Decidable (b ∈ s.bundles ∧ b.stage = .tookPq ∧
      ∃ r ∈ s.rows, r.kind = .pq ∧ r.lastResort = true))
  | .rollback b => inferInstanceAs (Decidable (b ∈ s.bundles ∧ b.isOpen = true))
  | .answer b => inferInstanceAs (Decidable (b ∈ s.bundles ∧ b.stage = .committed))
  | .countFailed b => inferInstanceAs (Decidable (b ∈ s.bundles ∧ b.stage = .committed))

/-- One classical key and the last-resort key. -/
def curve : Write := ⟨.classical, 1, "curve-key-1", "", false⟩

def kyber : Write := ⟨.pq, 1, "kyber-key-1", "signature", true⟩

def curveRow : Row := ⟨.classical, 1, "curve-key-1", "", false, false, 0⟩

def kyberRow : Row := ⟨.pq, 1, "kyber-key-1", "signature", true, false, 0⟩

/-- The first upload. -/
def registration : List Event :=
  [.beginUpload 0 0, .upsert ⟨0, 0, []⟩ curve, .upsert ⟨0, 0, [curve]⟩ kyber,
    .commitUpload ⟨0, 0, [curve, kyber]⟩]

/-- A bundle request that returns the key. -/
def request (id : Nat) : List Event :=
  [.beginBundle id, .takeClassical ⟨id, .began, none, none, [], []⟩ (some curveRow),
    .takePq ⟨id, .tookClassical, some curveRow, none, [], []⟩ none,
    .commitBundle ⟨id, .tookPq, some curveRow, none, [], []⟩,
    .answer ⟨id, .committed, some curveRow, none, [curveRow, kyberRow],
      [{ curveRow with consumed := true }, kyberRow]⟩]

def answered (id : Nat) : Bundle :=
  ⟨id, .answered, some curveRow, none, [curveRow, kyberRow],
    [{ curveRow with consumed := true }, kyberRow]⟩

/-- The upload is sent again, its response having been lost. -/
def retried : List Event :=
  [.beginUpload 1 5, .upsert ⟨1, 5, []⟩ curve, .commitUpload ⟨1, 5, [curve]⟩]

def trace : List Event := registration ++ (request 1 ++ (retried ++ request 2))

def empty : State := ⟨[], [], []⟩

instance (s : State) (kind : Kind) (key : String) : Decidable (Handed s kind key) :=
  inferInstanceAs (Decidable (∃ b ∈ s.bundles, _))

instance (s : State) (kind : Kind) (key : String) (id : Nat) :
    Decidable (∀ id', Offers s kind key id' → id' = id) :=
  decidable_of_iff
    ((∀ r ∈ s.rows, r.kind = kind ∧ r.publicKey = key ∧ r.lastResort = false ∧ r.consumed = false →
        r.id = id) ∧
      ∀ u ∈ s.uploads, ∀ w ∈ u.writes, w.kind = kind ∧ w.publicKey = key ∧ w.lastResort = false →
        w.id = id) <| by
    constructor
    · rintro ⟨hrows, huploads⟩ id' (⟨r, hr, hkind, hkey, rfl, hrest⟩ | ⟨u, hu, w, hw, hkind, hkey, rfl, hrest⟩)
      · exact hrows r hr ⟨hkind, hkey, hrest⟩
      · exact huploads u hu w hw ⟨hkind, hkey, hrest⟩
    · intro h
      exact ⟨fun r hr ⟨hkind, hkey, hrest⟩ => h r.id (.inl ⟨r, hr, hkind, hkey, rfl, hrest⟩),
        fun u hu w hw ⟨hkind, hkey, hrest⟩ => h w.id (.inr ⟨u, hu, w, hw, hkind, hkey, rfl, hrest⟩)⟩

instance (s : State) (e : Event) : Decidable (Careful s e) :=
  match e with
  | .upsert u w => inferInstanceAs (Decidable (typeAt s u w = false → ¬Handed s w.kind w.publicKey ∧
      ∀ id, Offers s w.kind w.publicKey id → id = w.id))
  | .countFailed b => inferInstanceAs (Decidable (b.given = []))
  | .beginUpload _ _ => isTrue trivial
  | .commitUpload _ => isTrue trivial
  | .dropUpload _ => isTrue trivial
  | .beginBundle _ => isTrue trivial
  | .takeClassical _ _ => isTrue trivial
  | .takePq _ _ => isTrue trivial
  | .commitBundle _ => isTrue trivial
  | .rollback _ => isTrue trivial
  | .answer _ => isTrue trivial

theorem request_once :
    HandedOnce (system.replay empty (registration ++ request 1)) ∧ answered 1 ∈
      (system.replay empty (registration ++ request 1)).bundles := by
  have hvalid : (system.Within Careful).Valid empty (registration ++ request 1) := by
    simp only [registration, request, List.cons_append, List.nil_append, System.Valid, System.Within,
      system]
    decide +kernel
  exact ⟨prekeys_handed_once (valid_trace_reachable (reachable_initial rfl) hvalid), by decide +kernel⟩

theorem retried_handed_twice :
    Reachable system (system.replay empty trace) ∧ ¬HandedOnce (system.replay empty trace) := by
  have hvalid : system.Valid empty trace := by
    simp only [trace, registration, request, retried, List.cons_append, List.nil_append, System.Valid,
      system]
    decide +kernel
  refine ⟨valid_trace_reachable (reachable_initial rfl) hvalid, fun h => ?_⟩
  have hone : answered 1 ∈ (system.replay empty trace).bundles := by decide +kernel
  have htwo : answered 2 ∈ (system.replay empty trace).bundles := by decide +kernel
  have hsame := h.once _ hone rfl _ htwo rfl curveRow List.mem_cons_self curveRow List.mem_cons_self rfl rfl
  exact absurd (congrArg Bundle.id hsame) (by decide)

end Retry

end PrekeyBundles
