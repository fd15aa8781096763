import Mathlib.Data.List.Nodup

/-! # What the directory of a vault holds

Both clients keep a vault as a directory: the database and its attachments, the local
shares of the split that wraps its key, and a configuration naming that split by the
hashes of its shares. A tree is written file by file; `Whole` says that the files are
those of one split. -/
namespace VaultTree

/-- The split a file belongs to: the vault's present one or the one to replace it. -/
inductive Provisioning where
  | previous
  | next
  deriving DecidableEq, Repr

/-- `shard7Mode==='external'`, `cloudBackupEnabled` and `backupVersion` of the config. -/
structure Config where
  provisioning : Provisioning
  external : Bool
  cloudBackup : Bool
  backupVersion : Nat
  deriving DecidableEq, Repr

inductive Path where
  | config
  | database
  | f1
  | metadata
  | f3
  | f4
  | f6
  | attachment (name : String)
  deriving DecidableEq, Repr

inductive Content where
  | config (c : Config)
  | share (p : Provisioning)
  | bytes (b : List UInt8)
  deriving DecidableEq, Repr

structure StoredFile where
  path : Path
  content : Content
  deriving DecidableEq, Repr

/-- The files of a directory in the order a listing gives them. -/
abbrev Tree := List StoredFile

/-- What a stage holds after each of its file operations, and once it is complete. -/
structure Staging where
  progress : Nat → Tree
  full : Tree

inductive Write where
  | put (path : Path) (content : Content)
  | erase (path : Path)
  deriving DecidableEq, Repr

/-- The data of a vault; a record has each attachment once. -/
structure Snapshot where
  database : List UInt8
  attachments : List (String × List UInt8)
  distinct : (attachments.map Prod.fst).Nodup

def fileAt (t : Tree) (path : Path) : Option Content :=
  (t.find? (fun f => decide (f.path = path))).map StoredFile.content

def Write.path : Write → Path
  | .put path _ => path
  | .erase path => path

def Write.content : Write → Option Content
  | .put _ content => some content
  | .erase _ => none

def remove (path : Path) (t : Tree) : Tree := t.filter (fun f => decide (f.path ≠ path))

def write (t : Tree) : Write → Tree
  | .put path content => ⟨path, content⟩ :: remove path t
  | .erase path => remove path t

def applyWrites (ws : List Write) (t : Tree) : Tree := ws.foldl write t

/-- A stage begun with a copy of a tree, or of nothing, and then written to. -/
def stagedFrom (t : Tree) (ws : List Write) : Staging :=
  ⟨fun n => applyWrites (ws.take (n - t.length)) (t.take n), applyWrites ws t⟩

def saveConfig (c : Config) (t : Tree) : Tree := write t (.put .config (.config c))

def configOf (t : Tree) : Option Config :=
  match fileAt t .config with
  | some (.config c) => some c
  | _ => none

/-- The files of one split and the data of one vault. Android keeps the third share in
its preferences, so the places of the shares are the client's. -/
structure Whole (shares : List Path) (c : Config) (v : Snapshot) (t : Tree) : Prop where
  config : fileAt t .config = some (.config c)
  shares : ∀ path ∈ shares, fileAt t path = some (.share c.provisioning)
  database : fileAt t .database = some (.bytes v.database)
  attachments : ∀ a ∈ v.attachments, fileAt t (.attachment a.1) = some (.bytes a.2)

section Files

variable {t : Tree} {path : Path} {c : Config} {v : Snapshot} {shares : List Path}

theorem fileAt_remove (p : Path) :
    fileAt (remove p t) path = if p = path then none else fileAt t path := by
  unfold fileAt remove
  rw [List.find?_filter]
  split
  · next h =>
    subst h
    rw [List.find?_eq_none.mpr]
    · rfl
    · intro f _
      simp
  · next h =>
    congr 2
    funext f
    by_cases hf : f.path = path
    · simp [hf, Ne.symm h]
    · simp [hf]

theorem fileAt_write (w : Write) :
    fileAt (write t w) path = if w.path = path then w.content else fileAt t path := by
  cases w with
  | put p content =>
    by_cases h : p = path
    · simp [write, fileAt, Write.path, Write.content, h]
    · have hcons : fileAt (⟨p, content⟩ :: remove p t) path = fileAt (remove p t) path := by
        simp [fileAt, h]
      change fileAt (⟨p, content⟩ :: remove p t) path = if p = path then some content else _
      rw [hcons, fileAt_remove, if_neg h, if_neg h]
  | erase p => exact fileAt_remove p

theorem applyWrites_append (ws us : List Write) :
    applyWrites (ws ++ us) t = applyWrites us (applyWrites ws t) :=
  List.foldl_append

/-- A file no write touches. -/
theorem fileAt_untouched {ws : List Write} (h : ∀ w ∈ ws, w.path ≠ path) :
    fileAt (applyWrites ws t) path = fileAt t path := by
  induction ws generalizing t with
  | nil => rfl
  | cons w rest ih =>
    have hrest : fileAt (applyWrites rest (write t w)) path = fileAt (write t w) path :=
      ih fun u hu => h u (List.mem_cons_of_mem w hu)
    rw [fileAt_write, if_neg (h w List.mem_cons_self)] at hrest
    exact hrest

/-- The last write to a file decides. -/
theorem fileAt_last {ws : List Write} {w : Write} {us : List Write}
    (h : ∀ u ∈ us, u.path ≠ w.path) :
    fileAt (applyWrites (ws ++ w :: us) t) w.path = w.content := by
  rw [applyWrites_append]
  change fileAt (applyWrites us (write _ w)) w.path = _
  rw [fileAt_untouched h, fileAt_write, if_pos rfl]

@[simp] theorem fileAt_saveConfig : fileAt (saveConfig c t) .config = some (.config c) := by
  unfold saveConfig
  rw [fileAt_write]
  rfl

theorem fileAt_saveConfig_other (h : path ≠ .config) :
    fileAt (saveConfig c t) path = fileAt t path := by
  unfold saveConfig
  rw [fileAt_write]
  exact if_neg h.symm

@[simp] theorem configOf_saveConfig : configOf (saveConfig c t) = some c := by
  simp [configOf]

/-- The configuration is the first file to go. -/
theorem fileAt_drop_saveConfig (n : Nat) :
    fileAt ((saveConfig c t).drop (n + 1)) .config = none := by
  unfold fileAt saveConfig write
  rw [List.drop_succ_cons, List.find?_eq_none.mpr]
  · rfl
  · intro f hf
    have := (List.mem_filter.mp (List.mem_of_mem_drop hf)).2
    simpa using this

theorem Whole.configOf (h : Whole shares c v t) : configOf t = some c := by
  unfold VaultTree.configOf
  rw [h.config]

/-- Saving a config that names the same split. -/
theorem Whole.saveConfig (h : Whole shares c v t) {d : Config}
    (hsplit : d.provisioning = c.provisioning) (hshares : Path.config ∉ shares) :
    Whole shares d v (saveConfig d t) := by
  refine ⟨fileAt_saveConfig, fun path hpath => ?_, ?_, fun a ha => ?_⟩
  · have hne : path ≠ .config := fun heq => hshares (heq ▸ hpath)
    rw [fileAt_saveConfig_other hne, hsplit]
    exact h.shares path hpath
  · rw [fileAt_saveConfig_other (by decide)]
    exact h.database
  · rw [fileAt_saveConfig_other (by simp)]
    exact h.attachments a ha

end Files

end VaultTree
