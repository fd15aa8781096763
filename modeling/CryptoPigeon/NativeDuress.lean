import CryptoPigeon.DuressOperations

/-! # The vaults and the decoys of the phone

The phone keeps several vaults, each under a handle, and looks for the one that the
credentials open. The preferences of the vault last opened hold the salt and the tag of its
duress id; a decoy is created in a stage, backed up, and moved to its place. -/
namespace NativeDuress

open FaultyProgram SevenShares DuressVault

/-- `legacy`, or the name of a directory under `managed`. -/
abbrev Handle := String

def legacy : Handle := "legacy"

/-- The `entries` of `NativeVaultCatalog`; another id has another tag there. -/
abbrev Entries := List (String × List Handle)

/-- The vault of the first version is tried until an id has opened it. -/
def candidates (entries : Entries) (id : String) : List Handle :=
  let selected := ((entries.lookup id).getD []).reverse
  if entries.any (fun e => e.2.contains legacy) || selected.contains legacy then selected
  else selected ++ [legacy]

def select (id : String) (h : Handle) (entries : Entries) : Entries :=
  let handles := (entries.lookup id).getD []
  (id, if handles.contains h then handles else handles ++ [h]) :: entries.filter fun e => e.1 ≠ id

/-- `duressPrefs`. -/
structure Preferences where
  salt : Option String
  tag : Option String
  deriving DecidableEq, Repr

/-- The body of `vault/open`. -/
structure Request where
  vaultId : String
  password : String
  clientShards : List (Handle × Share)
  clientShard : Option Share
  decoyClientShard : Option Share
  shard7Payload : Option Sealed
  deriving DecidableEq, Repr

def browserShard (q : Request) (h : Handle) : Option Share :=
  match q.clientShards.lookup h with
  | some share => some share
  | none => if h = legacy then q.clientShard else none

/-- What the vault at a handle is opened with. -/
def Request.at (q : Request) (h : Handle) : Credentials :=
  ⟨q.vaultId, q.password, browserShard q h, none, q.shard7Payload⟩

def credentials (k : Keys) : Bool :=
  decide (8 ≤ utf16Length k.vaultId) && decide (utf16Length k.vaultId ≤ 256) &&
    decide (12 ≤ utf16Length k.password) && decide (utf16Length k.password ≤ 1024)

/-- `initialize` takes no vault whose creation is pending. -/
def existing : Option Config → Option Config
  | some (.secure c) => if c.creationPending then none else some (.secure c)
  | _ => none

/-- `new NativeVault(context,root,relay)`. -/
def loadVault (f : Directory) (relay : Relay) : Vault :=
  ⟨f, { Session.closed with config := existing f.config }, relay⟩

structure OpenFaults where
  load : Fault
  read : Fault
  save : Fault
  select : Fault
  deriving DecidableEq, Repr

def adoptCapsule (cr : Credentials) (vmk : Vmk) (v : Vault) : Vault :=
  { v with session := { v.session with
      keys := some cr.keys, vmk := some vmk, remoteFragment7 := cr.shard7Payload } }

/-- `NativeVault.open`: the version of the backup is saved with what was opened. -/
def nativeOpen (C : Crypto) (cr : Credentials) (F : OpenFaults) : Program Vault Unit := do
  attempt F.read
  let v ← read
  match v.session.config with
  | some (.secure c) =>
    if credentials cr.keys = false then throwing
    else
      match openingSecure C c v.files v.relay cr with
      | none => throwing
      | some vmk => do
        update (openDb vmk)
        if c.external then update (adoptCapsule cr vmk)
        else
          match v.relay cr.keys with
          | none => throwing
          | some r => do
            update (adoptRecord cr vmk c r)
            orElse (atomically saveConfig F.save) (do update lockVault; throwing)
  | _ => throwing

structure NativeCreateFaults where
  download : Fault
  provision : Fault
  openDb : Fault
  sync : SyncFaults
  install : Fault
  verify : Fault
  deriving DecidableEq, Repr

/-- A vault of its own beside the root, with the same relay. -/
def staged {α : Type} : Program Vault α → Program Vault α :=
  within (fun v => ⟨.empty, .closed, v.relay⟩) fun s v => { v with relay := s.relay }

def stageVault (C : Crypto) (k : Keys) (N : Entropy) (F : NativeCreateFaults) :
    Program Vault Directory := do
  provision C k N F.provision
  createDb N.vmk F.openDb
  update (setConfig { freshConfig C k N with cloudBackupEnabled := true })
  syncBackup F.sync
  let s ← read
  done s.files

def install (f : Directory) (v : Vault) : Vault := { v with files := f }

/-- The credentials of a vault that was just created. -/
def holder (k : Keys) (client : Share) : Credentials :=
  ⟨k.vaultId, k.password, some client, none, none⟩

def adoptCreated (k : Keys) (vmk : Vmk) (v : Vault) : Vault :=
  { v with session := ⟨existing v.files.config, some k, some vmk, true, none,
      (v.relay k).bind Record.fragment7⟩ }

/-- `NativeVault.create`. Once the journal is written, the next load finishes the commit. -/
def nativeCreate (C : Crypto) (k : Keys) (N : Entropy) (F : NativeCreateFaults) :
    Program Vault Share := do
  requireUnused k F.download
  let files ← staged (stageVault C k N F)
  gradually (fun n => if n = 0 then id else install files) (install files) F.install
  attempt F.verify
  let v ← read
  if opening C (existing v.files.config) v.files v.relay (holder k (N.split C k).webView) =
      some N.vmk then do
    update (adoptCreated k N.vmk)
    done (N.split C k).webView
  else throwing

structure NativeConfigureFaults where
  load : Fault
  create : NativeCreateFaults
  notes : Fault
  sync : SyncFaults
  commit : Fault
  deriving DecidableEq, Repr

def makeNativeDecoy (C : Crypto) (id : String) (N : Entropy) (F : NativeConfigureFaults) :
    Program Vault Share := do
  let v ← read
  if (existing v.files.config).isSome ∨ credentials (decoyKeys C id) = false ∨
      validatePasswordStrength (decoyPassword C id) = false then throwing
  else do
    let browser ← nativeCreate C (decoyKeys C id) N F.create
    atomically (insertRows notes) F.notes
    syncBackup F.sync
    done browser

/-- `NativeEngine`: the vaults by their handles, the decoys by the parent of the root they
were made for, and `vault` with the decoy it is, if `decoySession`. -/
structure Engine where
  vaults : Handle → Directory
  entries : Entries
  vaultHandle : Handle
  prefs : Handle → Preferences
  decoys : Bool → String → Directory
  decoy : Option String
  session : Session
  relay : Relay

/-- The directory the roots of the handle and its decoys are in. -/
def Engine.parent (e : Engine) : Bool := e.vaultHandle == legacy

def Engine.duressPrefs (e : Engine) : Preferences := e.prefs e.vaultHandle

def saltPrefix (p : Preferences) : String := "cp-duress-v1:" ++ p.salt.getD "" ++ ":"

def duressTag (C : Crypto) (id : String) (e : Engine) : String :=
  C.tagDigest (saltPrefix e.duressPrefs ++ id)

def Engine.active (e : Engine) : Vault :=
  match e.decoy with
  | none => ⟨e.vaults e.vaultHandle, e.session, e.relay⟩
  | some root => ⟨e.decoys e.parent root, e.session, e.relay⟩

def Engine.setDecoyAt (root : String) (v : Vault) (e : Engine) : Engine :=
  { e with
    decoys := Function.update e.decoys e.parent (Function.update (e.decoys e.parent) root v.files)
    relay := v.relay }

def Engine.setVaultAt (h : Handle) (v : Vault) (e : Engine) : Engine :=
  { e with vaults := Function.update e.vaults h v.files, relay := v.relay }

def Engine.setActive (v : Vault) (e : Engine) : Engine :=
  match e.decoy with
  | none => { e.setVaultAt e.vaultHandle v with session := v.session }
  | some root => { e.setDecoyAt root v with session := v.session }

def onActive {α : Type} : Program Vault α → Program Engine α :=
  within Engine.active Engine.setActive

def Engine.lock (e : Engine) : Engine := { e with session := e.session.lock }

/-- `syncAndLock`. -/
def lockEngine (F : SyncFaults) : Program Engine Unit := do
  let e ← read
  if e.session.unlocked = false then throwing
  else do
    orElse (onActive (syncBackup F)) (done ())
    update Engine.lock

def atVault {α : Type} (h : Handle) : Program Vault α → Program Engine α :=
  within (fun e => loadVault (e.vaults h) e.relay) (Engine.setVaultAt h)

def adoptVault (h : Handle) (s : Session) (e : Engine) : Engine :=
  { e with vaultHandle := h, session := s, decoy := none }

def setEntries (f : Entries → Entries) (e : Engine) : Engine := { e with entries := f e.entries }

def tryCandidate (C : Crypto) (q : Request) (h : Handle) (F : OpenFaults) : Program Engine Unit := do
  let session ← atVault h (do
    nativeOpen C (q.at h) F
    let v ← read
    done v.session)
  atomically (setEntries (select q.vaultId h)) F.select
  update (adoptVault h session)

def openCandidates (C : Crypto) (q : Request) (F : Handle → OpenFaults) :
    List Handle → Program Engine Unit
  | [] => throwing
  | h :: rest => do
    attempt (F h).load
    let e ← read
    if (existing (e.vaults h).config).isNone then openCandidates C q F rest
    else orElse (tryCandidate C q h (F h)) (openCandidates C q F rest)

structure EngineFaults where
  decoy : OpenFaults
  leave : Fault
  candidates : Handle → OpenFaults

def openVault (C : Crypto) (q : Request) (F : Handle → OpenFaults) : Program Engine Unit := do
  let e ← read
  if utf16Length q.vaultId < 8 ∨ 256 < utf16Length q.vaultId then throwing
  else openCandidates C q F (candidates e.entries q.vaultId)

def Engine.decoyAt (root : String) (e : Engine) : Vault := loadVault (e.decoys e.parent root) e.relay

def enterDecoy (root : String) (e : Engine) : Engine :=
  { e with decoy := some root, session := (e.decoyAt root).session }

def openDecoy (C : Crypto) (q : Request) (F : OpenFaults) : Program Engine Unit := do
  update Engine.lock
  attempt F.load
  update (fun e => enterDecoy (rootName (duressTag C q.vaultId e)) e)
  onActive (nativeOpen C (decoyCredentials C q.vaultId q.decoyClientShard) F)

/-- `vault=new NativeVault(context,vaultRoot,relay)`. -/
def reenter (e : Engine) : Engine :=
  { e with decoy := none, session := (loadVault (e.vaults e.vaultHandle) e.relay).session }

def leaveDecoy (fault : Fault) : Program Engine Unit := do
  let e ← read
  if e.decoy.isSome then atomically reenter fault else done ()

/-- `/api/vault/open`. -/
def openRoute (C : Crypto) (q : Request) (F : EngineFaults) : Program Engine Unit := do
  let e ← read
  if e.session.unlocked then throwing
  else if e.duressPrefs.tag = some (duressTag C q.vaultId e) then openDecoy C q F.decoy
  else do
    leaveDecoy F.leave
    openVault C q F.candidates

def setPrefs (f : Preferences → Preferences) (e : Engine) : Engine :=
  { e with prefs := Function.update e.prefs e.vaultHandle (f e.duressPrefs) }

def putSalt (salt : String) (p : Preferences) : Preferences :=
  { p with salt := some (p.salt.getD salt) }

def putTag (tag : String) (p : Preferences) : Preferences := { p with tag := some tag }

def atDecoy {α : Type} (root : String) : Program Vault α → Program Engine α :=
  within (Engine.decoyAt root) (Engine.setDecoyAt root)

/-- The tag is in the preferences even if `commit` fails to write them. -/
def configureDuress (C : Crypto) (id salt : String) (N : Entropy) (F : NativeConfigureFaults) :
    Program Engine Share := do
  let e ← read
  if e.session.unlocked = false then throwing
  else if e.decoy.isSome then throwing
  else if utf16Length id < 16 ∨ 256 < utf16Length id then throwing
  else do
    update (setPrefs (putSalt salt))
    let e ← read
    attempt F.load
    let browser ← atDecoy (rootName (duressTag C id e))
      (andFinally (makeNativeDecoy C id N F) (update lockVault))
    update (setPrefs (putTag (duressTag C id e)))
    attempt F.commit
    done browser

section Catalog

theorem mem_candidates_select (id : String) (h : Handle) (entries : Entries) :
    h ∈ candidates (select id h entries) id := by
  have hmem : h ∈ ((select id h entries).lookup id).getD [] := by
    unfold select
    rw [List.lookup_cons_self]
    change h ∈ if _ then _ else _
    split
    · next hc => exact List.contains_iff_mem.mp hc
    · exact List.mem_append_right _ (List.mem_singleton_self h)
  unfold candidates
  dsimp only
  split
  · exact List.mem_reverse.mpr hmem
  · exact List.mem_append_left _ (List.mem_reverse.mpr hmem)

end Catalog

section Operations

variable {C : Crypto} {cr : Credentials} {v : Vault} {k : Keys} {N : Entropy}

/-- An open that fails leaves nothing open and no file changed. -/
structure Left (v t : Vault) : Prop where
  files : t.files = v.files
  relay : t.relay = v.relay
  closed : t.session = t.session.lock

theorem Left.refl (hlocked : v.session = v.session.lock) : Left v v := ⟨rfl, rfl, hlocked⟩

theorem nativeOpen_spec {F : OpenFaults} (hdb : v.files.database.isSome)
    (hlocked : v.session = v.session.lock) :
    Triple (fun s => s = v) (nativeOpen C cr F)
      (fun _ t => Opened C cr v t ∧ credentials cr.keys = true) (Left v) (fun _ => True) := by
  obtain ⟨db, hdb⟩ := Option.isSome_iff_exists.mp hdb
  have hleft : ∀ s, s = v → Left v s := by
    rintro s rfl
    exact Left.refl hlocked
  refine Triple.bind (Q := fun _ s => s = v) (Triple.attempt_cases (fun _ _ h => h)
    (fun _ s h => hleft s h) fun _ _ _ => trivial) fun _ => Triple.read fun r hr => ?_
  subst hr
  have hrefused {α : Type} {Q : α → Vault → Prop} : Triple (fun s => s = r ∧ s = r)
      (throwing : Program Vault α) Q (Left r) (fun _ => True) :=
    Triple.throwing fun s hs => hleft s hs.1
  split
  · next c hc =>
    refine Triple.ite (fun _ => hrefused) fun hvalid => ?_
    cases hopen : openingSecure C c r.files r.relay cr with
    | none => exact hrefused
    | some vmk =>
      have hfiles := openDb_files hdb vmk
      have hshards : (openDb vmk r).files.shards = r.files.shards := congrArg _ hfiles
      have hdatabase : (openDb vmk r).files.database = r.files.database := congrArg _ hfiles
      have hexternal : r.session.external7 = none := congrArg Session.external7 hlocked
      have hopens : (opening C r.session.config r.files r.relay cr).isSome := by
        rw [hc]
        change (openingSecure C c r.files r.relay cr).isSome
        rw [hopen]
        rfl
      have hcredentials : credentials cr.keys = true := by simpa using hvalid
      refine Triple.bind (Q := fun _ s => s = openDb vmk r)
        (Triple.update fun s hs => by rw [hs.1]) fun _ => ?_
      refine Triple.ite (fun hfile => Triple.update ?_) fun hrecord => ?_
      · rintro s rfl
        refine ⟨⟨hopens, rfl, hshards, hdatabase, rfl, .inl ?_, rfl, ?_⟩, hcredentials⟩
        · exact congrArg (fun f : Directory => f.config.map Config.stripped) hfiles
        · refine ⟨fun _ _ => rfl, fun x hx hcloud => ?_, fun h => absurd hc (h c)⟩
          cases hc.symm.trans hx
          exact absurd (hfile.symm.trans hcloud) nofun
      · cases hremote : r.relay cr.keys with
        | none => simp [openingSecure, hrecord, hremote] at hopen
        | some x =>
          have hstripped : (some (Config.secure { c with backupVersion := x.version })).map
              Config.stripped = r.session.config.map Config.stripped := by
            rw [hc]
            rfl
          refine Triple.bind (Q := fun _ s => s = adoptRecord cr vmk c x (openDb vmk r))
            (Triple.update fun s hs => by rw [hs]) fun _ => ?_
          refine Triple.orElse (I := fun s => s = adoptRecord cr vmk c x (openDb vmk r))
            (Triple.atomically_cases (fun _ s hs => ?_) (fun _ _ hs => hs) (fun _ _ _ _ => trivial)
              fun _ _ _ _ => trivial) ?_
          · rw [hs]
            exact ⟨⟨hopens, rfl, hshards, hdatabase, hstripped, .inr hstripped, rfl,
              fun _ _ => rfl, fun _ _ _ => ⟨hexternal, x, hremote, rfl⟩, fun h => absurd rfl (h _)⟩,
              hcredentials⟩
          · refine Triple.bind (Q := fun _ s => Left r s) (Triple.update fun s hs => ?_) fun _ =>
              Triple.throwing fun _ hs => hs
            rw [hs]
            exact ⟨hfiles, rfl, rfl⟩
  · exact hrefused

/-- Whatever else happens, an open moves no share and sends nothing to the relay. -/
theorem nativeOpen_shares {F : OpenFaults} {f : Files} {relay : Relay} :
    Triple (fun s => s.files.shards = f ∧ s.relay = relay) (nativeOpen C cr F)
      (fun _ s => s.files.shards = f ∧ s.relay = relay) (fun s => s.files.shards = f ∧ s.relay = relay)
      (fun _ => True) := by
  refine Triple.bind (Q := fun _ s => s.files.shards = f ∧ s.relay = relay) (Triple.attempt_cases
    (fun _ _ h => h) (fun _ _ h => h) fun _ _ _ => trivial) fun _ => Triple.read fun r hr => ?_
  refine Triple.strengthen (P := fun s => s.files.shards = f ∧ s.relay = relay) ?_ fun s hs => hs.1
  split
  · refine Triple.ite (fun _ => Triple.throwing fun _ h => h) fun _ => ?_
    split
    · exact Triple.throwing fun _ h => h
    · refine Triple.bind (Q := fun _ s => s.files.shards = f ∧ s.relay = relay)
        (Triple.update fun _ h => h) fun _ => ?_
      refine Triple.ite (fun _ => Triple.update fun _ h => h) fun _ => ?_
      split
      · exact Triple.throwing fun _ h => h
      · refine Triple.bind (Q := fun _ s => s.files.shards = f ∧ s.relay = relay)
          (Triple.update fun _ h => h) fun _ => ?_
        refine Triple.orElse (I := fun s => s.files.shards = f ∧ s.relay = relay)
          (Triple.atomically_cases (fun _ _ h => h) (fun _ _ h => h) (fun _ _ _ _ => trivial)
            fun _ _ _ _ => trivial) ?_
        exact Triple.bind (Q := fun _ s => s.files.shards = f ∧ s.relay = relay)
          (Triple.update fun _ h => h) fun _ => Triple.throwing fun _ h => h
  · exact Triple.throwing fun _ h => h

end Operations

end NativeDuress
