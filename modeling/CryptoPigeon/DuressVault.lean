import CryptoPigeon.FaultyProgram
import CryptoPigeon.SevenShares
import Mathlib.Logic.Function.Basic

/-! # The desktop vault and its decoy

A vault id that was armed for duress opens a decoy: a vault of its own beside `rootDir`,
created like any other with its seventh share at the relay, under a password made from
the id. `duress.json` names it by a salted digest of the id. Unlocking compares that digest
before it looks at a password or a share; while a decoy is open, `database()` and
`isLocked()` answer for it. -/
namespace DuressVault

open FaultyProgram SevenShares

abbrev Vmk := BitVec 256

abbrev Nonce := BitVec 96

/-- What a vault key is wrapped under: a password with its salt, or an id and a password. -/
inductive Kek where
  | legacy (salt : Nat) (password : String)
  | vault (k : Keys)
  deriving DecidableEq, Repr

/-- The primitives of the platform. `tagDigest` is `sha256` where its results are taken to
be distinct, which no digest of 64 digits can promise. -/
structure Crypto where
  tagDigest : String → String
  sha256 : String → String
  sha256_length : ∀ s, (sha256 s).length = 64
  shardDigest : Share → String
  wrap : Kek → Nonce → Vmk → Share
  unwrap : Kek → Nonce → Share → Option Vmk
  unwrap_wrap : ∀ k n v, unwrap k n (wrap k n v) = some v

/-- `secureVersion` is there; `external` is `shard7Mode==='external'`. -/
structure SecureConfig where
  nonce : Nonce
  hashes : List String
  external : Bool
  cloudBackupEnabled : Bool
  creationPending : Bool
  backupVersion : Nat
  deriving DecidableEq, Repr

/-- The configuration of a vault from before the seven shares. -/
structure LegacyConfig where
  salt : Nat
  nonce : Nonce
  wrappedVmk : Share
  deriving DecidableEq, Repr

inductive Config where
  | legacy (c : LegacyConfig)
  | secure (c : SecureConfig)
  deriving DecidableEq, Repr

/-- The rows of a database by their tables, and the key it is encrypted with. -/
structure Database where
  key : Vmk
  rows : List (String × String)
  deriving DecidableEq, Repr

/-- What is under `rootDir`, apart from `duress.json`. -/
structure Directory where
  config : Option Config
  shards : Files
  database : Option Database
  attachments : List (String × List UInt8)
  deriving DecidableEq, Repr

def Directory.empty : Directory := ⟨none, .empty, none, []⟩

/-- A row of `vault_backups`, without its snapshot. -/
structure Record where
  fragment7 : Option Sealed
  version : Nat
  deriving DecidableEq, Repr

/-- The backups by their lookup tokens. -/
abbrev Relay := Keys → Option Record

/-- The fields of a `SecureVault`, `unlocked` while its database is open. -/
structure Session where
  config : Option Config
  keys : Option Keys
  vmk : Option Vmk
  unlocked : Bool
  external7 : Option Sealed
  remoteFragment7 : Option Sealed
  deriving DecidableEq, Repr

def Session.closed : Session := ⟨none, none, none, false, none, none⟩

def Session.lock (s : Session) : Session := { Session.closed with config := s.config }

/-- A `SecureVault`, its directory and the relay. -/
structure Vault where
  files : Directory
  session : Session
  relay : Relay

structure Credentials where
  vaultId : String
  password : String
  clientShard : Option Share
  decoyClientShard : Option Share
  shard7Payload : Option Sealed
  deriving DecidableEq, Repr

def Credentials.keys (cr : Credentials) : Keys := ⟨cr.vaultId, cr.password⟩

/-- The length of a string in JavaScript. -/
def utf16Length (s : String) : Nat := (s.toList.map fun c => if c.toNat < 65536 then 1 else 2).sum

def commonPasswords : List String :=
  ["password", "password123", "123456789", "12345678", "qwertyuiop", "adminadmin", "letmein123",
    "iloveyou", "p@ssword", "changeit"]

def validatePasswordStrength (password : String) : Bool :=
  decide (12 ≤ utf16Length password) && !commonPasswords.contains password.toLower &&
    password.toList.any Char.isUpper && password.toList.any Char.isLower &&
    password.toList.any Char.isDigit

/-- `openDb` with a key the database is not encrypted with throws. -/
def openable (f : Directory) (vmk : Vmk) : Option Vmk :=
  match f.database with
  | none => some vmk
  | some db => if db.key = vmk then some vmk else none

def collectVmk (C : Crypto) (c : SecureConfig) (f : Directory) (cr : Credentials)
    (seventh : Option Sealed) : Option Vmk := do
  let wrapped ← collect C.shardDigest cr.keys cr.clientShard seventh c.hashes f.shards
  let vmk ← C.unwrap (.vault cr.keys) c.nonce wrapped
  openable f vmk

def openingSecure (C : Crypto) (c : SecureConfig) (f : Directory) (relay : Relay)
    (cr : Credentials) : Option Vmk :=
  if c.external then do
    let capsule ← cr.shard7Payload
    let share ← unsealAs cr.keys .seventh capsule
    if c.hashes[6]? = some (C.shardDigest share) then collectVmk C c f cr (some capsule) else none
  else do
    let remote ← relay cr.keys
    collectVmk C c f cr remote.fragment7

/-- The checks of `unlockSecure`: the key under which the credentials open the vault. -/
def opening (C : Crypto) (config : Option Config) (f : Directory) (relay : Relay)
    (cr : Credentials) : Option Vmk :=
  match config with
  | none => none
  | some (.legacy c) => (C.unwrap (.legacy c.salt cr.password) c.nonce c.wrappedVmk).bind (openable f)
  | some (.secure c) => openingSecure C c f relay cr

structure UnlockFaults where
  registry : Fault
  download : Fault
  save : Fault
  deriving DecidableEq, Repr

structure SyncFaults where
  put : Fault
  save : Fault
  deriving DecidableEq, Repr

structure CreateFaults where
  download : Fault
  provision : Fault
  openDb : Fault
  sync : SyncFaults
  save : Fault
  cleanup : Fault
  deriving DecidableEq, Repr

structure ConfigureFaults where
  create : CreateFaults
  notes : Fault
  sync : SyncFaults
  write : Fault
  deriving DecidableEq, Repr

def lockVault (v : Vault) : Vault := { v with session := v.session.lock }

/-- `initialize`: a vault that was never confirmed is moved away. -/
def readConfig (v : Vault) : Vault :=
  match v.files.config with
  | none => v
  | some (.legacy c) => { v with session := { v.session with config := some (.legacy c) } }
  | some (.secure c) =>
    if c.creationPending then
      { v with files := .empty, session := { v.session with config := none } }
    else { v with session := { v.session with config := some (.secure c) } }

def saveConfig (v : Vault) : Vault :=
  { v with files := { v.files with config := v.session.config } }

def openDb (vmk : Vmk) (v : Vault) : Vault :=
  { v with
    files := { v.files with database := some (v.files.database.getD ⟨vmk, []⟩) }
    session := { v.session with unlocked := true } }

def adoptFile (cr : Credentials) (vmk : Vmk) (v : Vault) : Vault :=
  { v with session := { v.session with
      keys := some cr.keys, vmk := some vmk, external7 := cr.shard7Payload } }

def adoptRecord (cr : Credentials) (vmk : Vmk) (c : SecureConfig) (r : Record) (v : Vault) : Vault :=
  { v with session := { v.session with
      config := some (.secure { c with backupVersion := r.version })
      keys := some cr.keys, vmk := some vmk, remoteFragment7 := r.fragment7 } }

/-- `unlockSecure` of a vault whose directory holds no `duress.json`. -/
def unlock (C : Crypto) (cr : Credentials) (F : UnlockFaults) : Program Vault Unit := do
  attempt F.download
  let v ← read
  match opening C v.session.config v.files v.relay cr with
  | none => throwing
  | some vmk => do
    update (openDb vmk)
    match v.session.config with
    | some (.secure c) =>
      if c.external then update (adoptFile cr vmk)
      else
        match v.relay cr.keys with
        | none => throwing
        | some r => do
          orElse (atomically saveConfig F.save) (do update lockVault; throwing)
          update (adoptRecord cr vmk c r)
    | _ => done ()

def versionOf (r : Option Record) : Nat :=
  match r with
  | none => 0
  | some r => r.version

def putRecord (k : Keys) (n : Nat) (v : Vault) : Vault :=
  let fragment7 := v.session.external7.or v.session.remoteFragment7
  { v with relay := Function.update v.relay k (some ⟨fragment7, n⟩) }

/-- The relay takes the version after the one it has. -/
def putBackup (k : Keys) (c : SecureConfig) (fault : Fault) : Program Vault Unit := do
  let v ← read
  if c.backupVersion = versionOf (v.relay k) then remotely (putRecord k (c.backupVersion + 1)) fault
  else do
    attempt fault
    throwing

def advance (c : SecureConfig) : SecureConfig := { c with backupVersion := c.backupVersion + 1 }

def setConfig (c : SecureConfig) (v : Vault) : Vault :=
  { v with session := { v.session with config := some (.secure c) } }

def syncBackup (F : SyncFaults) : Program Vault Unit := do
  let v ← read
  match v.session.config with
  | some (.secure c) =>
    if c.cloudBackupEnabled = false then done ()
    else
      match v.session.keys with
      | none => throwing
      | some k => do
        putBackup k c F.put
        update (setConfig (advance c))
        atomically saveConfig F.save
  | _ => done ()

/-- The random bytes a vault is made of. -/
structure Entropy where
  vmk : Vmk
  nonce : Nonce
  coins : Coins
  deriving DecidableEq, Repr

def Entropy.split (C : Crypto) (k : Keys) (N : Entropy) : Split :=
  splitSeven (C.wrap (.vault k) N.nonce N.vmk) N.coins

def freshConfig (C : Crypto) (k : Keys) (N : Entropy) : SecureConfig :=
  ⟨N.nonce, (N.split C k).list.map C.shardDigest, false, false, false, 0⟩

def putShards (f : Files) (v : Vault) : Vault := { v with files := { v.files with shards := f } }

def provisioned (C : Crypto) (k : Keys) (N : Entropy) (v : Vault) : Vault :=
  { v with
    files := { v.files with shards := scatter k (N.split C k) }
    session := { v.session with
      config := some (.secure (freshConfig C k N)), keys := some k, vmk := some N.vmk
      remoteFragment7 := some (sealedSeventh k (N.split C k)) } }

def provision (C : Crypto) (k : Keys) (N : Entropy) : Fault → Program Vault Unit :=
  gradually (fun n => putShards (scatterPart n k (N.split C k))) (provisioned C k N)

/-- `if(relayBacked&&await this.download(keys))throw …`. -/
def requireUnused (k : Keys) (fault : Fault) : Program Vault Unit := do
  attempt fault
  let v ← read
  if (v.relay k).isSome then throwing else done ()

def createDb (vmk : Vmk) (fault : Fault) : Program Vault Unit := do
  attempt fault
  let v ← read
  if (openable v.files vmk).isSome then update (openDb vmk) else throwing

/-- Where the seventh share of a new vault is kept. -/
def keepSeventh (relayBacked : Bool) (c : SecureConfig) (v : Vault) : Vault :=
  if relayBacked then setConfig { c with cloudBackupEnabled := true } v
  else
    { v with session := { v.session with
        config := some (.secure { c with external := true, creationPending := true })
        external7 := v.session.remoteFragment7, remoteFragment7 := none } }

/-- `if(!existed)await rm(this.rootDir,…)`. -/
def removeRoot (existed : Bool) (fault : Fault) : Program Vault Unit :=
  if existed then done () else atomically (fun v => { v with files := .empty }) fault

/-- The cleanup of `createSecure`. -/
def discard (existed : Bool) (fault : Fault) : Program Vault Share := do
  update lockVault
  update (fun v => { v with session := { v.session with config := none } })
  removeRoot existed fault
  throwing

/-- The client share is handed out. -/
def createSecure (C : Crypto) (k : Keys) (relayBacked : Bool) (N : Entropy) (F : CreateFaults) :
    Program Vault Share := do
  let v ← read
  if v.session.config.isSome ∨ validatePasswordStrength k.password = false then throwing
  else
    orElse
      (do
        if relayBacked then requireUnused k F.download else done ()
        provision C k N F.provision
        createDb N.vmk F.openDb
        update (keepSeventh relayBacked (freshConfig C k N))
        if relayBacked then syncBackup F.sync else done ()
        atomically saveConfig F.save
        done (N.split C k).webView)
      (discard (decide (v.files ≠ .empty)) F.cleanup)

/-- The contents of `duress.json`. -/
structure Registry where
  salt : String
  tag : String
  root : String
  deriving DecidableEq, Repr

/-- A write that is cut off leaves a text that does not parse. -/
inductive RegistryFile where
  | absent
  | torn
  | whole (r : Registry)
  deriving DecidableEq, Repr

/-- The daemon's `SecureVault` with its directory and `duress.json`, the directories of
the decoys by their names, and `this.decoy`. -/
structure Device where
  files : Directory
  session : Session
  registry : RegistryFile
  decoys : String → Directory
  decoy : Option (String × Session)
  relay : Relay

def Device.vault (d : Device) : Vault := ⟨d.files, d.session, d.relay⟩

def Device.setVault (v : Vault) (d : Device) : Device :=
  { d with files := v.files, session := v.session, relay := v.relay }

def onPrimary {α : Type} : Program Vault α → Program Device α := within Device.vault Device.setVault

/-- `new SecureVault(root,this.relayUrl)`. -/
def Device.decoyAt (root : String) (d : Device) : Vault := ⟨d.decoys root, .closed, d.relay⟩

def Device.setDecoyAt (root : String) (v : Vault) (d : Device) : Device :=
  { d with decoys := Function.update d.decoys root v.files, relay := v.relay }

def atDecoy {α : Type} (root : String) : Program Vault α → Program Device α :=
  within (Device.decoyAt root) (Device.setDecoyAt root)

/-- The vault that `database()` and `isLocked()` answer for. -/
def Device.active (d : Device) : Vault :=
  match d.decoy with
  | none => d.vault
  | some (root, session) => ⟨d.decoys root, session, d.relay⟩

def Device.setActive (v : Vault) (d : Device) : Device :=
  match d.decoy with
  | none => d.setVault v
  | some (root, _) =>
    { d with
      decoys := Function.update d.decoys root v.files
      decoy := some (root, v.session), relay := v.relay }

def onActive {α : Type} : Program Vault α → Program Device α :=
  within Device.active Device.setActive

def Device.isLocked (d : Device) : Bool := !d.active.session.unlocked

def Device.lock (d : Device) : Device :=
  { d with
    session := d.session.lock
    decoy := d.decoy.map fun x => (x.1, x.2.lock) }

/-- `/api/vault/lock`: a backup that fails does not keep the vault open. -/
def lockDevice (F : SyncFaults) : Program Device Unit := do
  orElse (onActive (syncBackup F)) (done ())
  update Device.lock

def decoyPassword (C : Crypto) (id : String) : String :=
  C.sha256 ("cp-decoy-password-v1:" ++ id) ++ "Aa1!"

def decoyKeys (C : Crypto) (id : String) : Keys := ⟨id, decoyPassword C id⟩

/-- What a decoy is opened with. -/
def decoyCredentials (C : Crypto) (id : String) (client : Option Share) : Credentials :=
  ⟨id, decoyPassword C id, client, none, none⟩

def rootName (tag : String) : String := String.ofList (tag.toList.take 24)

def notes : List (String × String) :=
  [("contacts", "Daily notes"), ("remote_contacts", "Daily notes"), ("conversations", "Daily notes"),
    ("messages", "Pick up groceries after work."), ("messages", "Walk in the park this weekend."),
    ("messages", "Remember to water the plants.")]

def insertRows (rows : List (String × String)) (v : Vault) : Vault :=
  { v with files := { v.files with
      database := v.files.database.map fun db => { db with rows := db.rows ++ rows } } }

def makeDecoy (C : Crypto) (id : String) (N : Entropy) (F : ConfigureFaults) :
    Program Vault Share := do
  let browser ← createSecure C (decoyKeys C id) true N F.create
  atomically (insertRows notes) F.notes
  syncBackup F.sync
  done browser

def setRegistry (r : RegistryFile) (d : Device) : Device := { d with registry := r }

/-- `writeFile` truncates the file, writes it and closes it. -/
def writeRegistry (r : Registry) : Fault → Program Device Unit :=
  gradually
    (fun n d => if n = 0 then d else if n = 1 then setRegistry .torn d else setRegistry (.whole r) d)
    (setRegistry (.whole r))

def registryFor (C : Crypto) (id salt : String) : Registry :=
  ⟨salt, C.tagDigest (salt ++ id), rootName (C.tagDigest (salt ++ id))⟩

def configureDuress (C : Crypto) (id salt : String) (N : Entropy) (F : ConfigureFaults) :
    Program Device Share := do
  let d ← read
  if d.decoy.isSome ∨ d.session.unlocked = false then throwing
  else if utf16Length id < 16 ∨ 256 < utf16Length id then throwing
  else do
    let browser ← atDecoy (registryFor C id salt).root
      (andFinally (makeDecoy C id N F) (update lockVault))
    writeRegistry (registryFor C id salt) F.write
    done browser

/-- A decoy that does not open leaves no `this.decoy`. -/
def openDecoy (C : Crypto) (r : Registry) (cr : Credentials) (F : UnlockFaults) :
    Program Device Unit := do
  update Device.lock
  update (fun d => { d with decoy := none })
  let session ← atDecoy r.root (do
    update readConfig
    unlock C (decoyCredentials C cr.vaultId cr.decoyClientShard) F
    let v ← read
    done v.session)
  update (fun d => { d with decoy := some (r.root, session) })

def unlockPrimary (C : Crypto) (cr : Credentials) (F : UnlockFaults) : Program Device Unit := do
  update (fun d => { d with decoy := none })
  let d ← read
  if d.session.unlocked then throwing else onPrimary (unlock C cr F)

/-- Only the id decides which vault is asked. -/
def dispatch (C : Crypto) (registry : RegistryFile) (cr : Credentials) (F : UnlockFaults) :
    Program Device Unit :=
  match registry with
  | .absent => unlockPrimary C cr F
  | .torn => throwing
  | .whole r =>
    if C.tagDigest (r.salt ++ cr.vaultId) = r.tag then openDecoy C r cr F else unlockPrimary C cr F

def unlockSecure (C : Crypto) (cr : Credentials) (F : UnlockFaults) : Program Device Unit := do
  attempt F.registry
  let d ← read
  dispatch C d.registry cr F

end DuressVault
