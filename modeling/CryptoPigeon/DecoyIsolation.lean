import CryptoPigeon.DuressOperations
import CryptoPigeon.TransitionSystem

/-! # What a session of the decoy does to the primary vault

While a decoy is open, `database()`, `isLocked()`, `status` and `syncBackup` answer for it.
The other methods of `SecureVault` read and write the primary's own fields, and an upload
that the primary began may still be answered. A crash ends the session. -/
namespace DecoyIsolation

open TransitionSystem FaultyProgram SevenShares DuressVault

/-- `this.secureConfig()` of the primary is changed and saved, once `this.database()` has
answered for the decoy. -/
def changeConfig (f : SecureConfig → SecureConfig) (fault : Fault) : Program Device Unit := do
  let d ← read
  if d.isLocked then throwing
  else
    match d.session.config with
    | some (.secure c) => onPrimary (do
        update (setConfig (f c))
        atomically saveConfig fault)
    | _ => throwing

def setCloudBackup (enabled : Bool) : Fault → Program Device Unit :=
  changeConfig fun c => { c with cloudBackupEnabled := enabled }

def confirmShard7Saved : Fault → Program Device Unit :=
  changeConfig fun c =>
    { c with
      external := true, cloudBackupEnabled := false, creationPending := false }

/-- `Vault.changePassword`: `writeFile` truncates `config.json` and writes it anew. -/
def changeLegacy (C : Crypto) (c : LegacyConfig) (old new : String) (salt : Nat) (nonce : Nonce)
    (fault : Fault) : Program Vault Unit :=
  if validatePasswordStrength new = false then throwing
  else
    match C.unwrap (.legacy c.salt old) c.nonce c.wrappedVmk with
    | none => throwing
    | some vmk => do
      update fun v => { v with session := { v.session with
        config := some (.legacy ⟨salt, nonce, C.wrap (.legacy salt new) nonce vmk⟩) } }
      gradually (fun n v => if n = 0 then v else { v with files := { v.files with config := none } })
        saveConfig fault

/-- `rotate` stands for the rest of the change of a vault with seven shares. -/
def changeSecurePassword (C : Crypto) (old new : String) (salt : Nat) (nonce : Nonce)
    (fault : Fault) (rotate : Program Device Unit) : Program Device Unit := do
  let d ← read
  match d.session.config with
  | none => throwing
  | some (.legacy c) => onPrimary (changeLegacy C c old new salt nonce fault)
  | some (.secure _) => if d.session.keys = none ∨ d.isLocked then throwing else rotate

/-- `restoreSecure` and `importStorage`, with what they do to a locked vault. -/
def replaceLocked (rest : Program Device Unit) : Program Device Unit := do
  let d ← read
  if d.isLocked = false then throwing else rest

def shard7File : Program Device Sealed := do
  let d ← read
  if d.isLocked then throwing
  else
    match d.session.external7.or d.session.remoteFragment7 with
    | none => throwing
    | some sealedShare => done sealedShare

/-- The path and the key are the primary's. -/
def cacheAttachment (id : String) (bytes : List UInt8) (fault : Fault) : Program Device Unit := do
  let d ← read
  if d.session.unlocked = false then throwing
  else onPrimary (atomically (fun v => { v with files := { v.files with
    attachments := v.files.attachments.filter (fun a => a.1 != id) ++ [(id, bytes)] } }) fault)

/-- Whatever a route does through `vault.database()`. -/
def writeRows (rows : List (String × String)) (v : Vault) : Vault :=
  { v with files := { v.files with
    database := v.files.database.map fun db => { db with rows := rows } } }

/-- What an upload of the primary has captured. -/
structure Upload where
  keys : Keys
  fragment7 : Option Sealed
  deriving DecidableEq, Repr

def putUpload (u : Upload) (d : Device) : Device :=
  { d with
    relay := Function.update d.relay u.keys (some ⟨u.fragment7, versionOf (d.relay u.keys) + 1⟩) }

/-- The end of an upload: the relay may have taken it, and a good answer is recorded. -/
def uploadEnds (u : Upload) (taken answered : Bool) (fault : Fault) : Program Device Unit := do
  update (if taken then putUpload u else id)
  let d ← read
  if answered then
    match d.session.config with
    | some (.secure c) => onPrimary (do
        update (setConfig (advance c))
        atomically saveConfig fault)
    | _ => throwing
  else throwing

inductive Event where
  | storage (enabled : Bool) (fault : Fault)
  | shard7Saved (fault : Fault)
  | shard7Download
  | configure (id salt : String) (N : Entropy) (F : ConfigureFaults)
  | create (k : Keys) (N : Entropy) (F : CreateFaults)
  | replace (rest : Program Device Unit)
  | changePassword (old new : String) (salt : Nat) (nonce : Nonce) (fault : Fault)
      (rotate : Program Device Unit)
  | attachment (id : String) (bytes : List UInt8) (fault : Fault)
  | database (rows : List (String × String))
  | backup (F : SyncFaults)
  | uploaded (u : Upload) (taken answered : Bool) (fault : Fault)

def dropping {α : Type} (p : Program Device α) : Program Device Unit := p >>= fun _ => done ()

def perform (C : Crypto) : Event → Program Device Unit
  | .storage enabled fault => setCloudBackup enabled fault
  | .shard7Saved fault => confirmShard7Saved fault
  | .shard7Download => dropping shard7File
  | .configure id salt N F => dropping (configureDuress C id salt N F)
  | .create k N F => dropping (onPrimary (createSecure C k false N F))
  | .replace rest => replaceLocked rest
  | .changePassword old new salt nonce fault rotate =>
    changeSecurePassword C old new salt nonce fault rotate
  | .attachment id bytes fault => cacheAttachment id bytes fault
  | .database rows => onActive (update (writeRows rows))
  | .backup F => onActive (syncBackup F)
  | .uploaded u taken answered fault => uploadEnds u taken answered fault

/-- `upload` is an upload of the primary that has not been answered. -/
structure State where
  device : Device
  upload : Option Upload

def Enabled (C : Crypto) (s : State) (e : Event) : Prop :=
  (perform C e s.device).Survives ∧
    match e with
    | .uploaded u _ _ _ => s.upload = some u
    | _ => True

def next (C : Crypto) (s : State) (e : Event) : State where
  device := (perform C e s.device).state
  upload :=
    match e with
    | .uploaded _ _ _ _ => none
    | _ => s.upload

/-- A decoy is open, under keys whose backup carries its seventh share. -/
def Attended (d : Device) : Prop :=
  ∃ root ds cr c, d.decoy = some (root, ds) ∧ ds.unlocked = true ∧
    ds.config = some (.secure c) ∧ c.external = false ∧ ds.Holds cr d.relay

/-- What an unlock with the armed id leaves: an open decoy beside a locked vault. -/
structure Initial (s : State) : Prop where
  attended : Attended s.device
  locked : s.device.session = s.device.session.lock
  configured : s.device.session.config.isSome
  upload : ∀ u, s.upload = some u →
    (s.device.relay u.keys).map Record.fragment7 = some u.fragment7

def system (C : Crypto) : System State Event := ⟨Initial, Enabled C, next C⟩

/-- The steps that leave the primary alone: the two routes that write its configuration find it
as they would leave it, a vault from before the seven shares is asked with a wrong or a weak
password, and no upload of the primary is answered. -/
def Harmless (C : Crypto) (s : State) : Event → Prop
  | .storage enabled _ => ∀ c, s.device.session.config = some (.secure c) →
      c.cloudBackupEnabled = enabled ∧ s.device.files.config = s.device.session.config
  | .shard7Saved _ => ∀ c, s.device.session.config = some (.secure c) →
      (c.external = true ∧ c.cloudBackupEnabled = false ∧ c.creationPending = false) ∧
        s.device.files.config = s.device.session.config
  | .changePassword old new _ _ _ _ => ∀ c, s.device.session.config = some (.legacy c) →
      validatePasswordStrength new = false ∨ C.unwrap (.legacy c.salt old) c.nonce c.wrappedVmk = none
  | .uploaded _ _ answered _ => answered = false
  | _ => True

/-- The primary is what it was, in memory and in its directory, and opens as before. -/
structure Untouched (C : Crypto) (d₀ d : Device) : Prop where
  files : d.files = d₀.files
  config : d.session.config = d₀.session.config
  registry : d.registry = d₀.registry
  opens : ∀ cr, opening C d.session.config d.files d.relay cr =
    opening C d₀.session.config d₀.files d₀.relay cr

def SameFragments (a b : Relay) : Prop :=
  ∀ k, (b k).map Record.fragment7 = (a k).map Record.fragment7

/-- What holds of the device throughout a session. -/
structure Sheltered (d₀ d : Device) : Prop where
  files : d.files = d₀.files
  session : d.session = d₀.session
  registry : d.registry = d₀.registry
  attended : Attended d
  relay : SameFragments d₀.relay d.relay

section Relays

variable {C : Crypto} {a b : Relay} {cr : Credentials} {d : Device}

theorem SameFragments.trans {c : Relay} (h : SameFragments a b) (k : SameFragments b c) :
    SameFragments a c := fun x => (k x).trans (h x)

/-- A record is replaced by one with the same share. -/
theorem sameFragments_update {k : Keys} {r : Record}
    (h : (a k).map Record.fragment7 = some r.fragment7) :
    SameFragments a (Function.update a k (some r)) := by
  intro x
  by_cases hx : x = k
  · subst hx
    rw [Function.update_self, h]
    rfl
  · rw [Function.update_of_ne hx]

/-- Of the relay the checks read the seventh share only. -/
theorem opening_sameFragments (h : SameFragments a b) (config : Option Config) (f : Directory)
    (cr : Credentials) : opening C config f b cr = opening C config f a cr := by
  cases config with
  | none => rfl
  | some config =>
    cases config with
    | legacy c => rfl
    | secure c =>
      have hbind (r : Option Record) : (r.bind fun x => collectVmk C c f cr x.fragment7) =
          (r.map Record.fragment7).bind (collectVmk C c f cr) := by
        cases r <;> rfl
      simp only [opening, openingSecure, bind, hbind, h cr.keys]

theorem Session.Holds.sameFragments {s : Session} (h : s.Holds cr a) (hab : SameFragments a b) :
    s.Holds cr b := by
  refine ⟨h.keys, fun c hc hcloud => ?_, h.legacy⟩
  obtain ⟨hexternal, r, hr, hfragment⟩ := h.fragment c hc hcloud
  have hb := hab cr.keys
  rw [hr] at hb
  obtain ⟨r', hr', hf⟩ := Option.map_eq_some_iff.mp hb
  exact ⟨hexternal, r', hr', hf.trans hfragment⟩

theorem Attended.unlocked (h : Attended d) : d.isLocked = false := by
  obtain ⟨root, ds, _, _, hd, hu, -⟩ := h
  simp [Device.isLocked, Device.active, hd, hu]

theorem Attended.relayed (h : Attended d) (hab : SameFragments d.relay b) :
    Attended { d with relay := b } := by
  obtain ⟨root, ds, cr, c, hd, hu, hc, hexternal, hholds⟩ := h
  exact ⟨root, ds, cr, c, hd, hu, hc, hexternal, Session.Holds.sameFragments hholds hab⟩

end Relays

section Operations

variable {C : Crypto} {d₀ : Device}

theorem Sheltered.relayed {d : Device} {b : Relay} (h : Sheltered d₀ d)
    (hab : SameFragments d.relay b) : Sheltered d₀ { d with relay := b } :=
  ⟨h.files, h.session, h.registry, h.attended.relayed hab, h.relay.trans hab⟩

/-- Whoever reads first goes on in a known state. -/
theorem sheltered_read {q : Device → Program Device Unit}
    (h : ∀ d, Sheltered d₀ d → Triple (fun x => x = d) (q d) (fun _ => Sheltered d₀) (Sheltered d₀)
      (fun _ => True)) :
    Triple (Sheltered d₀) (do let d ← read; q d) (fun _ => Sheltered d₀) (Sheltered d₀)
      (fun _ => True) :=
  Triple.read fun d hd => (h d hd).strengthen fun _ hx => hx.2

theorem sheltered_throwing {d : Device} (h : Sheltered d₀ d) {α : Type} {Q : α → Device → Prop} :
    Triple (fun x => x = d) (throwing : Program Device α) Q (Sheltered d₀) (fun _ => True) :=
  Triple.throwing fun _ hx => hx ▸ h

theorem setVault_vault (d : Device) : d.setVault d.vault = d := rfl

/-- The primary is what it was wherever the program stops. -/
theorem onPrimary_sheltered {α : Type} {d : Device} (h : Sheltered d₀ d) {p : Program Vault α}
    (hp : Triple (fun v => v = d.vault) p (fun _ v => v = d.vault) (fun v => v = d.vault)
      (fun _ => True)) :
    Triple (fun x => x = d) (onPrimary p) (fun _ => Sheltered d₀) (Sheltered d₀)
      (fun _ => True) := by
  refine Triple.within fun x hx => ?_
  subst hx
  have hsame {v : Vault} (hv : v = x.vault) : Sheltered d₀ (x.setVault v) := by
    rw [hv, setVault_vault]
    exact h
  exact hp.consequence (fun _ hv => hv) (fun _ _ hv => hsame hv) (fun _ hv => hsame hv)
    fun _ hv => hv

/-- A change of the configuration that changes nothing. -/
theorem changeConfig_sheltered {f : SecureConfig → SecureConfig} {fault : Fault}
    (hf : ∀ c, d₀.session.config = some (.secure c) →
      f c = c ∧ d₀.files.config = d₀.session.config) :
    Triple (Sheltered d₀) (changeConfig f fault) (fun _ => Sheltered d₀) (Sheltered d₀)
      (fun _ => True) := by
  refine sheltered_read fun d h => Triple.ite (fun _ => sheltered_throwing h) fun _ => ?_
  split
  · next c hc =>
    obtain ⟨hfc, hdisk⟩ := hf c (by rw [← h.session]; exact hc)
    have hset : setConfig (f c) d.vault = d.vault := by
      change Vault.mk d.files { d.session with config := some (.secure (f c)) } d.relay = d.vault
      rw [hfc, ← hc]
      rfl
    have hsave : saveConfig d.vault = d.vault := by
      change Vault.mk { d.files with config := d.session.config } d.session d.relay = d.vault
      rw [h.session, ← hdisk, ← h.files, ← h.session]
      rfl
    refine onPrimary_sheltered h (Triple.bind (Q := fun _ v => v = d.vault)
      (Triple.update fun v hv => by rw [hv, hset]) fun _ => ?_)
    exact Triple.atomically_cases (fun _ v hv => by rw [hv, hsave]) (fun _ _ hv => hv)
      (fun _ _ _ _ => trivial) fun _ _ _ _ => trivial
  · exact sheltered_throwing h

theorem changePassword_sheltered {old new : String} {salt : Nat} {nonce : Nonce} {fault : Fault}
    {rotate : Program Device Unit} (hlocked : d₀.session = d₀.session.lock)
    (hk : ∀ c, d₀.session.config = some (.legacy c) → validatePasswordStrength new = false ∨
      C.unwrap (.legacy c.salt old) c.nonce c.wrappedVmk = none) :
    Triple (Sheltered d₀) (changeSecurePassword C old new salt nonce fault rotate)
      (fun _ => Sheltered d₀) (Sheltered d₀) (fun _ => True) := by
  refine sheltered_read fun d h => ?_
  split
  · exact sheltered_throwing h
  · next c hc =>
    refine onPrimary_sheltered h (Triple.ite (fun _ => Triple.throwing fun _ hv => hv) fun hweak => ?_)
    rw [(hk c (by rw [← h.session]; exact hc)).resolve_left hweak]
    exact Triple.throwing fun _ hv => hv
  · have hkeys : d.session.keys = none := by
      rw [h.session, hlocked]
      rfl
    rw [if_pos (.inl hkeys)]
    exact sheltered_throwing h

theorem replaceLocked_sheltered {rest : Program Device Unit} :
    Triple (Sheltered d₀) (replaceLocked rest) (fun _ => Sheltered d₀) (Sheltered d₀)
      (fun _ => True) := by
  refine sheltered_read fun d h => ?_
  rw [if_pos h.attended.unlocked]
  exact sheltered_throwing h

theorem cacheAttachment_sheltered {id : String} {bytes : List UInt8} {fault : Fault}
    (hlocked : d₀.session = d₀.session.lock) :
    Triple (Sheltered d₀) (cacheAttachment id bytes fault) (fun _ => Sheltered d₀) (Sheltered d₀)
      (fun _ => True) := by
  refine sheltered_read fun d h => ?_
  have hclosed : d.session.unlocked = false := by
    rw [h.session, hlocked]
    rfl
  rw [if_pos hclosed]
  exact sheltered_throwing h

theorem dropping_sheltered {α : Type} {p : Program Device α}
    (hp : Triple (Sheltered d₀) p (fun _ => Sheltered d₀) (Sheltered d₀) (fun _ => True)) :
    Triple (Sheltered d₀) (dropping p) (fun _ => Sheltered d₀) (Sheltered d₀) (fun _ => True) :=
  Triple.bind hp fun _ => Triple.done fun _ h => h

theorem shard7File_sheltered : Triple (Sheltered d₀) shard7File (fun _ => Sheltered d₀)
    (Sheltered d₀) (fun _ => True) := by
  refine Triple.read fun d hd => Triple.ite (fun _ => Triple.throwing fun _ h => h.1) fun _ => ?_
  split
  · exact Triple.throwing fun _ h => h.1
  · exact Triple.done fun _ h => h.1

theorem configureDuress_sheltered {id salt : String} {N : Entropy} {F : ConfigureFaults} :
    Triple (Sheltered d₀) (configureDuress C id salt N F) (fun _ => Sheltered d₀) (Sheltered d₀)
      (fun _ => True) := by
  refine Triple.read fun d hd => ?_
  obtain ⟨root, ds, _, _, hdecoy, -⟩ := hd.attended
  rw [if_pos (.inl (by rw [hdecoy]; rfl))]
  exact Triple.throwing fun _ h => h.1

theorem createSecure_sheltered {k : Keys} {N : Entropy} {F : CreateFaults}
    (hconfigured : d₀.session.config.isSome) :
    Triple (Sheltered d₀) (onPrimary (createSecure C k false N F)) (fun _ => Sheltered d₀)
      (Sheltered d₀) (fun _ => True) := by
  intro d h
  refine onPrimary_sheltered h (Triple.read fun v hv => ?_) d rfl
  have hsome : v.session.config.isSome := by
    rw [hv]
    change d.session.config.isSome
    rw [h.session]
    exact hconfigured
  rw [if_pos (.inl hsome)]
  exact Triple.throwing fun _ hx => hx.1

/-- What is written to the decoy's directory is nothing to the primary. -/
theorem writeRows_sheltered {rows : List (String × String)} :
    Triple (Sheltered d₀) (onActive (update (writeRows rows))) (fun _ => Sheltered d₀)
      (Sheltered d₀) (fun _ => True) := by
  refine Triple.within fun d h => Triple.update fun v hv => ?_
  subst hv
  obtain ⟨root, ds, cr, c, hdecoy, hattended⟩ := h.attended
  simp only [Device.setActive, Device.active, hdecoy, writeRows]
  exact ⟨h.files, h.session, h.registry, ⟨root, ds, cr, c, rfl, hattended⟩, h.relay⟩

/-- A backup of the decoy carries the share that the relay has. -/
theorem syncBackup_sheltered {F : SyncFaults} :
    Triple (Sheltered d₀) (onActive (syncBackup F)) (fun _ => Sheltered d₀) (Sheltered d₀)
      (fun _ => True) := by
  refine Triple.within fun d h => ?_
  obtain ⟨root, ds, cr, c, hdecoy, hu, hc, hexternal, hholds⟩ := h.attended
  have hactive : d.active = ⟨d.decoys root, ds, d.relay⟩ := by
    simp only [Device.active, hdecoy]
  have hsynced {t : Vault} (ht : Synced d.active t) : Sheltered d₀ (d.setActive t) := by
    rw [hactive] at ht
    obtain ⟨hkept, r, hr, hfragment⟩ := hholds.fragment c hc hexternal
    obtain ⟨n, hn⟩ := stripped_secure (ht.config.trans (congrArg (Option.map Config.stripped) hc))
    have hsame : SameFragments d.relay t.relay := by
      rcases ht.relay with hrelay | ⟨k, m, hk, hrelay⟩
      · intro k
        rw [hrelay]
      · have hkey : k = cr.keys := Option.some.inj (hk.symm.trans (hholds.keys c hc))
        rw [hrelay, hkey]
        refine sameFragments_update ?_
        rw [hr]
        exact congrArg some (by rw [hkept, hfragment]; rfl)
    have hsession : t.session = { ds with config := t.session.config } := ht.session
    have hnew := Session.Holds.sameFragments (hholds.reconfigured hsession ht.config) hsame
    simp only [Device.setActive, hdecoy]
    refine ⟨h.files, h.session, h.registry, ⟨root, t.session, cr, _, rfl, ?_, hn, hexternal, hnew⟩,
      h.relay.trans hsame⟩
    rw [hsession]
    exact hu
  exact sync_spec.consequence (fun _ ht => ht) (fun _ _ ht => hsynced ht) (fun _ ht => hsynced ht)
    fun _ ht => ht

/-- The relay may take what the upload carries; only an answer is recorded. -/
theorem uploadEnds_sheltered {u : Upload} {taken : Bool} {fault : Fault}
    (hu : (d₀.relay u.keys).map Record.fragment7 = some u.fragment7) :
    Triple (Sheltered d₀) (uploadEnds u taken false fault) (fun _ => Sheltered d₀) (Sheltered d₀)
      (fun _ => True) := by
  refine Triple.bind (Q := fun _ => Sheltered d₀) (Triple.update fun d h => ?_) fun _ =>
    sheltered_read fun d h => sheltered_throwing h
  cases taken with
  | false => exact h
  | true => exact h.relayed (sameFragments_update ((h.relay u.keys).trans hu))

theorem perform_sheltered {s : State} {e : Event} (h : Sheltered d₀ s.device)
    (hlocked : d₀.session = d₀.session.lock) (hconfigured : d₀.session.config.isSome)
    (hupload : ∀ u, s.upload = some u → (d₀.relay u.keys).map Record.fragment7 = some u.fragment7)
    (he : Enabled C s e) (hk : Harmless C s e) : Sheltered d₀ (next C s e).device := by
  have hop : Triple (Sheltered d₀) (perform C e) (fun _ => Sheltered d₀) (Sheltered d₀)
      (fun _ => True) := by
    cases e with
    | storage enabled fault =>
      refine changeConfig_sheltered fun c hc => ?_
      obtain ⟨hsame, hdisk⟩ := hk c (by rw [h.session]; exact hc)
      rw [h.files, h.session] at hdisk
      refine ⟨?_, hdisk⟩
      rw [← hsame]
    | shard7Saved fault =>
      refine changeConfig_sheltered fun c hc => ?_
      obtain ⟨⟨hexternal, hcloud, hpending⟩, hdisk⟩ := hk c (by rw [h.session]; exact hc)
      rw [h.files, h.session] at hdisk
      refine ⟨?_, hdisk⟩
      rw [← hexternal, ← hcloud]
      obtain ⟨nonce, hashes, external, cloud, pending, version⟩ := c
      cases hexternal
      cases hcloud
      cases hpending
      rfl
    | shard7Download => exact dropping_sheltered shard7File_sheltered
    | configure id salt N F => exact dropping_sheltered configureDuress_sheltered
    | create k N F => exact dropping_sheltered (createSecure_sheltered hconfigured)
    | replace rest => exact replaceLocked_sheltered
    | changePassword old new salt nonce fault rotate =>
      exact changePassword_sheltered hlocked fun c hc => hk c (by rw [h.session]; exact hc)
    | attachment id bytes fault => exact cacheAttachment_sheltered hlocked
    | database rows => exact writeRows_sheltered
    | backup F => exact syncBackup_sheltered
    | uploaded u taken answered fault =>
      obtain rfl : answered = false := hk
      exact uploadEnds_sheltered (hupload u he.2)
  exact hop.state_of_survives h he.1

end Operations

/-- In a run of harmless steps the primary is untouched wherever the run stops. -/
theorem decoy_isolated {C : Crypto} {s₀ s : State} {es : List Event} (h₀ : Initial s₀)
    (h : Execution ((system C).Within (Harmless C)) s₀ es s) :
    Untouched C s₀.device s.device := by
  have hrun : Sheltered s₀.device s.device ∧ ∀ u, s.upload = some u →
      (s₀.device.relay u.keys).map Record.fragment7 = some u.fragment7 := by
    refine execution_invariant (I := fun t => Sheltered s₀.device t.device ∧ ∀ u,
      t.upload = some u → (s₀.device.relay u.keys).map Record.fragment7 = some u.fragment7)
      (fun t e ht he => ⟨?_, fun u hu => ht.2 u ?_⟩) h
      ⟨⟨rfl, rfl, rfl, h₀.attended, fun _ => rfl⟩, h₀.upload⟩
    · exact perform_sheltered ht.1 h₀.locked h₀.configured ht.2 he.1 he.2
    · cases e with
      | uploaded => cases hu
      | _ => exact hu
  have hs := hrun.1
  refine ⟨hs.files, congrArg Session.config hs.session, hs.registry, fun cr => ?_⟩
  rw [hs.session, hs.files]
  exact opening_sameFragments hs.relay _ _ cr

section Session

/-- A vault key is padded, a digest counts. -/
def padding : Crypto where
  tagDigest := id
  sha256 _ := String.ofList (List.replicate 64 '0')
  sha256_length _ := by rw [String.length_ofList, List.length_replicate]
  shardDigest s := String.ofList (List.replicate s.toNat 'x')
  wrap _ _ v := v.setWidth 384
  unwrap _ _ s := some (s.setWidth 256)
  unwrap_wrap _ _ v := by
    rw [BitVec.setWidth_setWidth_of_le _ (by decide)]
    simp

def drawn : Entropy := ⟨9, 0, ⟨1, 2, 3, 4, 5, 6⟩⟩

/-- A vault whose seventh share is at the relay. -/
def relayBacked (k : Keys) : SecureConfig :=
  { freshConfig padding k drawn with cloudBackupEnabled := true, backupVersion := 1 }

def directoryOf (k : Keys) : Directory :=
  ⟨some (.secure (relayBacked k)), scatter k (drawn.split padding k), some ⟨drawn.vmk, []⟩, []⟩

def seventhOf (k : Keys) : Sealed := sealedSeventh k (drawn.split padding k)

def alice : Keys := ⟨"alice", "Correct-horse-1"⟩

def coerced : Keys := decoyKeys padding "alice-under-duress"

/-- The decoy has just been opened. -/
def underDuress : State where
  device :=
    { files := directoryOf alice
      session := { Session.closed with config := some (.secure (relayBacked alice)) }
      registry := .whole (registryFor padding "alice-under-duress" "salt")
      decoys := fun _ => directoryOf coerced
      decoy := some ((registryFor padding "alice-under-duress" "salt").root,
        ⟨some (.secure (relayBacked coerced)), some coerced, some drawn.vmk, true, none,
          some (seventhOf coerced)⟩)
      relay := fun k => if k = alice ∨ k = coerced then some ⟨some (seventhOf k), 1⟩ else none }
  upload := none

def aliceOpens : Credentials :=
  ⟨alice.vaultId, alice.password, some (drawn.split padding alice).webView, none, none⟩

theorem underDuress_initial : Initial underDuress := by
  refine ⟨⟨_, _, ⟨coerced.vaultId, coerced.password, none, none, none⟩, _, rfl, rfl, rfl, rfl, ?_⟩,
    rfl, rfl, nofun⟩
  refine ⟨fun _ _ => rfl, fun _ _ _ => ⟨rfl, ⟨some (seventhOf coerced), 1⟩, ?_, rfl⟩,
    fun h => absurd rfl (h _)⟩
  change (if coerced = alice ∨ coerced = coerced then some (Record.mk (some (seventhOf coerced)) 1)
    else none) = _
  exact if_pos (Or.inr rfl)

def decoyWrites : List Event :=
  [.database [("messages", "hello")], .storage true .none, .backup ⟨.none, .none⟩]

theorem decoyWrites_isolated : Untouched padding underDuress.device
    (((system padding).Within (Harmless padding)).replay underDuress decoyWrites).device := by
  refine decoy_isolated underDuress_initial (valid_execution ⟨⟨⟨?_, trivial⟩, trivial⟩,
    ⟨⟨?_, trivial⟩, ?_⟩, ⟨⟨?_, trivial⟩, trivial⟩, trivial⟩)
  · decide +kernel
  · decide +kernel
  · intro c hc
    cases hc
    exact ⟨rfl, rfl⟩
  · decide +kernel

/-- The session of the decoy saves a file for the primary, and the primary asks for it. -/
theorem shard7Saved_locks_out : Initial underDuress ∧
    (system padding).Valid underDuress [.shard7Saved .none] ∧
    opening padding underDuress.device.session.config underDuress.device.files
      underDuress.device.relay aliceOpens = some drawn.vmk ∧
    (let d := ((system padding).replay underDuress [.shard7Saved .none]).device
     opening padding d.session.config d.files d.relay aliceOpens = none ∧
      ¬Untouched padding underDuress.device d) := by
  have hbefore : opening padding underDuress.device.session.config underDuress.device.files
      underDuress.device.relay aliceOpens = some drawn.vmk := by decide +kernel
  have hafter : (fun d : Device => opening padding d.session.config d.files d.relay aliceOpens)
      ((system padding).replay underDuress [.shard7Saved .none]).device = none := by decide +kernel
  refine ⟨underDuress_initial, ⟨⟨?_, trivial⟩, trivial⟩, hbefore, hafter, fun h => ?_⟩
  · decide +kernel
  · exact absurd (hafter.symm.trans ((h.opens aliceOpens).trans hbefore)) nofun

end Session

end DecoyIsolation
