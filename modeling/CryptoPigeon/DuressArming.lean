import CryptoPigeon.DuressOperations
import CryptoPigeon.TransitionSystem

/-! # Arming the desktop vault for duress

Runs of `configureDuress`, lock and unlock on a device whose vault was never armed. The
vault itself is not touched: what opened it before is still accepted by its own checks.
Which vault an unlock reaches is decided by `duress.json` alone. -/
namespace DuressArming

open TransitionSystem FaultyProgram SevenShares DuressVault

/-- `armed` is the id last written to `duress.json`, with what its decoy was made of. -/
structure State where
  device : Device
  armed : Option (String × Entropy)

inductive Event where
  | unlock (cr : Credentials) (F : UnlockFaults)
  | lock (F : SyncFaults)
  | configure (id salt : String) (N : Entropy) (F : ConfigureFaults)

/-- The salt is random, so no decoy is where the next one goes. -/
def Enabled (C : Crypto) (s : State) : Event → Prop
  | .unlock cr F => (unlockSecure C cr F s.device).Survives
  | .lock F => (lockDevice F s.device).Survives
  | .configure id salt N F => s.device.decoys (registryFor C id salt).root = .empty ∧
      (configureDuress C id salt N F s.device).Survives

/-- The id armed once a configuration left `d`. -/
def armedBy (C : Crypto) (id salt : String) (N : Entropy) (armed : Option (String × Entropy))
    (d : Device) : Option (String × Entropy) :=
  if d.registry = .whole (registryFor C id salt) then some (id, N) else armed

def next (C : Crypto) (s : State) : Event → State
  | .unlock cr F => { s with device := (unlockSecure C cr F s.device).state }
  | .lock F => { s with device := (lockDevice F s.device).state }
  | .configure id salt N F =>
    let d := (configureDuress C id salt N F s.device).state
    ⟨d, armedBy C id salt N s.armed d⟩

/-- A vault with its database, locked, that was never armed. -/
structure Initial (s : State) : Prop where
  registry : s.device.registry = .absent
  armed : s.armed = none
  decoy : s.device.decoy = none
  locked : s.device.session = s.device.session.lock
  database : s.device.files.database.isSome

def system (C : Crypto) : System State Event := ⟨Initial, Enabled C, next C⟩

/-- The vault's own checks accept the credentials. -/
def Accepts (C : Crypto) (d : Device) (cr : Credentials) : Prop :=
  (opening C d.session.config d.files d.relay cr).isSome

def OpensPrimary (C : Crypto) (cr : Credentials) (d : Device) : Prop :=
  ∃ t, unlockSecure C cr calm d = .returned () t ∧ t.decoy = none ∧ t.session.unlocked = true

def OpensDecoy (C : Crypto) (cr : Credentials) (d : Device) : Prop :=
  ∃ t, unlockSecure C cr calm d = .returned () t ∧ t.decoy.isSome

/-- The vault's seventh share is at the relay under these keys. -/
def Reserved (d : Device) (k : Keys) : Prop :=
  ∃ c s, d.session.config = some (.secure c) ∧ c.external = false ∧ d.files.shards.f3 = some s ∧
    s.key = k

/-- No credentials of the vault have this id. -/
def Apart (C : Crypto) (d : Device) (id : String) : Prop := ∀ cr, Accepts C d cr → cr.vaultId ≠ id

/-- An open decoy, of the id that is armed. -/
structure Attended (C : Crypto) (d₀ : Device) (s : State) (root : String) (ds : Session)
    (id : String) (N : Entropy) : Prop where
  armed : s.armed = some (id, N)
  registry : ∃ salt, s.device.registry = .whole (registryFor C id salt) ∧
    root = (registryFor C id salt).root
  keys : ds.keys = some (decoyKeys C id)
  config : ∃ n, ds.config = some (.secure { freshConfig C (decoyKeys C id) N with
    cloudBackupEnabled := true, backupVersion := n })
  fragment : Apart C d₀ id → ds.external7 = none ∧
    ds.remoteFragment7 = some (sealedSeventh (decoyKeys C id) (N.split C (decoyKeys C id)))

/-- The armed decoy can be opened, unless its id is one of the vault's. -/
structure Armed (C : Crypto) (d₀ : Device) (s : State) (r : Registry) (id salt : String)
    (N : Entropy) : Prop where
  armed : s.armed = some (id, N)
  registry : r = registryFor C id salt
  unreserved : ¬Reserved d₀ (decoyKeys C id)
  furnished : Furnished C (decoyKeys C id) N (s.device.decoys r.root)
  recorded : Apart C d₀ id → Recorded C (decoyKeys C id) N s.device.relay

/-- `d₀` is the device the run began with. -/
structure Invariant (C : Crypto) (d₀ : Device) (s : State) : Prop where
  config : s.device.session.config.map Config.stripped = d₀.session.config.map Config.stripped
  shards : s.device.files.shards = d₀.files.shards
  database : s.device.files.database = d₀.files.database
  relay : ∀ k, Reserved d₀ k →
    (s.device.relay k).map Record.fragment7 = (d₀.relay k).map Record.fragment7
  session : s.device.session = s.device.session.lock ∨
    (s.device.session.unlocked = true ∧ ∃ cr, Accepts C d₀ cr ∧ s.device.session.Holds cr d₀.relay)
  decoy : ∀ root ds, s.device.decoy = some (root, ds) →
    ds.keys = none ∨ ∃ id N, Attended C d₀ s root ds id N
  absent : s.device.registry = .absent → s.armed = none
  written : s.device.registry ≠ .absent → ∃ cr, Accepts C d₀ cr
  whole : ∀ r, s.device.registry = .whole r → ∃ id salt N, Armed C d₀ s r id salt N

section Opening

variable {C : Crypto} {cr : Credentials}

theorem collectVmk_congr {c : SecureConfig} {f g : Directory} (hshards : g.shards = f.shards)
    (hdb : g.database = f.database) (n : Nat) (seventh : Option Sealed) :
    collectVmk C { c with backupVersion := n } g cr seventh = collectVmk C c f cr seventh := by
  unfold collectVmk openable
  rw [hshards, hdb]

theorem collectVmk_key {c : SecureConfig} {f : Directory} {seventh : Option Sealed}
    (h : (collectVmk C c f cr seventh).isSome) : ∃ s, f.shards.f3 = some s ∧ s.key = cr.keys := by
  obtain ⟨vmk, h⟩ := Option.isSome_iff_exists.mp h
  simp only [collectVmk, bind, Option.bind_eq_some_iff] at h
  obtain ⟨w, hw, _⟩ := h
  exact collect_key hw

/-- The checks read the configuration without its version, the shares, the key of the
database and, where the vault has it there, the seventh share at the relay. -/
theorem accepts_congr {a b : Device}
    (hconfig : b.session.config.map Config.stripped = a.session.config.map Config.stripped)
    (hshards : b.files.shards = a.files.shards) (hdb : b.files.database = a.files.database)
    (hrelay : Reserved a cr.keys →
      (b.relay cr.keys).map Record.fragment7 = (a.relay cr.keys).map Record.fragment7) :
    Accepts C b cr ↔ Accepts C a cr := by
  unfold Accepts
  cases hc : a.session.config with
  | none =>
    rw [hc] at hconfig
    rw [Option.map_eq_none_iff.mp hconfig]
    rfl
  | some config =>
    rw [hc] at hconfig
    cases config with
    | legacy c =>
      have hb : b.session.config = some (.legacy c) := by
        cases hb : b.session.config with
        | none => rw [hb] at hconfig; cases hconfig
        | some d =>
          rw [hb] at hconfig
          cases d with
          | legacy d => cases hconfig; rfl
          | secure d => cases hconfig
      have hopenable : openable b.files = openable a.files := by unfold openable; rw [hdb]
      rw [hb]
      simp only [opening, hopenable]
    | secure c =>
      obtain ⟨n, hb⟩ := stripped_secure hconfig
      rw [hb]
      simp only [opening, openingSecure, collectVmk_congr hshards hdb]
      cases hexternal : c.external with
      | true => rfl
      | false =>
        by_cases hkey : ∃ s, a.files.shards.f3 = some s ∧ s.key = cr.keys
        · obtain ⟨s, hs, hkey⟩ := hkey
          have hmap := hrelay ⟨c, s, hc, hexternal, hs, hkey⟩
          have hbind (r : Option Record) : (r.bind fun x => collectVmk C c a.files cr x.fragment7) =
              (r.map Record.fragment7).bind (collectVmk C c a.files cr) := by
            cases r <;> rfl
          simp only [Bool.false_eq_true, if_false, bind, hbind, hmap]
        · have hnone (r : Option Record) :
              ¬(r.bind fun x => collectVmk C c a.files cr x.fragment7).isSome := by
            cases r with
            | none => exact fun h => by cases h
            | some x => exact fun h => hkey (collectVmk_key h)
          exact iff_of_false (hnone _) (hnone _)

/-- A vault with its seventh share at the relay is opened under the keys of that share. -/
theorem accepts_reserved {d : Device} {c : SecureConfig} (h : Accepts C d cr)
    (hc : d.session.config = some (.secure c)) (hcloud : c.external = false) :
    Reserved d cr.keys ∧ (d.relay cr.keys).isSome := by
  unfold Accepts at h
  rw [hc] at h
  simp only [opening, openingSecure, hcloud, Bool.false_eq_true, if_false, bind] at h
  cases hr : d.relay cr.keys with
  | none => rw [hr] at h; cases h
  | some r =>
    rw [hr] at h
    obtain ⟨s, hs, hkey⟩ := collectVmk_key (c := c) h
    exact ⟨⟨c, s, hc, hcloud, hs, hkey⟩, rfl⟩

theorem reserved_keys {d : Device} {k : Keys} (h : Accepts C d cr) (hk : Reserved d k) :
    k = cr.keys ∧ (d.relay k).isSome := by
  obtain ⟨c, s, hc, hcloud, hs, rfl⟩ := hk
  obtain ⟨⟨_, s', _, _, hs', hkey⟩, hsome⟩ := accepts_reserved h hc hcloud
  cases hs.symm.trans hs'
  exact ⟨hkey, by rw [hkey]; exact hsome⟩

end Opening

section Unlocking

variable {C : Crypto} {d₀ d : Device} {armed : Option (String × Entropy)} {cr : Credentials}
variable {F : UnlockFaults}

theorem tag_inj (hinj : Function.Injective C.tagDigest) {salt a b : String}
    (h : C.tagDigest (salt ++ a) = C.tagDigest (salt ++ b)) : a = b :=
  (String.append_right_inj salt).mp (hinj h)

theorem Invariant.accepts {s : State} (h : Invariant C d₀ s) :
    Accepts C s.device cr ↔ Accepts C d₀ cr :=
  accepts_congr h.config h.shards h.database (h.relay cr.keys)

theorem Invariant.setDecoy (h : Invariant C d₀ ⟨d, armed⟩) {x : Option (String × Session)}
    (hx : ∀ root ds, x = some (root, ds) →
      ds.keys = none ∨ ∃ id N, Attended C d₀ ⟨d, armed⟩ root ds id N) :
    Invariant C d₀ ⟨{ d with decoy := x }, armed⟩ := by
  refine ⟨h.config, h.shards, h.database, h.relay, h.session, fun root ds hd => ?_, h.absent, h.written,
    fun r hr => ?_⟩
  · obtain hk | ⟨id, N, ha⟩ := hx root ds hd
    · exact .inl hk
    · exact .inr ⟨id, N, ha.armed, ha.registry, ha.keys, ha.config, ha.fragment⟩
  · obtain ⟨id, salt, N, ha⟩ := h.whole r hr
    exact ⟨id, salt, N, ha.armed, ha.registry, ha.unreserved, ha.furnished, ha.recorded⟩

theorem Invariant.noDecoy (h : Invariant C d₀ ⟨d, armed⟩) :
    Invariant C d₀ ⟨{ d with decoy := none }, armed⟩ :=
  h.setDecoy fun _ _ hd => by cases hd

theorem Invariant.lock (h : Invariant C d₀ ⟨d, armed⟩) : Invariant C d₀ ⟨d.lock, armed⟩ := by
  refine ⟨h.config, h.shards, h.database, h.relay, .inl rfl, fun root ds hd => .inl ?_, h.absent, h.written,
    fun r hr => ?_⟩
  · obtain ⟨x, _, hx⟩ := Option.map_eq_some_iff.mp (show d.decoy.map _ = some (root, ds) from hd)
    cases hx
    rfl
  · obtain ⟨id, salt, N, ha⟩ := h.whole r hr
    exact ⟨id, salt, N, ha.armed, ha.registry, ha.unreserved, ha.furnished, ha.recorded⟩

/-- An unlock of the vault itself. -/
theorem Invariant.opened (h : Invariant C d₀ ⟨d, armed⟩) (hdecoy : d.decoy = none) {t : Vault}
    (ho : Opened C cr d.vault t) : Invariant C d₀ ⟨d.setVault t, armed⟩ := by
  have haccepts : Accepts C d₀ cr := h.accepts.mp ho.opens
  refine ⟨ho.config.trans h.config, ho.shards.trans h.shards, ho.database.trans h.database, fun k hk => ?_,
    .inr ⟨ho.unlocked, cr, haccepts, ?_⟩, fun root ds hd => ?_, h.absent, h.written, fun r hr => ?_⟩
  · exact (congrArg (fun a : Relay => (a k).map Record.fragment7) ho.relay).trans (h.relay k hk)
  · refine ⟨ho.holds.keys, fun c hc hcloud => ?_, ho.holds.legacy⟩
    obtain ⟨hexternal, r, hr, hfragment⟩ := ho.holds.fragment c hc hcloud
    have hreserved : Reserved d₀ cr.keys := by
      obtain ⟨n, hn⟩ := stripped_secure
        ((h.config.symm.trans ho.config.symm).trans (congrArg (Option.map Config.stripped) hc))
      exact (accepts_reserved haccepts hn hcloud).1
    obtain ⟨r₀, hr₀, heq⟩ := Option.map_eq_some_iff.mp
      ((h.relay _ hreserved).symm.trans (congrArg (Option.map Record.fragment7) hr))
    exact ⟨hexternal, r₀, hr₀, heq.trans hfragment⟩
  · cases hdecoy.symm.trans hd
  · obtain ⟨id, salt, N, ha⟩ := h.whole r hr
    refine ⟨id, salt, N, ha.armed, ha.registry, ha.unreserved, ha.furnished, fun hapart => ?_⟩
    obtain ⟨n, hn⟩ := ha.recorded hapart
    exact ⟨n, (congrFun ho.relay _).trans hn⟩

theorem Invariant.closedSession (h : Invariant C d₀ ⟨d, armed⟩) (hlocked : d.session.unlocked = false) :
    d.session = d.session.lock := by
  obtain hs | ⟨hu, _⟩ := h.session
  · exact hs
  · cases hlocked.symm.trans hu

theorem unlockPrimary_spec (hdb : d₀.files.database.isSome) :
    Triple (fun d => Invariant C d₀ ⟨d, armed⟩) (unlockPrimary C cr F)
      (fun _ d => Invariant C d₀ ⟨d, armed⟩ ∧ d.decoy = none ∧ Accepts C d₀ cr)
      (fun d => Invariant C d₀ ⟨d, armed⟩) (fun _ => True) := by
  refine Triple.bind (Q := fun _ d => Invariant C d₀ ⟨d, armed⟩ ∧ d.decoy = none)
    (Triple.update fun d h => ⟨h.noDecoy, rfl⟩) fun _ => Triple.read fun d hd => ?_
  refine Triple.ite (fun _ => Triple.throwing fun _ h => h.1.1) fun hlocked => Triple.within fun x hx => ?_
  obtain ⟨⟨h, hdecoy⟩, rfl⟩ := hx
  have hclosed := h.closedSession (Bool.eq_false_iff.mpr hlocked)
  have hdatabase : x.vault.files.database.isSome := by
    rw [show x.vault.files.database = d₀.files.database from h.database]
    exact hdb
  exact (unlock_spec hdatabase hclosed).consequence (fun _ ht => ht)
    (fun _ t ho => ⟨h.opened hdecoy ho, hdecoy, h.accepts.mp ho.opens⟩) (fun t ht => by rw [ht]; exact h) fun _ ht => ht

/-- The armed decoy once it is opened. -/
theorem Armed.opened {r : Registry} {id salt : String} {N : Entropy} {t : Vault}
    (h : Armed C d₀ ⟨d, armed⟩ r id salt N) (hreg : d.registry = .whole r)
    (hinv : Invariant C d₀ ⟨d, armed⟩) (hkeys : cr.keys = decoyKeys C id)
    (ho : Opened C cr (loaded (d.decoys r.root) d.relay) t) :
    Invariant C d₀ ⟨{ d.setDecoyAt r.root t with decoy := some (r.root, t.session) }, armed⟩ := by
  obtain ⟨hfurnished, n, hconfig⟩ := h.furnished.opened ho
  have hrelay : t.relay = d.relay := ho.relay
  refine ⟨hinv.config, hinv.shards, hinv.database, fun k hk => ?_, hinv.session, fun root ds hd => ?_,
    hinv.absent, hinv.written, fun r' hr' => ?_⟩
  · exact (congrArg (fun a : Relay => (a k).map Record.fragment7) hrelay).trans (hinv.relay k hk)
  · cases hd
    refine .inr ⟨id, N, h.armed, ⟨salt, hreg.trans (congrArg _ h.registry), congrArg _ h.registry⟩,
      (ho.holds.keys _ hconfig).trans (congrArg some hkeys), ⟨n, hconfig⟩, fun hapart => ?_⟩
    obtain ⟨hexternal, x, hx, hfragment⟩ := ho.holds.fragment _ hconfig rfl
    obtain ⟨m, hm⟩ := h.recorded hapart
    rw [hkeys] at hx
    cases hm.symm.trans hx
    exact ⟨hexternal, hfragment.symm⟩
  · cases hreg.symm.trans hr'
    refine ⟨id, salt, N, h.armed, h.registry, h.unreserved, ?_, fun hapart => ?_⟩
    · change Furnished C _ N (Function.update d.decoys r.root t.files r.root)
      rw [Function.update_self]
      exact hfurnished
    · obtain ⟨m, hm⟩ := h.recorded hapart
      exact ⟨m, (congrFun hrelay _).trans hm⟩

theorem openDecoy_spec (hinj : Function.Injective C.tagDigest) {r : Registry}
    (htag : C.tagDigest (r.salt ++ cr.vaultId) = r.tag) :
    Triple (fun d => Invariant C d₀ ⟨d, armed⟩ ∧ d.registry = .whole r) (openDecoy C r cr F)
      (fun _ d => Invariant C d₀ ⟨d, armed⟩ ∧ ∃ N, armed = some (cr.vaultId, N))
      (fun d => Invariant C d₀ ⟨d, armed⟩) (fun _ => True) := by
  refine Triple.bind (Q := fun _ d => Invariant C d₀ ⟨d, armed⟩ ∧ d.registry = .whole r)
    (Triple.update fun d h => ⟨h.1.lock, h.2⟩) fun _ => ?_
  refine Triple.bind (Q := fun _ d => Invariant C d₀ ⟨d, armed⟩ ∧ d.registry = .whole r)
    (Triple.update fun d h => ⟨h.1.noDecoy, h.2⟩) fun _ => ?_
  refine Triple.bind (Q := fun session d =>
    Invariant C d₀ ⟨{ d with decoy := some (r.root, session) }, armed⟩ ∧
      ∃ N, armed = some (cr.vaultId, N)) (Triple.within fun d h => ?_) fun session =>
    Triple.update fun d h => h
  obtain ⟨hinv, hreg⟩ := h
  obtain ⟨id, salt, N, harmed⟩ := hinv.whole r hreg
  have hid : cr.vaultId = id := by
    rw [harmed.registry] at htag
    exact tag_inj hinj htag
  have hread : readConfig (d.decoyAt r.root) = loaded (d.decoys r.root) d.relay :=
    harmed.furnished.readConfig d.relay
  refine Triple.bind (Q := fun _ v => v = loaded (d.decoys r.root) d.relay)
    (Triple.update fun v hv => by rw [hv, hread]) fun _ => ?_
  refine Triple.bind (Q := fun _ => Opened C (decoyCredentials C cr.vaultId cr.decoyClientShard)
      (loaded (d.decoys r.root) d.relay))
    ((unlock_spec ?_ rfl).consequence (fun _ h => h) (fun _ _ h => h) (fun t ht => ?_) fun _ h => h)
    fun _ => Triple.read fun t ht => Triple.done fun v hv => ?_
  · obtain ⟨rows, hrows⟩ := harmed.furnished.database
    exact Option.isSome_iff_exists.mpr ⟨_, hrows⟩
  · have hsame : d.setDecoyAt r.root t = d := by
      rw [ht]
      unfold Device.setDecoyAt loaded
      rw [Function.update_eq_self]
    rw [hsame]
    exact hinv
  · rw [hv.2]
    exact ⟨harmed.opened hreg hinv (by rw [hid]; rfl) ht, N, by rw [hid]; exact harmed.armed⟩

/-- Whatever id it is given, an unlock keeps the invariant, and only the armed id ends
with a decoy. -/
theorem unlockSecure_spec (hinj : Function.Injective C.tagDigest) (hdb : d₀.files.database.isSome) :
    Triple (fun d => Invariant C d₀ ⟨d, armed⟩) (unlockSecure C cr F)
      (fun _ d => Invariant C d₀ ⟨d, armed⟩ ∧
        (d.decoy.isSome → ∃ N, armed = some (cr.vaultId, N)))
      (fun d => Invariant C d₀ ⟨d, armed⟩) (fun _ => True) := by
  have hprimary : Triple (fun d => Invariant C d₀ ⟨d, armed⟩) (unlockPrimary C cr F)
      (fun _ d => Invariant C d₀ ⟨d, armed⟩ ∧ (d.decoy.isSome → ∃ N, armed = some (cr.vaultId, N)))
      (fun d => Invariant C d₀ ⟨d, armed⟩) (fun _ => True) :=
    (unlockPrimary_spec hdb).weaken fun _ d h => ⟨h.1, fun hd => by rw [h.2.1] at hd; cases hd⟩
  refine Triple.bind (Q := fun _ d => Invariant C d₀ ⟨d, armed⟩) (Triple.attempt_cases
    (fun _ _ h => h) (fun _ _ h => h) fun _ _ _ => trivial) fun _ => Triple.read fun d hd => ?_
  unfold dispatch
  split
  · exact hprimary.strengthen fun _ h => h.1
  · exact Triple.throwing fun _ h => h.1
  · next r hr =>
    refine Triple.ite (fun htag => ?_) fun _ => hprimary.strengthen fun _ h => h.1
    exact (openDecoy_spec hinj htag).consequence (fun x hx => ⟨hx.1, by rw [hx.2]; exact hr⟩)
      (fun _ x hx => ⟨hx.1, fun _ => hx.2⟩) (fun _ h => h) fun _ h => h

end Unlocking

section Locking

variable {C : Crypto} {d₀ d : Device} {armed : Option (String × Entropy)}

/-- Whoever holds keys opened the vault with them. -/
theorem Invariant.holder (h : Invariant C d₀ ⟨d, armed⟩) {k : Keys} (hk : d.session.keys = some k) :
    ∃ cr, Accepts C d₀ cr ∧ d.session.Holds cr d₀.relay ∧ k = cr.keys := by
  obtain hlocked | ⟨_, cr, haccepts, hholds⟩ := h.session
  · rw [hlocked] at hk
    cases hk
  · refine ⟨cr, haccepts, hholds, ?_⟩
    by_cases hc : ∃ c, d.session.config = some (.secure c)
    · obtain ⟨c, hc⟩ := hc
      exact Option.some.inj (hk.symm.trans (hholds.keys c hc))
    · cases hk.symm.trans (hholds.legacy fun c hcs => hc ⟨c, hcs⟩)

/-- A backup of the vault puts back the share the vault was opened with. -/
theorem Invariant.synced (h : Invariant C d₀ ⟨d, armed⟩) (hdecoy : d.decoy = none) {t : Vault}
    (hs : Synced d.vault t) : Invariant C d₀ ⟨d.setVault t, armed⟩ := by
  have hsession : t.session = { d.session with config := t.session.config } := hs.session
  refine ⟨hs.config.trans h.config, hs.shards.trans h.shards, hs.database.trans h.database, fun k hk => ?_,
    ?_, fun root ds hd => ?_, h.absent, h.written, fun r hr => ?_⟩
  · change (t.relay k).map _ = _
    obtain hr | ⟨k', n, hk', hr⟩ := hs.relay
    · rw [hr]
      exact h.relay k hk
    · obtain ⟨cr, haccepts, hholds, rfl⟩ := h.holder hk'
      obtain ⟨rfl, _⟩ := reserved_keys haccepts hk
      obtain ⟨c₀, _, hc₀, hcloud, _⟩ := hk
      obtain ⟨m, hm⟩ := stripped_secure (h.config.trans (congrArg (Option.map Config.stripped) hc₀))
      obtain ⟨hexternal, x, hx, hfragment⟩ := hholds.fragment _ hm hcloud
      rw [hr, hx, putRecord_self]
      change some (d.session.external7.or d.session.remoteFragment7) = some x.fragment7
      rw [hexternal, hfragment, Option.none_or]
  · obtain hlocked | ⟨hu, cr, haccepts, hholds⟩ := h.session
    · exact .inl (lock_reconfigured hsession hlocked)
    · refine .inr ⟨?_, cr, haccepts, hholds.reconfigured hsession hs.config⟩
      exact (congrArg Session.unlocked hsession).trans hu
  · cases hdecoy.symm.trans hd
  · obtain ⟨id, salt, N, ha⟩ := h.whole r hr
    refine ⟨id, salt, N, ha.armed, ha.registry, ha.unreserved, ha.furnished, fun hapart => ?_⟩
    obtain ⟨m, hm⟩ := ha.recorded hapart
    obtain hr | ⟨k', n, hk', hr⟩ := hs.relay
    · exact ⟨m, (congrFun hr _).trans hm⟩
    · obtain ⟨cr, haccepts, _, rfl⟩ := h.holder hk'
      have hne : decoyKeys C id ≠ cr.keys := fun heq =>
        hapart cr haccepts (congrArg Keys.vaultId heq).symm
      exact ⟨m, (congrFun hr _).trans ((putRecord_of_ne hne n _).trans hm)⟩

/-- What is armed is named by the registry alone. -/
theorem Attended.armed_whole {s : State} {root : String} {ds : Session} {id : String} {N : Entropy}
    (h : Attended C d₀ s root ds id N) (hinv : Invariant C d₀ s) :
    ∃ r salt, s.device.registry = .whole r ∧ r.root = root ∧ Armed C d₀ s r id salt N := by
  obtain ⟨salt, hreg, hroot⟩ := h.registry
  obtain ⟨id', salt', N', ha⟩ := hinv.whole _ hreg
  cases h.armed.symm.trans ha.armed
  exact ⟨_, salt', hreg, hroot.symm, ha⟩

/-- A backup of an open decoy keeps what the relay has of it. -/
theorem Invariant.syncedDecoy (h : Invariant C d₀ ⟨d, armed⟩) {root : String} {ds : Session}
    (hdecoy : d.decoy = some (root, ds)) {t : Vault}
    (hs : Synced ⟨d.decoys root, ds, d.relay⟩ t) : Invariant C d₀ ⟨d.setActive t, armed⟩ := by
  have hset : d.setActive t = { d with
      decoys := Function.update d.decoys root t.files
      decoy := some (root, t.session), relay := t.relay } := by
    unfold Device.setActive
    rw [hdecoy]
  have hsession : t.session = { ds with config := t.session.config } := hs.session
  have hkeys : t.session.keys = ds.keys := by rw [hsession]
  have hfiles (k : Keys) (N : Entropy) (x : String) (hf : Furnished C k N (d.decoys x))
      (hx : ds.keys.isSome → ∃ n, ds.config = some (.secure { freshConfig C k N with
        cloudBackupEnabled := true, backupVersion := n })) :
      Furnished C k N (Function.update d.decoys root t.files x) := by
    by_cases hroot : x = root
    · subst hroot
      rw [Function.update_self]
      exact hf.synced hs hx
    · rw [Function.update_of_ne hroot]
      exact hf
  rw [hset]
  obtain hnone | ⟨id, N, ha⟩ := h.decoy root ds hdecoy
  · have hrelay : t.relay = d.relay := by
      obtain hr | ⟨k, n, hk, _⟩ := hs.relay
      · exact hr
      · cases hnone.symm.trans hk
    refine ⟨h.config, h.shards, h.database, fun k hk => ?_, h.session, fun x es hd => ?_, h.absent,
      h.written, fun r hr => ?_⟩
    · exact (congrArg (fun a : Relay => (a k).map Record.fragment7) hrelay).trans (h.relay k hk)
    · cases hd
      exact .inl (hkeys.trans hnone)
    · obtain ⟨id, salt, N, ha⟩ := h.whole r hr
      refine ⟨id, salt, N, ha.armed, ha.registry, ha.unreserved, hfiles _ N _ ha.furnished ?_,
        fun hapart => ?_⟩
      · rw [hnone]
        exact nofun
      · obtain ⟨m, hm⟩ := ha.recorded hapart
        exact ⟨m, (congrFun hrelay _).trans hm⟩
  · obtain ⟨r, salt, hreg, hroot, harmed⟩ := ha.armed_whole h
    obtain ⟨n, hn⟩ := ha.config
    have hrelay : t.relay = d.relay ∨ ∃ n, t.relay = (putRecord (decoyKeys C id) n
        ⟨d.decoys root, ds, d.relay⟩).relay := by
      obtain hr | ⟨k, n, hk, hr⟩ := hs.relay
      · exact .inl hr
      · cases ha.keys.symm.trans hk
        exact .inr ⟨n, hr⟩
    refine ⟨h.config, h.shards, h.database, fun k hk => ?_, h.session, fun x es hd => ?_, h.absent,
      h.written, fun r' hr' => ?_⟩
    · refine Eq.trans ?_ (h.relay k hk)
      change (t.relay k).map _ = (d.relay k).map _
      have hne : k ≠ decoyKeys C id := by
        rintro rfl
        exact harmed.unreserved hk
      obtain hr | ⟨n, hr⟩ := hrelay
      · rw [hr]
      · rw [hr, putRecord_of_ne hne]
    · cases hd
      obtain ⟨m, hm⟩ := stripped_secure (hs.config.trans (congrArg (Option.map Config.stripped) hn))
      refine .inr ⟨id, N, ha.armed, ha.registry, hkeys.trans ha.keys, ⟨m, hm⟩, fun hapart => ?_⟩
      rw [hsession]
      exact ha.fragment hapart
    · cases hreg.symm.trans hr'
      refine ⟨id, salt, N, harmed.armed, harmed.registry, harmed.unreserved,
        hfiles _ N _ harmed.furnished fun _ => ⟨n, hn⟩, fun hapart => ?_⟩
      obtain ⟨hexternal, hremote⟩ := ha.fragment hapart
      obtain hr | ⟨n, hr⟩ := hrelay
      · obtain ⟨m, hm⟩ := harmed.recorded hapart
        exact ⟨m, (congrFun hr _).trans hm⟩
      · refine ⟨n, (congrFun hr _).trans ((putRecord_self _ n _).trans ?_)⟩
        change some (Record.mk (ds.external7.or ds.remoteFragment7) n) = _
        rw [hexternal, hremote, Option.none_or]

theorem lockDevice_spec {F : SyncFaults} :
    Triple (fun d => Invariant C d₀ ⟨d, armed⟩) (lockDevice F)
      (fun _ d => Invariant C d₀ ⟨d, armed⟩) (fun d => Invariant C d₀ ⟨d, armed⟩)
      (fun _ => True) := by
  refine Triple.bind (Q := fun _ d => Invariant C d₀ ⟨d, armed⟩) (Triple.orElse
    (I := fun d => Invariant C d₀ ⟨d, armed⟩) (Triple.within fun d h => ?_)
    (Triple.done fun _ h => h)) fun _ => Triple.update fun _ h => h.lock
  have hsynced : ∀ t, Synced d.active t → Invariant C d₀ ⟨d.setActive t, armed⟩ := by
    cases hdecoy : d.decoy with
    | none =>
      unfold Device.active Device.setActive
      rw [hdecoy]
      exact fun t ht => h.synced hdecoy ht
    | some x =>
      have hactive : d.active = ⟨d.decoys x.1, x.2, d.relay⟩ := by unfold Device.active; rw [hdecoy]
      rw [hactive]
      exact fun t ht => h.syncedDecoy hdecoy ht
  exact sync_spec.consequence (fun _ ht => ht) (fun _ t ht => hsynced t ht) (fun t ht => hsynced t ht)
    fun _ ht => ht

end Locking

section Configuring

variable {C : Crypto} {d₀ d : Device} {armed : Option (String × Entropy)} {id salt : String}
variable {N : Entropy}

/-- No decoy is kept there. -/
def Vacant (C : Crypto) (f : Directory) : Prop := ∀ k N, ¬Furnished C k N f

theorem vacant_empty : Vacant C .empty := fun _ _ h => by
  obtain ⟨n, hn⟩ := h.config
  cases hn

theorem Invariant.not_whole (h : Invariant C d₀ ⟨d, armed⟩)
    (hfresh : Vacant C (d.decoys (registryFor C id salt).root)) :
    d.registry ≠ .whole (registryFor C id salt) := by
  intro hreg
  obtain ⟨_, _, _, ha⟩ := h.whole _ hreg
  exact hfresh _ _ ha.furnished

theorem armedBy_other (h : d.registry ≠ .whole (registryFor C id salt)) :
    armedBy C id salt N armed d = armed := if_neg h

theorem armedBy_whole : armedBy C id salt N armed
    (setRegistry (.whole (registryFor C id salt)) d) = some (id, N) := if_pos rfl

/-- A vault that opens with its share at the relay has a backup there. -/
theorem Invariant.reserved_used (h : Invariant C d₀ ⟨d, armed⟩) {cr : Credentials}
    (haccepts : Accepts C d₀ cr) {k : Keys} (hk : Reserved d₀ k) : d.relay k ≠ none := by
  intro hnone
  obtain ⟨_, hsome⟩ := reserved_keys haccepts hk
  have hmap := h.relay k hk
  change (d.relay k).map _ = _ at hmap
  rw [hnone] at hmap
  rw [Option.map_eq_none_iff.mp hmap.symm] at hsome
  cases hsome

/-- The creation of a decoy, however it ends. -/
theorem Invariant.added (h : Invariant C d₀ ⟨d, armed⟩) (hdecoy : d.decoy = none) {cr : Credentials}
    (haccepts : Accepts C d₀ cr) {root : String} (hfresh : Vacant C (d.decoys root)) {t : Vault}
    (hadded : Added (decoyKeys C id) d.relay t.relay) :
    Invariant C d₀ ⟨d.setDecoyAt root t, armed⟩ := by
  have hkept (k : Keys) (hused : d.relay k ≠ none) : t.relay k = d.relay k := by
    obtain hr | ⟨hnone, x, hr⟩ := hadded
    · rw [hr]
    · have hne : k ≠ decoyKeys C id := by
        rintro rfl
        exact hused hnone
      rw [hr, Function.update_of_ne hne]
  refine ⟨h.config, h.shards, h.database, fun k hk => ?_, h.session, fun x es hd => ?_, h.absent, h.written,
    fun r hr => ?_⟩
  · exact (congrArg (Option.map Record.fragment7) (hkept k (h.reserved_used haccepts hk))).trans
      (h.relay k hk)
  · cases hdecoy.symm.trans hd
  · obtain ⟨id', salt', N', ha⟩ := h.whole r hr
    have hne : r.root ≠ root := by
      rintro rfl
      exact hfresh _ _ ha.furnished
    refine ⟨id', salt', N', ha.armed, ha.registry, ha.unreserved, ?_, fun hapart => ?_⟩
    · change Furnished C _ N' (Function.update d.decoys root t.files r.root)
      rw [Function.update_of_ne hne]
      exact ha.furnished
    · obtain ⟨m, hm⟩ := ha.recorded hapart
      have hm : d.relay (decoyKeys C id') = _ := hm
      exact ⟨m, (hkept _ (by rw [hm]; exact nofun)).trans hm⟩

/-- A write of `duress.json` that was cut off. -/
theorem Invariant.torn (h : Invariant C d₀ ⟨d, armed⟩) (hdecoy : d.decoy = none)
    (haccepts : ∃ cr, Accepts C d₀ cr) : Invariant C d₀ ⟨setRegistry .torn d, armed⟩ :=
  ⟨h.config, h.shards, h.database, h.relay, h.session,
    fun _ _ hd => absurd (hdecoy.symm.trans hd) nofun, nofun, fun _ => haccepts, nofun⟩

/-- A decoy that is ready to be armed. -/
structure Prepared (C : Crypto) (d₀ : Device) (armed : Option (String × Entropy)) (id root : String)
    (N : Entropy) (d : Device) : Prop where
  invariant : Invariant C d₀ ⟨d, armed⟩
  decoy : d.decoy = none
  accepts : ∃ cr, Accepts C d₀ cr
  unreserved : ¬Reserved d₀ (decoyKeys C id)
  furnished : Furnished C (decoyKeys C id) N (d.decoys root)
  recorded : Recorded C (decoyKeys C id) N d.relay

theorem Prepared.arm (h : Prepared C d₀ armed id (registryFor C id salt).root N d) :
    Invariant C d₀ ⟨setRegistry (.whole (registryFor C id salt)) d, some (id, N)⟩ := by
  refine ⟨h.invariant.config, h.invariant.shards, h.invariant.database, h.invariant.relay,
    h.invariant.session, fun _ _ hd => ?_, nofun, fun _ => h.accepts, fun r hr => ?_⟩
  · cases h.decoy.symm.trans hd
  · cases hr
    exact ⟨id, salt, N, rfl, rfl, h.unreserved, h.furnished, fun _ => h.recorded⟩

theorem configureDuress_spec {F : ConfigureFaults} :
    Triple (fun d => Invariant C d₀ ⟨d, armed⟩ ∧ d.decoys (registryFor C id salt).root = .empty)
      (configureDuress C id salt N F)
      (fun _ d => Invariant C d₀ ⟨d, armedBy C id salt N armed d⟩)
      (fun d => Invariant C d₀ ⟨d, armedBy C id salt N armed d⟩) (fun _ => True) := by
  refine Triple.read fun d hd => ?_
  have hvacant : Vacant C (d.decoys (registryFor C id salt).root) := by
    rw [hd.2]
    exact vacant_empty
  have hnot := hd.1.not_whole hvacant
  have hrefused : Triple (fun x => (Invariant C d₀ ⟨x, armed⟩ ∧
      x.decoys (registryFor C id salt).root = .empty) ∧ x = d)
      (throwing : Program Device Share)
      (fun _ d => Invariant C d₀ ⟨d, armedBy C id salt N armed d⟩)
      (fun d => Invariant C d₀ ⟨d, armedBy C id salt N armed d⟩) (fun _ => True) :=
    Triple.throwing fun x hx => by rw [hx.2, armedBy_other hnot]; exact hd.1
  refine Triple.ite (fun _ => hrefused) fun hprimary => Triple.ite (fun _ => hrefused) fun _ => ?_
  have hdecoy : d.decoy = none := by
    simpa using fun h => hprimary (.inl h)
  obtain ⟨cr, haccepts⟩ : ∃ cr, Accepts C d₀ cr := by
    obtain hlocked | ⟨_, cr, haccepts, _⟩ := hd.1.session
    · refine absurd (.inr ?_) hprimary
      exact congrArg Session.unlocked hlocked
    · exact ⟨cr, haccepts⟩
  refine Triple.bind (Q := fun _ x => Prepared C d₀ armed id (registryFor C id salt).root N x ∧
    x.registry ≠ .whole (registryFor C id salt)) (Triple.within fun x hx => ?_) fun browser => ?_
  · rw [hx.2]
    refine (makeDecoy_spec (v := d.decoyAt (registryFor C id salt).root) hd.2 rfl).consequence
      (fun _ ht => ht) (fun _ t ht => ?_) (fun t ht => ?_) fun _ ht => ht
    · obtain ⟨_, u, hmade, rfl⟩ := ht
      refine ⟨⟨hd.1.added hdecoy haccepts hvacant hmade.added, hdecoy, ⟨cr, haccepts⟩, fun hres => ?_, ?_,
        hmade.recorded⟩, hnot⟩
      · exact hd.1.reserved_used haccepts hres hmade.unused
      · change Furnished C _ N (Function.update d.decoys _ u.files _)
        rw [Function.update_self]
        exact hmade.furnished
    · rw [armedBy_other (d := d.setDecoyAt (registryFor C id salt).root t) hnot]
      exact hd.1.added hdecoy haccepts hvacant ht
  · have hwhole (x : Device) (hx : Prepared C d₀ armed id (registryFor C id salt).root N x) :
        Invariant C d₀ ⟨setRegistry (.whole (registryFor C id salt)) x,
          armedBy C id salt N armed (setRegistry (.whole (registryFor C id salt)) x)⟩ := by
      rw [armedBy_whole]
      exact hx.arm
    refine Triple.bind (Q := fun _ x => Invariant C d₀ ⟨x, armedBy C id salt N armed x⟩)
      (Triple.gradually (fun _ x hx => hwhole x hx.1) (fun n _ x hx => ?_) fun _ _ _ _ => trivial)
      fun _ => Triple.done fun _ hx => hx
    -- nothing written, a part of the text, or all of it before the failure
    by_cases h0 : n = 0
    · simp only [if_pos h0]
      rw [armedBy_other hx.2]
      exact hx.1.invariant
    · by_cases h1 : n = 1
      · simp only [if_neg h0, if_pos h1]
        rw [armedBy_other (by exact nofun)]
        exact hx.1.invariant.torn hx.1.decoy hx.1.accepts
      · simp only [if_neg h0, if_neg h1]
        exact hwhole x hx.1

end Configuring

section Runs

variable {C : Crypto} {s₀ s : State} {es : List Event} {d₀ d : Device} {cr : Credentials}

theorem initial_invariant (h : Initial s₀) : Invariant C s₀.device s₀ :=
  ⟨rfl, rfl, rfl, fun _ _ => rfl, .inl h.locked, fun _ _ hd => absurd (h.decoy.symm.trans hd) nofun,
    fun _ => h.armed, fun hne => absurd h.registry hne, fun _ hr => absurd (h.registry.symm.trans hr) nofun⟩

theorem step_invariant (hinj : Function.Injective C.tagDigest) (hdb : d₀.files.database.isSome)
    (s : State) (e : Event) (h : Invariant C d₀ s) (he : Enabled C s e) :
    Invariant C d₀ (next C s e) := by
  obtain ⟨d, armed⟩ := s
  cases e with
  | unlock cr F =>
    exact ((unlockSecure_spec hinj hdb).weaken fun _ _ hs => hs.1).state_of_survives h he
  | lock F => exact lockDevice_spec.state_of_survives h he
  | configure id salt N F => exact configureDuress_spec.state_of_survives ⟨h, he.1⟩ he.2

theorem run_invariant (hinj : Function.Injective C.tagDigest) (h₀ : Initial s₀)
    (h : Execution (system C) s₀ es s) : Invariant C s₀.device s :=
  execution_invariant (M := system C) (I := Invariant C s₀.device)
    (step_invariant hinj h₀.database) h (initial_invariant h₀)

/-- Accepted credentials open the vault, unless something fails. -/
theorem unlock_accepted {v : Vault} (hdb : v.files.database.isSome) (hlocked : v.session = v.session.lock)
    (hopen : (opening C v.session.config v.files v.relay cr).isSome) :
    Triple (fun s => s = v) (unlock C cr calm) (fun _ t => Opened C cr v t) (fun _ => False)
      (fun _ => False) := by
  intro x hx
  have hspec : (unlock C cr calm x).Satisfies (fun _ t => Opened C cr v t) (fun t => t = v)
      (fun _ => True) := unlock_spec hdb hlocked x hx
  have hreturned := unlock_calm hopen
  rw [← hx] at hreturned
  cases hr : unlock C cr calm x with
  | returned a t => rw [hr] at hspec; exact hspec
  | threw t => rw [hr] at hreturned; exact hreturned
  | crashed t => rw [hr] at hreturned; exact hreturned

theorem unlockPrimary_accepted (hdb : d.files.database.isSome) (hlocked : d.session = d.session.lock)
    (haccepts : Accepts C d cr) :
    Triple (fun x => x = d) (unlockPrimary C cr calm)
      (fun _ t => t.decoy = none ∧ t.session.unlocked = true) (fun _ => False) (fun _ => False) := by
  refine Triple.bind (Q := fun _ x => x = { d with decoy := none })
    (Triple.update fun x hx => by rw [hx]) fun _ => Triple.read fun x hx => ?_
  subst hx
  have hu : d.session.unlocked = false := by rw [hlocked]; rfl
  refine Triple.ite (fun h => absurd (hu.symm.trans h) nofun) fun _ => Triple.within fun x hx => ?_
  rw [hx.2]
  exact (unlock_accepted (v := d.vault) hdb hlocked haccepts).consequence (fun _ h => h)
    (fun _ t ho => ⟨rfl, ho.unlocked⟩) (fun _ h => h) fun _ h => h

theorem openDecoy_decoy {r : Registry} {F : UnlockFaults} : Triple (fun _ => True) (openDecoy C r cr F)
    (fun _ d => d.decoy.isSome) (fun _ => True) (fun _ => True) := by
  refine Triple.bind (Q := fun _ _ => True) (Triple.update fun _ _ => trivial) fun _ => ?_
  refine Triple.bind (Q := fun _ _ => True) (Triple.update fun _ _ => trivial) fun _ => ?_
  refine Triple.bind (Q := fun _ _ => True) (fun d _ => ?_) fun _ => Triple.update fun _ _ => rfl
  cases atDecoy r.root _ d <;> trivial

theorem openDecoy_accepted {r : Registry} {N : Entropy}
    (hfurnished : Furnished C (decoyKeys C cr.vaultId) N (d.decoys r.root))
    (hrecorded : Recorded C (decoyKeys C cr.vaultId) N d.relay)
    (hclient : cr.decoyClientShard = some (N.split C (decoyKeys C cr.vaultId)).webView) :
    Triple (fun x => x = d) (openDecoy C r cr calm) (fun _ t => t.decoy.isSome) (fun _ => False)
      (fun _ => False) := by
  refine Triple.bind (Q := fun _ x => x = d.lock) (Triple.update fun x hx => by rw [hx]) fun _ => ?_
  refine Triple.bind (Q := fun _ x => x = { d.lock with decoy := none })
    (Triple.update fun x hx => by rw [hx]) fun _ => ?_
  refine Triple.bind (Q := fun _ _ => True) (Triple.within fun x hx => ?_) fun _ =>
    Triple.update fun _ _ => rfl
  subst hx
  have hread : readConfig (Device.decoyAt r.root { d.lock with decoy := none }) =
      loaded (d.decoys r.root) d.relay := hfurnished.readConfig d.relay
  have hopens : (opening C (loaded (d.decoys r.root) d.relay).session.config
      (loaded (d.decoys r.root) d.relay).files (loaded (d.decoys r.root) d.relay).relay
      (decoyCredentials C cr.vaultId cr.decoyClientShard)).isSome := by
    have hopen : opening C (d.decoys r.root).config (d.decoys r.root) d.relay
        (decoyCredentials C cr.vaultId cr.decoyClientShard) = some N.vmk :=
      hfurnished.opens hrecorded rfl hclient
    exact Option.isSome_iff_exists.mpr ⟨_, hopen⟩
  have hdatabase : (loaded (d.decoys r.root) d.relay).files.database.isSome := by
    obtain ⟨rows, hrows⟩ := hfurnished.database
    exact Option.isSome_iff_exists.mpr ⟨_, hrows⟩
  refine Triple.bind (Q := fun _ v => v = loaded (d.decoys r.root) d.relay)
    (Triple.update fun v hv => by rw [hv, hread]) fun _ => ?_
  exact Triple.bind ((unlock_accepted hdatabase rfl hopens).weaken fun _ _ _ => trivial) fun _ =>
    Triple.read fun _ _ => Triple.done fun _ _ => trivial

theorem opensPrimary_iff (hinj : Function.Injective C.tagDigest) (hdb : d₀.files.database.isSome)
    (h : Invariant C d₀ s) (hlocked : s.device.session.unlocked = false) (haccepts : Accepts C d₀ cr) :
    OpensPrimary C cr s.device ↔
      s.device.registry ≠ .torn ∧ ∀ id N, s.armed = some (id, N) → cr.vaultId ≠ id := by
  obtain ⟨d, armed⟩ := s
  have hdatabase : d.files.database.isSome := by
    rw [show d.files.database = d₀.files.database from h.database]
    exact hdb
  have hopened : ∃ a t, unlockPrimary C cr calm d = .returned a t ∧
      t.decoy = none ∧ t.session.unlocked = true :=
    (unlockPrimary_accepted hdatabase (h.closedSession hlocked) (h.accepts.mpr haccepts)).exists_returned
      rfl
  change (∃ t, dispatch C d.registry cr calm d = .returned () t ∧ t.decoy = none ∧
    t.session.unlocked = true) ↔ _
  unfold dispatch
  cases hreg : d.registry with
  | absent =>
    obtain ⟨_, t, ht, hopen⟩ := hopened
    refine iff_of_true ⟨t, ht, hopen⟩ ⟨nofun, fun id N harmed => ?_⟩
    cases (h.absent hreg).symm.trans harmed
  | torn => exact iff_of_false (fun ⟨t, ht, _⟩ => by cases ht) fun hne => hne.1 rfl
  | whole r =>
    obtain ⟨id, salt, N, ha⟩ := h.whole r hreg
    have htag : C.tagDigest (r.salt ++ cr.vaultId) = r.tag ↔ cr.vaultId = id := by
      rw [ha.registry]
      exact ⟨fun heq => tag_inj hinj heq, fun heq => by rw [heq]; rfl⟩
    by_cases hid : cr.vaultId = id
    · simp only [if_pos (htag.mpr hid)]
      refine iff_of_false (fun ⟨t, ht, hnone, _⟩ => ?_) fun hne => hne.2 id N ha.armed hid
      have hdecoy : (openDecoy C r cr calm d).Satisfies (fun _ d => d.decoy.isSome = true)
          (fun _ => True) (fun _ => True) := openDecoy_decoy d trivial
      rw [ht] at hdecoy
      change t.decoy.isSome at hdecoy
      rw [hnone] at hdecoy
      cases hdecoy
    · simp only [if_neg (mt htag.mp hid)]
      obtain ⟨_, t, ht, hopen⟩ := hopened
      refine iff_of_true ⟨t, ht, hopen⟩ ⟨nofun, fun id' N' harmed => ?_⟩
      cases ha.armed.symm.trans harmed
      exact hid

theorem opensPrimary_initial (hinj : Function.Injective C.tagDigest) (h₀ : Initial s₀) :
    OpensPrimary C cr s₀.device ↔ Accepts C s₀.device cr := by
  have hinv := initial_invariant (C := C) h₀
  refine ⟨fun ⟨t, ht, _⟩ => ?_, fun haccepts => (opensPrimary_iff hinj h₀.database hinv ?_ haccepts).mpr
    ⟨by rw [h₀.registry]; exact nofun, fun id N harmed => by cases h₀.armed.symm.trans harmed⟩⟩
  · have hspec : (unlockPrimary C cr calm s₀.device).Satisfies
        (fun _ d => Invariant C s₀.device ⟨d, s₀.armed⟩ ∧ d.decoy = none ∧ Accepts C s₀.device cr)
        (fun d => Invariant C s₀.device ⟨d, s₀.armed⟩) (fun _ => True) :=
      unlockPrimary_spec h₀.database s₀.device hinv
    have hcalm : unlockSecure C cr calm s₀.device = unlockPrimary C cr calm s₀.device := by
      change dispatch C s₀.device.registry cr calm s₀.device = _
      rw [h₀.registry]
      rfl
    rw [← hcalm, ht] at hspec
    exact hspec.2.2
  · rw [h₀.locked]
    rfl

theorem opensDecoy_armed (h : Invariant C d₀ s) {id : String} {N : Entropy}
    (harmed : s.armed = some (id, N)) (hwhole : s.device.registry ≠ .torn) (hapart : Apart C d₀ id)
    (hid : cr.vaultId = id)
    (hclient : cr.decoyClientShard = some (N.split C (decoyKeys C id)).webView) :
    OpensDecoy C cr s.device := by
  obtain ⟨d, armed⟩ := s
  subst hid
  change ∃ t, dispatch C d.registry cr calm d = .returned () t ∧ t.decoy.isSome
  unfold dispatch
  cases hreg : d.registry with
  | absent => cases (h.absent hreg).symm.trans harmed
  | torn => exact absurd hreg hwhole
  | whole r =>
    obtain ⟨id, salt, M, ha⟩ := h.whole r hreg
    cases harmed.symm.trans ha.armed
    have htag : C.tagDigest (r.salt ++ cr.vaultId) = r.tag := by rw [ha.registry]; rfl
    simp only [if_pos htag]
    obtain ⟨_, t, ht, hdecoy⟩ :=
      (openDecoy_accepted ha.furnished (ha.recorded hapart) hclient).exists_returned rfl
    exact ⟨t, ht, hdecoy⟩

end Runs

/-- What arming must not change, and what it is for. -/
structure Unharmed (C : Crypto) (d₀ : Device) (s : State) : Prop where
  primary : ∀ cr, OpensPrimary C cr d₀ → OpensPrimary C cr s.device
  decoy : ∀ id N, s.armed = some (id, N) → ∀ cr, cr.vaultId = id →
    cr.decoyClientShard = some (N.split C (decoyKeys C id)).webView → OpensDecoy C cr s.device
  others : ∀ cr F t, unlockSecure C cr F s.device = .returned () t → t.decoy.isSome →
    ∃ N, s.armed = some (cr.vaultId, N)

/-- The last write of `duress.json` was not cut off, and the id it armed is none that
opens the vault. -/
def Separate (C : Crypto) (d₀ : Device) (s : State) : Prop :=
  s.device.registry ≠ .torn ∧
    ∀ id N, s.armed = some (id, N) → ∀ cr, OpensPrimary C cr d₀ → cr.vaultId ≠ id

theorem unharmed_iff_separate {C : Crypto} (hinj : Function.Injective C.tagDigest) {s₀ s : State}
    {es : List Event} (h₀ : Initial s₀) (h : Execution (system C) s₀ es s)
    (hlocked : s.device.session.unlocked = false) :
    Unharmed C s₀.device s ↔ Separate C s₀.device s := by
  have hinv := run_invariant hinj h₀ h
  have hinitial {cr : Credentials} : OpensPrimary C cr s₀.device ↔ Accepts C s₀.device cr :=
    opensPrimary_initial hinj h₀
  have hopens {cr : Credentials} (haccepts : Accepts C s₀.device cr) :=
    opensPrimary_iff hinj h₀.database hinv hlocked haccepts
  constructor
  · intro hunharmed
    refine ⟨fun htorn => ?_, fun id N harmed cr hcr => ?_⟩
    · obtain ⟨cr, haccepts⟩ := hinv.written (by rw [htorn]; exact nofun)
      exact ((hopens haccepts).mp (hunharmed.primary cr (hinitial.mpr haccepts))).1 htorn
    · exact ((hopens (hinitial.mp hcr)).mp (hunharmed.primary cr hcr)).2 id N harmed
  · intro hseparate
    refine ⟨fun cr hcr => ?_, fun id N harmed cr hid hclient => ?_, fun cr F t ht hdecoy => ?_⟩
    · exact (hopens (hinitial.mp hcr)).mpr
        ⟨hseparate.1, fun id N harmed => hseparate.2 id N harmed cr hcr⟩
    · exact opensDecoy_armed hinv harmed hseparate.1
        (fun cr haccepts => hseparate.2 id N harmed cr (hinitial.mpr haccepts)) hid hclient
    · have hspec : (unlockSecure C cr F s.device).Satisfies
          (fun _ d => Invariant C s₀.device ⟨d, s.armed⟩ ∧
            (d.decoy.isSome → ∃ N, s.armed = some (cr.vaultId, N)))
          (fun d => Invariant C s₀.device ⟨d, s.armed⟩) (fun _ => True) :=
        unlockSecure_spec hinj h₀.database s.device hinv
      rw [ht] at hspec
      exact hspec.2 hdecoy

section Session

theorem digest_length : (String.ofList (List.replicate 64 '0')).length = 64 := by
  rw [String.length_ofList, List.length_replicate]

theorem padded_back (v : BitVec 256) : some ((v.setWidth 384).setWidth 256) = some v := by
  rw [BitVec.setWidth_setWidth_of_le _ (by decide), BitVec.setWidth_eq]

/-- A vault key is padded, a digest counts. -/
def counting : Crypto where
  tagDigest := id
  sha256 _ := String.ofList (List.replicate 64 '0')
  sha256_length _ := digest_length
  shardDigest s := String.ofList (List.replicate s.toNat 'x')
  wrap _ _ v := v.setWidth 384
  unwrap _ _ s := some (s.setWidth 256)
  unwrap_wrap _ _ v := padded_back v

def drawn : Entropy := ⟨9, 0, ⟨1, 2, 3, 4, 5, 6⟩⟩

def owner : Keys := ⟨"alice-in-wonderland", "Correct-horse-1"⟩

def unarmed : State where
  device :=
    { files := ⟨some (.secure { freshConfig counting owner drawn with cloudBackupEnabled := true }),
        scatter owner (drawn.split counting owner), some ⟨drawn.vmk, []⟩, []⟩
      session := { Session.closed with
        config := some (.secure { freshConfig counting owner drawn with
          cloudBackupEnabled := true }) }
      registry := .absent
      decoys := fun _ => .empty
      decoy := none
      relay := fun k => if k = owner then
        some ⟨some (sealedSeventh owner (drawn.split counting owner)), 0⟩ else none }
  armed := none

def ownerOpens : Credentials :=
  ⟨owner.vaultId, owner.password, some (drawn.split counting owner).webView, none, none⟩

/-- The vault's own id is armed. -/
def ownId : List Event :=
  [.unlock ownerOpens calm,
    .configure owner.vaultId "salt" drawn
      ⟨⟨.none, .none, .none, ⟨.none, .none⟩, .none, .none⟩, .none, ⟨.none, .none⟩, .none⟩,
    .lock ⟨.none, .none⟩]

theorem unarmed_initial : Initial unarmed := ⟨rfl, rfl, rfl, rfl, rfl⟩

instance (s : State) (e : Event) : Decidable (Enabled counting s e) := by
  cases e <;> simp only [Enabled] <;> infer_instance

theorem ownId_valid : (system counting).Valid unarmed ownId := by
  simp only [ownId, System.Valid, system]
  refine ⟨?_, ?_, ?_, trivial⟩ <;> decide +kernel

theorem owner_accepted : Accepts counting unarmed.device ownerOpens := by
  unfold Accepts
  decide +kernel

def armedOwnId : State := (system counting).replay unarmed ownId

/-- The one id that opens the vault opens the decoy instead. -/
theorem own_id_harms : ¬Unharmed counting unarmed.device armedOwnId := by
  intro hunharmed
  have hlocked : armedOwnId.device.session.unlocked = false := by decide +kernel
  have hopens : OpensPrimary counting ownerOpens unarmed.device :=
    (opensPrimary_initial (fun _ _ h => h) unarmed_initial).mpr owner_accepted
  have harmed : armedOwnId.armed = some (owner.vaultId, drawn) := by decide +kernel
  have hrun : Execution (system counting) unarmed ownId armedOwnId := valid_execution ownId_valid
  have hseparate : Separate counting unarmed.device armedOwnId :=
    (unharmed_iff_separate (fun _ _ h => h) unarmed_initial hrun hlocked).mp hunharmed
  exact hseparate.2 _ _ harmed ownerOpens hopens rfl

end Session
end DuressArming
