import CryptoPigeon.DuressVault

/-! # What unlocking, backing up and creating a vault can do

One statement for each operation of `DuressVault`, whatever fails within it. An unlock
opens the vault or leaves it; a backup puts the share it was opened with back to the relay;
a decoy that was created opens with the client share handed out, and one that was not
leaves at most a backup under keys that had none. -/
namespace DuressVault

open FaultyProgram SevenShares

/-- The configuration without the version of its backup, which every upload and every
unlock changes. -/
def Config.stripped : Config → Config
  | .legacy c => .legacy c
  | .secure c => .secure { c with backupVersion := 0 }

/-- What an unlocked vault holds in memory. -/
structure Session.Holds (cr : Credentials) (relay : Relay) (s : Session) : Prop where
  keys : ∀ c, s.config = some (.secure c) → s.keys = some cr.keys
  fragment : ∀ c, s.config = some (.secure c) → c.external = false → s.external7 = none ∧
    ∃ r, relay cr.keys = some r ∧ r.fragment7 = s.remoteFragment7
  legacy : (∀ c, s.config ≠ some (.secure c)) → s.keys = none

/-- The vault `v`, which the credentials open, once they opened it. -/
structure Opened (C : Crypto) (cr : Credentials) (v t : Vault) : Prop where
  opens : (opening C v.session.config v.files v.relay cr).isSome
  relay : t.relay = v.relay
  shards : t.files.shards = v.files.shards
  database : t.files.database = v.files.database
  config : t.session.config.map Config.stripped = v.session.config.map Config.stripped
  disk : t.files.config.map Config.stripped = v.files.config.map Config.stripped ∨
    t.files.config.map Config.stripped = v.session.config.map Config.stripped
  unlocked : t.session.unlocked = true
  holds : t.session.Holds cr v.relay

/-- An upload that was answered. -/
structure Uploaded (c : SecureConfig) (k : Keys) (v t : Vault) : Prop where
  files : t.files = { v.files with config := t.session.config }
  session : t.session = { v.session with config := some (.secure (advance c)) }
  relay : t.relay = (putRecord k (c.backupVersion + 1) v).relay

/-- What a backup can change, however it ends. -/
structure Synced (v t : Vault) : Prop where
  shards : t.files.shards = v.files.shards
  database : t.files.database = v.files.database
  config : t.session.config.map Config.stripped = v.session.config.map Config.stripped
  disk : t.files.config = v.files.config ∨
    (v.session.keys.isSome ∧ t.files.config = t.session.config)
  session : t.session = { v.session with config := t.session.config }
  relay : t.relay = v.relay ∨
    ∃ k n, v.session.keys = some k ∧ t.relay = (putRecord k n v).relay

/-- At most a first record under these keys was added. -/
def Added (k : Keys) (a b : Relay) : Prop :=
  b = a ∨ (a k = none ∧ ∃ r, b = Function.update a k (some r))

/-- A decoy that was created, and the relay it found. -/
structure Made (C : Crypto) (k : Keys) (N : Entropy) (a : Relay) (t : Vault) : Prop where
  session : ∃ n, t.session = ⟨some (.secure { freshConfig C k N with
    cloudBackupEnabled := true, backupVersion := n }), some k, some N.vmk, true, none,
    some (sealedSeventh k (N.split C k))⟩
  disk : t.files.config.map Config.stripped = t.session.config.map Config.stripped
  shards : t.files.shards = scatter k (N.split C k)
  database : ∃ rows, t.files.database = some ⟨N.vmk, rows⟩
  unused : a k = none
  relay : ∃ n, t.relay = Function.update a k (some ⟨some (sealedSeventh k (N.split C k)), n⟩)

theorem stripped_secure {config : Option Config} {c : SecureConfig}
    (h : config.map Config.stripped = some (Config.secure c).stripped) :
    ∃ n, config = some (.secure { c with backupVersion := n }) := by
  cases config with
  | none => cases h
  | some config =>
    cases config with
    | legacy d => cases h
    | secure d =>
      obtain ⟨nonce, hashes, external, cloud, pending, version⟩ := d
      cases h
      exact ⟨version, rfl⟩

/-- What a decoy keeps in its directory for the next unlock. -/
structure Furnished (C : Crypto) (k : Keys) (N : Entropy) (f : Directory) : Prop where
  config : ∃ n, f.config = some (.secure { freshConfig C k N with
    cloudBackupEnabled := true, backupVersion := n })
  shards : f.shards = scatter k (N.split C k)
  database : ∃ rows, f.database = some ⟨N.vmk, rows⟩

/-- The relay has its seventh share. -/
def Recorded (C : Crypto) (k : Keys) (N : Entropy) (relay : Relay) : Prop :=
  ∃ n, relay k = some ⟨some (sealedSeventh k (N.split C k)), n⟩

/-- The version does not matter to what a session holds. -/
theorem Session.Holds.reconfigured {cr : Credentials} {relay : Relay} {s t : Session}
    (h : s.Holds cr relay) (hs : t = { s with config := t.config })
    (hc : t.config.map Config.stripped = s.config.map Config.stripped) : t.Holds cr relay := by
  have hback (c : SecureConfig) (ht : t.config = some (.secure c)) :
      ∃ n, s.config = some (.secure { c with backupVersion := n }) :=
    stripped_secure (hc.symm.trans (congrArg (Option.map Config.stripped) ht))
  have hkeys : t.keys = s.keys := by rw [hs]
  have hexternal : t.external7 = s.external7 := by rw [hs]
  have hremote : t.remoteFragment7 = s.remoteFragment7 := by rw [hs]
  refine ⟨fun c ht => ?_, fun c ht hcloud => ?_, fun hnot => hkeys.trans (h.legacy fun c hsc => ?_)⟩
  · obtain ⟨n, hn⟩ := hback c ht
    exact hkeys.trans (h.keys _ hn)
  · obtain ⟨n, hn⟩ := hback c ht
    rw [hexternal, hremote]
    exact h.fragment _ hn hcloud
  · obtain ⟨n, hn⟩ := stripped_secure (hc.trans (congrArg (Option.map Config.stripped) hsc))
    exact hnot _ hn

theorem lock_reconfigured {s t : Session} (hs : t = { s with config := t.config })
    (hlocked : s = s.lock) : t = t.lock := by
  rw [hlocked] at hs
  exact hs

theorem putRecord_self (k : Keys) (n : Nat) (v : Vault) : (putRecord k n v).relay k =
    some ⟨v.session.external7.or v.session.remoteFragment7, n⟩ :=
  Function.update_self k _ _

theorem putRecord_of_ne {k k' : Keys} (h : k' ≠ k) (n : Nat) (v : Vault) :
    (putRecord k n v).relay k' = v.relay k' :=
  Function.update_of_ne h _ _

section Operations

variable {C : Crypto} {cr : Credentials} {F : UnlockFaults} {v : Vault}

theorem openDb_files {db : Database} (h : v.files.database = some db) (vmk : Vmk) :
    (openDb vmk v).files = v.files := by
  obtain ⟨⟨config, shards, database, attachments⟩, session, relay⟩ := v
  cases h
  rfl

/-- Whatever happens to it, an unlock either opens the vault or leaves it as it was. -/
theorem unlock_spec (hdb : v.files.database.isSome) (hlocked : v.session = v.session.lock) :
    Triple (fun s => s = v) (unlock C cr F) (fun _ t => Opened C cr v t) (fun t => t = v)
      (fun _ => True) := by
  obtain ⟨db, hdb⟩ := Option.isSome_iff_exists.mp hdb
  refine Triple.bind (Q := fun _ s => s = v) (Triple.attempt_cases (fun _ _ h => h)
    (fun _ _ h => h) fun _ _ _ => trivial) fun _ => Triple.read fun r hr => ?_
  subst hr
  cases hopen : opening C r.session.config r.files r.relay cr with
  | none => exact Triple.throwing fun _ h => h.1
  | some vmk =>
    have hfiles := openDb_files hdb vmk
    have hshards : (openDb vmk r).files.shards = r.files.shards := congrArg _ hfiles
    have hdatabase : (openDb vmk r).files.database = r.files.database := congrArg _ hfiles
    have hconfig : (openDb vmk r).files.config = r.files.config := congrArg _ hfiles
    have hback : lockVault (openDb vmk r) = r := by
      change Vault.mk (openDb vmk r).files r.session.lock r.relay = r
      rw [hfiles, ← hlocked]
    have hexternal : r.session.external7 = none := congrArg Session.external7 hlocked
    have hkeys : r.session.keys = none := congrArg Session.keys hlocked
    have hopens : (opening C r.session.config r.files r.relay cr).isSome := by rw [hopen]; rfl
    refine Triple.bind (Q := fun _ s => s = openDb vmk r)
      (Triple.update fun s hs => by rw [hs.1]) fun _ => ?_
    split
    · next c hc =>
      refine Triple.ite (fun hfile => Triple.update ?_) fun hrecord => ?_
      · rintro s rfl
        refine ⟨hopens, rfl, hshards, hdatabase, rfl, .inl (congrArg _ hconfig), rfl, ?_⟩
        refine ⟨fun _ _ => rfl, fun x hx hcloud => ?_, fun h => absurd hc (h c)⟩
        cases hc.symm.trans hx
        exact absurd (hfile.symm.trans hcloud) nofun
      · cases hremote : r.relay cr.keys with
        | none =>
          rw [hc] at hopen
          simp [opening, openingSecure, hrecord, hremote] at hopen
        | some x =>
          refine Triple.bind (Q := fun _ s => s = saveConfig (openDb vmk r)) (Triple.orElse
            (I := fun s => s = openDb vmk r) (Triple.atomically_cases (fun _ s hs => by rw [hs])
              (fun _ _ hs => hs) (fun _ _ _ _ => trivial) fun _ _ _ _ => trivial) ?_) fun _ =>
            Triple.update ?_
          · refine Triple.bind (Q := fun _ s => s = r)
              (Triple.update fun s hs => by rw [hs, hback]) fun _ => Triple.throwing fun _ hs => hs
          · rintro s rfl
            refine ⟨hopens, rfl, hshards, hdatabase, ?_, .inr rfl, rfl,
              fun _ _ => rfl, fun _ _ _ => ⟨hexternal, x, hremote, rfl⟩, fun h => absurd rfl (h _)⟩
            rw [hc]
            rfl
    · next hc =>
      refine Triple.done ?_
      rintro s rfl
      exact ⟨hopens, rfl, hshards, hdatabase, rfl, .inl (congrArg _ hconfig), rfl,
        fun c h => absurd h (hc c), fun c h => absurd h (hc c), fun _ => hkeys⟩

def calm : UnlockFaults := ⟨.none, .none, .none⟩

theorem unlock_calm (hopen : (opening C v.session.config v.files v.relay cr).isSome) :
    (unlock C cr calm v).Returned := by
  obtain ⟨vmk, hopen⟩ := Option.isSome_iff_exists.mp hopen
  refine Triple.returns (P := fun s => s = v) ?_ rfl
  refine Triple.bind (Q := fun _ s => s = v) (Triple.attempt_cases (fun _ _ h => h)
    (fun h => h.elim) (fun h => h.elim)) fun _ => Triple.read fun r hr => ?_
  subst hr
  rw [hopen]
  refine Triple.bind (Q := fun _ _ => True) (Triple.update fun _ _ => trivial) fun _ => ?_
  split
  · next c hc =>
    refine Triple.ite (fun _ => Triple.update fun _ _ => trivial) fun hrecord => ?_
    cases hremote : r.relay cr.keys with
    | none =>
      rw [hc] at hopen
      simp [opening, openingSecure, hrecord, hremote] at hopen
    | some x =>
      refine Triple.bind (Q := fun _ _ => True) (Triple.orElse (I := fun _ => False)
        (Triple.atomically_cases (fun _ _ _ => trivial) (fun h => h.elim) (fun h => h.elim)
          fun h => h.elim) fun _ h => h.elim) fun _ => Triple.update fun _ _ => trivial
  · exact Triple.done fun _ _ => trivial

theorem Uploaded.synced {c : SecureConfig} {k : Keys} {t : Vault} (h : Uploaded c k v t)
    (hc : v.session.config = some (.secure c)) (hk : v.session.keys = some k) : Synced v t := by
  refine ⟨by rw [h.files], by rw [h.files], ?_, .inr ⟨by rw [hk]; rfl, by rw [h.files]⟩,
    by rw [h.session], .inr ⟨k, _, hk, h.relay⟩⟩
  rw [h.session, hc]
  rfl

theorem Synced.refl (v : Vault) : Synced v v := ⟨rfl, rfl, rfl, .inl rfl, rfl, .inl rfl⟩

/-- What the upload of an unlocked vault with a backup can do. -/
theorem upload_spec {F : SyncFaults} {c : SecureConfig} {k : Keys}
    (hc : v.session.config = some (.secure c)) (hcloud : c.cloudBackupEnabled = true)
    (hk : v.session.keys = some k) :
    Triple (fun s => s = v) (syncBackup F) (fun _ t => Uploaded c k v t) (Synced v)
      (fun _ => True) := by
  have hput : Synced v (putRecord k (c.backupVersion + 1) v) :=
    ⟨rfl, rfl, rfl, .inl rfl, rfl, .inr ⟨k, _, hk, rfl⟩⟩
  refine Triple.read fun r hr => ?_
  subst hr
  simp only [hc, hcloud, hk, Bool.true_eq_false, if_false]
  refine Triple.bind (Q := fun _ s => s = putRecord k (c.backupVersion + 1) r)
    (Triple.read fun x hx => ?_) fun _ => ?_
  · refine Triple.ite (fun _ => Triple.remotely_cases (fun _ s hs => by rw [hs.1.1])
      (fun _ s hs => ?_) fun _ _ _ => ⟨fun _ => trivial, fun _ => trivial⟩) fun _ => ?_
    · rw [hs.1.1]
      exact ⟨fun _ => Synced.refl r, fun _ => hput⟩
    · refine Triple.bind (Q := fun _ s => s = r) (Triple.attempt_cases (fun _ s hs => hs.1.1)
        (fun _ s hs => by rw [hs.1.1]; exact Synced.refl r) fun _ _ _ => trivial) fun _ =>
        Triple.throwing fun s hs => by rw [hs]; exact Synced.refl r
  · refine Triple.bind (Q := fun _ s => s = setConfig (advance c) (putRecord k (c.backupVersion + 1) r))
      (Triple.update fun s hs => by rw [hs]) fun _ => Triple.atomically_cases (fun _ s hs => ?_)
        (fun _ s hs => ?_) (fun _ _ _ _ => trivial) fun _ _ _ _ => trivial
    · rw [hs]
      exact ⟨rfl, rfl, rfl⟩
    · rw [hs]
      refine ⟨rfl, rfl, ?_, .inl rfl, rfl, .inr ⟨k, _, hk, rfl⟩⟩
      rw [hc]
      rfl

theorem sync_spec {F : SyncFaults} :
    Triple (fun s => s = v) (syncBackup F) (fun _ => Synced v) (Synced v) (fun _ => True) := by
  have hdone : Triple (fun s => s = v ∧ s = v) (done () : Program Vault Unit) (fun _ => Synced v)
      (Synced v) (fun _ => True) := Triple.done fun s hs => by rw [hs.1]; exact Synced.refl v
  cases hc : v.session.config with
  | none =>
    refine Triple.read fun r hr => ?_
    subst hr
    simpa only [hc] using hdone
  | some config =>
    cases config with
    | legacy c =>
      refine Triple.read fun r hr => ?_
      subst hr
      simpa only [hc] using hdone
    | secure c =>
      cases hcloud : c.cloudBackupEnabled with
      | false =>
        refine Triple.read fun r hr => ?_
        subst hr
        simpa only [hc, hcloud, if_true] using hdone
      | true =>
        cases hk : v.session.keys with
        | none =>
          refine Triple.read fun r hr => ?_
          subst hr
          simp only [hc, hcloud, hk, Bool.true_eq_false, if_false]
          exact Triple.throwing fun s hs => by rw [hs.1]; exact Synced.refl r
        | some k => exact (upload_spec hc hcloud hk).weaken fun _ t h => h.synced hc hk

end Operations

section Creation

variable {C : Crypto}

theorem length_le_utf16Length (s : String) : s.length ≤ utf16Length s := by
  unfold utf16Length
  rw [← String.length_toList]
  induction s.toList with
  | nil => exact Nat.zero_le 0
  | cons c l ih =>
    rw [List.length_cons, List.map_cons, List.sum_cons]
    split <;> omega

/-- The digest makes the password long and no common one. -/
theorem decoyPassword_strong (id : String) :
    validatePasswordStrength (decoyPassword C id) = true := by
  have hlong := C.sha256_length ("cp-decoy-password-v1:" ++ id)
  have hlength : 68 ≤ (decoyPassword C id).length := by
    unfold decoyPassword
    rw [String.length_append]
    rw [hlong]
    exact Nat.le_refl _
  have hchars : (decoyPassword C id).toList =
      (C.sha256 ("cp-decoy-password-v1:" ++ id)).toList ++ ['A', 'a', '1', '!'] := by
    unfold decoyPassword
    rw [String.toList_append]
    rfl
  have hcommon : (decoyPassword C id).toLower ∉ commonPasswords := by
    intro hmem
    have hshort : ∀ p ∈ commonPasswords, p.length < 68 := by decide
    have := hshort _ hmem
    rw [String.toLower, String.length_map] at this
    omega
  have hutf := length_le_utf16Length (decoyPassword C id)
  unfold validatePasswordStrength
  rw [hchars]
  simp [hcommon]
  omega

variable {k : Keys} {N : Entropy} {v : Vault}

theorem Added.refl (k : Keys) (a : Relay) : Added k a a := .inl rfl

theorem Added.put {a b : Relay} {r : Record} (h : Added k a b) (hnone : a k = none) :
    Added k a (Function.update b k (some r)) := by
  obtain rfl | ⟨_, x, rfl⟩ := h
  · exact .inr ⟨hnone, r, rfl⟩
  · exact .inr ⟨hnone, r, by rw [Function.update_idem]⟩

theorem Synced.added {t : Vault} {a : Relay} (h : Synced v t) (hk : v.session.keys = some k)
    (hnone : a k = none) (hv : Added k a v.relay) : Added k a t.relay := by
  obtain hr | ⟨_, n, hkeys, hr⟩ := h.relay
  · rw [hr]; exact hv
  · cases hk.symm.trans hkeys
    rw [hr]
    exact hv.put hnone

/-- The vault of `createSecure` before its first backup. -/
def built (C : Crypto) (k : Keys) (N : Entropy) (v : Vault) : Vault :=
  setConfig { freshConfig C k N with cloudBackupEnabled := true }
    (openDb N.vmk (provisioned C k N v))

theorem discard_spec {existed : Bool} {fault : Fault} {P : Relay → Prop} :
    Triple (fun s : Vault => P s.relay) (discard existed fault) (fun _ _ => False) (fun t => P t.relay)
      (fun _ => True) := by
  refine Triple.bind (Q := fun _ (s : Vault) => P s.relay) (Triple.update fun _ h => h) fun _ => ?_
  refine Triple.bind (Q := fun _ (s : Vault) => P s.relay) (Triple.update fun _ h => h) fun _ => ?_
  refine Triple.bind (Q := fun _ (s : Vault) => P s.relay) ?_ fun _ => Triple.throwing fun _ h => h
  exact Triple.ite (fun _ => Triple.done fun _ h => h) fun _ => Triple.atomically_cases
    (fun _ _ h => h) (fun _ _ h => h) (fun _ _ _ _ => trivial) fun _ _ _ _ => trivial

theorem requireUnused_spec {fault : Fault} :
    Triple (fun s => s = v) (requireUnused k fault) (fun _ s => v.relay k = none ∧ s = v)
      (fun s => s = v) (fun _ => True) := by
  refine Triple.bind (Q := fun _ s => s = v) (Triple.attempt_cases (fun _ _ h => h)
    (fun _ _ h => h) fun _ _ _ => trivial) fun _ => Triple.read fun r hr => ?_
  subst hr
  refine Triple.ite (fun _ => Triple.throwing fun s hs => hs.1) fun hfree => Triple.done fun s hs => ?_
  exact ⟨by simpa using hfree, hs.1⟩

/-- A new vault with its seventh share at the relay: it is made, or at most the relay
keeps a backup of it. -/
theorem createSecure_spec {F : CreateFaults} (hfiles : v.files = .empty) (hsession : v.session = .closed)
    (hstrong : validatePasswordStrength k.password = true) :
    Triple (fun s => s = v) (createSecure C k true N F)
      (fun browser t => browser = (N.split C k).webView ∧ Made C k N v.relay t)
      (fun t => Added k v.relay t.relay) (fun _ => True) := by
  refine Triple.read fun r hr => ?_
  subst hr
  rw [if_neg (by rw [hsession, hstrong]; simp [Session.closed])]
  refine Triple.strengthen ?_ fun s hs => hs.1
  refine Triple.orElse (I := fun s => Added k r.relay s.relay) ?_
    ((discard_spec (P := Added k r.relay)).weaken fun _ _ h => h.elim)
  have hstays {s : Vault} (h : s = r) : Added k r.relay s.relay := by rw [h]; exact Added.refl k _
  refine Triple.bind (requireUnused_spec.consequence (fun _ h => h) (fun _ _ h => h)
    (fun _ h => hstays h) fun _ h => h) fun _ => Triple.assuming fun hnone => ?_
  refine Triple.bind (Q := fun _ s => s = provisioned C k N r) (Triple.gradually (fun _ s h => by rw [h])
    (fun n _ s h => by rw [h]; exact Added.refl k _) fun _ _ _ _ => trivial) fun _ => ?_
  refine Triple.bind (Q := fun _ s => s = openDb N.vmk (provisioned C k N r)) ?_ fun _ => ?_
  · refine Triple.bind (Q := fun _ s => s = provisioned C k N r) (Triple.attempt_cases (fun _ _ h => h)
      (fun _ _ h => by rw [h]; exact Added.refl k _) fun _ _ _ => trivial) fun _ =>
      Triple.read fun x hx => ?_
    subst hx
    refine Triple.ite (fun _ => Triple.update fun s hs => by rw [hs.1]) fun hlocked => ?_
    exact absurd (by simp [provisioned, hfiles, Directory.empty, openable]) hlocked
  refine Triple.bind (Q := fun _ s => s = built C k N r) (Triple.update fun s hs => by rw [hs]; rfl) fun _ => ?_
  refine Triple.bind ((upload_spec (v := built C k N r) rfl rfl rfl).consequence (fun _ h => h)
    (fun _ _ h => h) (fun t h => h.added rfl hnone (Added.refl k _)) fun _ h => h) fun _ => ?_
  refine Triple.bind (Q := fun _ => Made C k N r.relay) (Triple.atomically_cases (fun _ s hs => ?_)
    (fun _ s hs => ?_) (fun _ _ _ _ => trivial) fun _ _ _ _ => trivial) fun _ => Triple.done fun s hs => ⟨rfl, hs⟩
  · obtain ⟨hsf, hss, hsr⟩ := hs
    refine ⟨⟨1, ?_⟩, rfl, ?_, ⟨[], ?_⟩, hnone, ⟨1, hsr.trans ?_⟩⟩
    · rw [show (saveConfig s).session = s.session from rfl, hss]
      simp [built, setConfig, openDb, provisioned, advance, freshConfig, hsession, Session.closed]
    · rw [show (saveConfig s).files.shards = s.files.shards from rfl, hsf]
      rfl
    · rw [show (saveConfig s).files.database = s.files.database from rfl, hsf]
      simp [built, setConfig, openDb, provisioned, hfiles, Directory.empty]
    · simp [built, setConfig, openDb, provisioned, putRecord, freshConfig, hsession, Session.closed]
  · exact (hs.synced rfl rfl).added rfl hnone (Added.refl k _)

theorem Made.added {a : Relay} {t : Vault} (h : Made C k N a t) : Added k a t.relay := by
  obtain ⟨n, hr⟩ := h.relay
  exact .inr ⟨h.unused, _, hr⟩

theorem Made.insertRows {a : Relay} {t : Vault} (h : Made C k N a t) (rows : List (String × String)) :
    Made C k N a (insertRows rows t) := by
  obtain ⟨old, hrows⟩ := h.database
  refine ⟨h.session, h.disk, h.shards, ⟨old ++ rows, ?_⟩, h.unused, h.relay⟩
  change t.files.database.map _ = _
  rw [hrows]
  rfl

/-- A backup of a decoy carries the share that its first one carried. -/
theorem Made.synced {a : Relay} {t u : Vault} (h : Made C k N a t) (hs : Synced t u) :
    Made C k N a u := by
  obtain ⟨n, hn⟩ := h.session
  obtain ⟨m, hm⟩ := stripped_secure (hs.config.trans (by rw [hn]; rfl))
  obtain ⟨rows, hrows⟩ := h.database
  obtain ⟨x, hx⟩ := h.relay
  have hsession := hs.session
  rw [hm, hn] at hsession
  refine ⟨⟨m, hsession⟩, ?_, hs.shards.trans h.shards, ⟨rows, hs.database.trans hrows⟩, h.unused, ?_⟩
  · obtain hd | ⟨_, hd⟩ := hs.disk
    · rw [hd, h.disk, hs.config]
    · rw [hd]
  · obtain hr | ⟨k', y, hk', hr⟩ := hs.relay
    · exact ⟨x, hr.trans hx⟩
    · have hkey : k' = k := Option.some.inj (hk'.symm.trans (by rw [hn]))
      refine ⟨y, hr.trans ?_⟩
      subst hkey
      simp only [putRecord, hx, hn, Function.update_idem, Option.none_or]

/-- A decoy that is ready, or at most a backup of one. -/
theorem makeDecoy_spec {id : String} {F : ConfigureFaults} (hfiles : v.files = .empty)
    (hsession : v.session = .closed) :
    Triple (fun s => s = v) (andFinally (makeDecoy C id N F) (update lockVault))
      (fun browser t => browser = (N.split C (decoyKeys C id)).webView ∧
        ∃ u, Made C (decoyKeys C id) N v.relay u ∧ t = lockVault u)
      (fun t => Added (decoyKeys C id) v.relay t.relay) (fun _ => True) := by
  refine Triple.andFinally (I := fun t => Added (decoyKeys C id) v.relay t.relay)
    (Q := fun browser t => browser = (N.split C (decoyKeys C id)).webView ∧
      Made C (decoyKeys C id) N v.relay t) ?_
    (fun browser => Triple.update fun s hs => ⟨hs.1, s, hs.2, rfl⟩) (Triple.update fun s hs => hs)
  refine Triple.bind (createSecure_spec hfiles hsession (decoyPassword_strong id)) fun browser =>
    Triple.assuming fun hbrowser => ?_
  refine Triple.bind (Q := fun _ => Made C (decoyKeys C id) N v.relay) (Triple.atomically_cases
    (fun _ s hs => hs.insertRows notes) (fun _ s hs => hs.added) (fun _ _ _ _ => trivial)
    fun _ _ _ _ => trivial) fun _ => ?_
  refine Triple.bind (Q := fun _ => Made C (decoyKeys C id) N v.relay) (fun s hs => ?_) fun _ =>
    Triple.done fun s hs => ⟨hbrowser, hs⟩
  exact (sync_spec s rfl).mono (fun _ _ h => hs.synced h) (fun _ h => (hs.synced h).added) fun _ h => h

theorem Made.furnished {a : Relay} {t : Vault} (h : Made C k N a t) : Furnished C k N t.files := by
  obtain ⟨n, hn⟩ := h.session
  obtain ⟨m, hm⟩ := stripped_secure (h.disk.trans (by rw [hn]; rfl))
  exact ⟨⟨m, hm⟩, h.shards, h.database⟩

theorem Made.recorded {a : Relay} {t : Vault} (h : Made C k N a t) : Recorded C k N t.relay := by
  obtain ⟨x, hx⟩ := h.relay
  exact ⟨x, by rw [hx, Function.update_self]⟩

/-- The credentials that were handed out open the decoy. -/
theorem Furnished.opens {f : Directory} {relay : Relay} (h : Furnished C k N f)
    (hrecorded : Recorded C k N relay) {cr : Credentials} (hk : cr.keys = k) (hclient : cr.clientShard = some (N.split C k).webView) :
    opening C f.config f relay cr = some N.vmk := by
  obtain ⟨n, hconfig⟩ := h.config
  obtain ⟨rows, hdb⟩ := h.database
  obtain ⟨m, hrecord⟩ := hrecorded
  have hcollect : collect C.shardDigest k (some (N.split C k).webView)
      (some (sealedSeventh k (N.split C k))) (freshConfig C k N).hashes f.shards =
      some (C.wrap (.vault k) N.nonce N.vmk) := by
    rw [h.shards]
    exact (collect_scatter _).trans (congrArg some (reconstruct_split _ _))
  have hopenable : openable f N.vmk = some N.vmk := by
    unfold openable
    rw [hdb]
    exact if_pos rfl
  have hexternal : (freshConfig C k N).external = false := rfl
  have hunwrap : C.unwrap (.vault k) (freshConfig C k N).nonce
      (C.wrap (.vault k) N.nonce N.vmk) = some N.vmk := C.unwrap_wrap _ _ _
  rw [hconfig]
  change openingSecure C _ f relay cr = _
  simp only [openingSecure, collectVmk, hk, hrecord, hclient, hcollect, hunwrap, hopenable,
    hexternal, Bool.false_eq_true, if_false, bind, Option.bind_some]

/-- A decoy as `initialize` loads it. -/
def loaded (f : Directory) (relay : Relay) : Vault :=
  ⟨f, { Session.closed with config := f.config }, relay⟩

theorem Furnished.readConfig {f : Directory} (h : Furnished C k N f) (relay : Relay) :
    readConfig ⟨f, .closed, relay⟩ = loaded f relay := by
  obtain ⟨n, hn⟩ := h.config
  unfold DuressVault.readConfig loaded
  simp only [hn, freshConfig, Bool.false_eq_true, if_false]

/-- An unlock keeps a decoy furnished, and holds its share. -/
theorem Furnished.opened {f : Directory} {relay : Relay} {cr : Credentials} {t : Vault}
    (h : Furnished C k N f) (ho : Opened C cr (loaded f relay) t) :
    Furnished C k N t.files ∧ ∃ n, t.session.config = some (.secure { freshConfig C k N with
      cloudBackupEnabled := true, backupVersion := n }) := by
  obtain ⟨n, hn⟩ := h.config
  obtain ⟨rows, hrows⟩ := h.database
  have hdisk : t.files.config.map Config.stripped = f.config.map Config.stripped := by
    obtain hd | hd := ho.disk
    · exact hd
    · exact hd
  refine ⟨⟨stripped_secure (hdisk.trans (congrArg (Option.map Config.stripped) hn)), ho.shards.trans h.shards, rows, ho.database.trans hrows⟩, ?_⟩
  exact stripped_secure (ho.config.trans (congrArg (Option.map Config.stripped) hn))

/-- A backup of an open decoy keeps it furnished. -/
theorem Furnished.synced {t : Vault} (h : Furnished C k N v.files) (hs : Synced v t)
    (hsession : v.session.keys.isSome → ∃ n, v.session.config = some (.secure { freshConfig C k N with
      cloudBackupEnabled := true, backupVersion := n })) : Furnished C k N t.files := by
  obtain ⟨rows, hrows⟩ := h.database
  refine ⟨?_, hs.shards.trans h.shards, rows, hs.database.trans hrows⟩
  obtain hd | ⟨hkeys, hd⟩ := hs.disk
  · obtain ⟨n, hn⟩ := h.config
    exact ⟨n, hd.trans hn⟩
  · obtain ⟨n, hn⟩ := hsession hkeys
    obtain ⟨m, hm⟩ := stripped_secure (hs.config.trans (congrArg (Option.map Config.stripped) hn))
    exact ⟨m, hd.trans hm⟩

end Creation

end DuressVault
