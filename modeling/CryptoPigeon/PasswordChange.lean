import CryptoPigeon.SecureVault

/-! # What a password change that fails must leave

Whoever had the old password must still open the vault with it and be able to ask for the
change again, unless the new password already opens it. Both clients open a secure vault
with the tree at the root, the client share they handed out and the seventh share, which
comes from the file handed out with it or from the relay's backup. -/
namespace PasswordChange

open FaultyProgram VaultTree SecureVault

/-- A client: which password opens its vault, whether its configuration in memory is the
one on disk, whether a change without faults would succeed, and its restart. -/
structure Client (σ : Type) where
  Opens : Provisioning → σ → Prop
  Matches : σ → Prop
  Retries : σ → Prop
  restart : σ → σ

section Client

variable {σ : Type} (P : Client σ) {s₀ s : σ}

def Client.Recoverable (s₀ s : σ) : Prop :=
  (P.Opens .previous s ∧ (P.Retries s₀ → P.Retries s)) ∨ P.Opens .next s

/-- A throw leaves the vault recoverable in this process and after its end. -/
structure Client.Thrown (s₀ s : σ) : Prop where
  recoverable : P.Recoverable s₀ s
  config : P.Matches s
  restarted : P.Recoverable s₀ (P.restart s)

def Client.Crashed (s₀ s : σ) : Prop := P.Recoverable s₀ (P.restart s)

/-- What is asked of a change begun in `s₀`. -/
def Client.Recovers (s₀ : σ) (o : Outcome σ Unit) : Prop :=
  o.Satisfies (fun _ _ => True) (P.Thrown s₀) (P.Crashed s₀)

/-- Whether a change recovers is decided by `H` if each of its outcomes is. -/
theorem Client.recovers_iff {R : σ → Prop} {p : Program σ Unit} {H : Prop}
    (h : Triple R p (fun _ _ => H) (fun s => P.Thrown s₀ s ↔ H) (fun s => P.Crashed s₀ s ↔ H))
    (hs : R s) : P.Recovers s₀ (p s) ↔ H := by
  have hsat := h s hs
  unfold Client.Recovers
  cases hr : p s with
  | returned a t =>
    rw [hr] at hsat
    exact iff_of_true trivial hsat
  | threw t => rwa [hr] at hsat
  | crashed t => rwa [hr] at hsat

end Client

/-- What opening and changing depend on. -/
structure View where
  root : Option Tree
  memory : Option Config
  unlocked : Bool
  oldRecord : Option Record
  newRecord : Option Record
  held : List Provisioning

def View.recordUnder (w : View) : Provisioning → Option Record
  | .previous => w.oldRecord
  | .next => w.newRecord

/-- The tree is whole, its split is the one in memory, and its client share and seventh
share are there. -/
def View.Opens (shares : List Path) (v : Snapshot) (p : Provisioning) (w : View) : Prop :=
  ∃ t c n, w.root = some t ∧ Whole shares { c with backupVersion := n } v t ∧
    w.memory = some c ∧ c.provisioning = p ∧ p ∈ w.held ∧
    (c.external = false → ∃ r, w.recordUnder p = some r ∧ r.share = p)

def View.Matches (w : View) : Prop := w.memory = w.root.bind configOf

/-- The seventh share is at the relay, where a change also replaces it. -/
def Relayed (c : Config) : Prop := ¬(c.external = true ∨ c.cloudBackup = false)

instance (c : Config) : Decidable (Relayed c) := inferInstanceAs (Decidable (¬_))

/-- Nothing is under the new password, and the relay will take the next version; a vault
that is opened first learns that version. -/
def View.Unobstructed (w : View) (c : Config) : Prop :=
  Relayed c → w.newRecord = none ∧ (w.unlocked = true → c.backupVersion = versionOf w.oldRecord)

/-- A new process reads the configuration from the root. -/
def View.restarted (w : View) : View :=
  { w with memory := w.root.bind configOf, unlocked := false }

/-- Unlocking with the old password takes the version of the backup it downloads. -/
def View.reopened (w : View) (c : Config) : Config :=
  if c.external then c else { c with backupVersion := versionOf w.oldRecord }

theorem View.relayed_reopened {w : View} {c : Config} (h : Relayed c) : Relayed (w.reopened c) := by
  unfold View.reopened
  split
  · exact h
  · exact h

/-- A client of secure vaults with what is proved of it. `Sound` is what it needs of the
directories beside the root. -/
structure Vault (σ : Type) where
  shares : List Path
  view : σ → View
  Sound : σ → Prop
  restart : σ → σ
  Retries : σ → Prop
  sound_restart : ∀ s, Sound s → (view s).root.isSome → Sound (restart s)
  view_restart : ∀ s, Sound s → (view s).root.isSome → view (restart s) = (view s).restarted
  retries_iff : ∀ s t c, Sound s → (view s).root = some t → (view s).memory = some c →
    (Retries s ↔ (view s).Unobstructed c)
  unused : ∀ s c, (view s).memory = some c → Relayed c → Retries s → (view s).newRecord = none

def Vault.client {σ : Type} (V : Vault σ) (v : Snapshot) : Client σ where
  Opens p s := (V.view s).Opens V.shares v p
  Matches s := (V.view s).Matches
  Retries := V.Retries
  restart := V.restart

/-- The vault of the old password at the root, with configuration `d`, and `m` in memory. -/
structure View.Keeps (shares : List Path) (v : Snapshot) (d m : Config) (w : View) : Prop where
  root : ∃ t, w.root = some t ∧ Whole shares d v t
  memory : w.memory = some m
  same : d = { m with backupVersion := d.backupVersion }
  split : m.provisioning = .previous
  held : .previous ∈ w.held
  record : m.external = false → ∃ r, w.oldRecord = some r ∧ r.share = .previous

/-- No tree but one of the new split, whose client share nobody has. -/
structure View.Lost (w : View) : Prop where
  root : ∀ t c, w.root = some t → configOf t = some c → c.provisioning = .next
  held : .next ∉ w.held

/-- There is a backup under the new password, which every later change runs into, or none
under the old one, which opening needs. -/
structure View.Stuck (w : View) : Prop where
  used : w.oldRecord = none ∨ w.newRecord ≠ none
  unknown : .next ∉ w.held
  memory : ∀ m, w.memory = some m → Relayed m
  root : ∀ t m, w.root = some t → configOf t = some m → Relayed m

section Views

variable {shares : List Path} {v : Snapshot} {d m : Config} {w : View}

theorem View.Keeps.relayed_iff (h : w.Keeps shares v d m) : Relayed d ↔ Relayed m := by
  rw [h.same]
  exact Iff.rfl

theorem View.Keeps.opens (h : w.Keeps shares v d m) : w.Opens shares v .previous := by
  obtain ⟨t, hroot, hwhole⟩ := h.root
  exact ⟨t, m, d.backupVersion, hroot, h.same ▸ hwhole, h.memory, h.split, h.held, h.record⟩

theorem View.Keeps.config (h : w.Keeps shares v d m) : w.root.bind configOf = some d := by
  obtain ⟨t, hroot, hwhole⟩ := h.root
  rw [hroot]
  exact hwhole.configOf

theorem View.Keeps.matches_iff (h : w.Keeps shares v d m) : w.Matches ↔ m = d := by
  rw [View.Matches, h.memory, h.config, Option.some.injEq]

theorem View.Keeps.restarted (h : w.Keeps shares v d m) : w.restarted.Keeps shares v d d := by
  have hexternal : d.external = m.external := by rw [h.same]
  have hsplit : d.provisioning = m.provisioning := by rw [h.same]
  exact ⟨h.root, h.config, rfl, hsplit.trans h.split, h.held, fun hd => h.record (hexternal ▸ hd)⟩

theorem not_opens_next (h : .next ∉ w.held) : ¬w.Opens shares v .next := by
  rintro ⟨t, c, n, _, _, _, _, hheld, _⟩
  exact h hheld

theorem View.Lost.not_opens (h : w.Lost) (p : Provisioning) : ¬w.Opens shares v p := by
  rintro ⟨t, c, n, hroot, hwhole, _, hsplit, hheld, _⟩
  have hnext : c.provisioning = .next := h.root t { c with backupVersion := n } hroot hwhole.configOf
  rw [hsplit] at hnext
  exact h.held (hnext ▸ hheld)

theorem View.Lost.restarted (h : w.Lost) : w.restarted.Lost := ⟨h.root, h.held⟩

theorem View.Stuck.restarted (h : w.Stuck) : w.restarted.Stuck := by
  refine ⟨h.used, h.unknown, fun m hm => ?_, h.root⟩
  obtain ⟨t, hroot, hconfig⟩ := Option.bind_eq_some_iff.mp hm
  exact h.root t m hroot hconfig

end Views

/-- An unlocked vault with `d` on disk and `c` in memory, before the new split exists. -/
structure Vault.Unlocked {σ : Type} (V : Vault σ) (v : Snapshot) (d c : Config) (s : σ) : Prop where
  sound : V.Sound s
  keeps : (V.view s).Keeps V.shares v d c
  unlocked : (V.view s).unlocked = true
  unknown : .next ∉ (V.view s).held

/-- The old backup has the next version, which the client has not been told. -/
def View.unanswered (w : View) (c : Config) : View :=
  { w with oldRecord := some ⟨c.provisioning, c.backupVersion + 1⟩ }

/-- The client knows the new version and has not saved it. -/
def View.answered (w : View) (c : Config) : View :=
  { w.unanswered c with memory := some (advance c) }

def View.synced (w : View) (c : Config) : View :=
  { w.answered c with root := w.root.map (saveConfig (advance c)) }

section Outcomes

variable {σ : Type} {V : Vault σ} {v : Snapshot} {d c m : Config} {s₀ s : σ}

theorem keeps_recoverable (hsound : V.Sound s) (h : (V.view s).Keeps V.shares v d m)
    (hretry : V.Retries s₀ → (V.view s).Unobstructed m) : (V.client v).Recoverable s₀ s := by
  obtain ⟨t, hroot, _⟩ := h.root
  exact .inl ⟨h.opens, fun hretries =>
    (V.retries_iff s t m hsound hroot h.memory).mpr (hretry hretries)⟩

theorem keeps_crashed (hsound : V.Sound s) (h : (V.view s).Keeps V.shares v d m)
    (hnew : V.Retries s₀ → Relayed m → (V.view s).newRecord = none) :
    (V.client v).Crashed s₀ s := by
  obtain ⟨t, hroot, _⟩ := h.root
  have hsome : (V.view s).root.isSome := by rw [hroot]; rfl
  have hview := V.view_restart s hsound hsome
  have hkeeps : (V.view (V.restart s)).Keeps V.shares v d d := hview ▸ h.restarted
  refine keeps_recoverable (s := V.restart s) (V.sound_restart s hsound hsome) hkeeps ?_
  rw [hview]
  exact fun hretries hd => ⟨hnew hretries (h.relayed_iff.mp hd), nofun⟩

theorem keeps_thrown_iff (hsound : V.Sound s) (h : (V.view s).Keeps V.shares v d m)
    (hretry : V.Retries s₀ → (V.view s).Unobstructed m) : (V.client v).Thrown s₀ s ↔ m = d := by
  constructor
  · intro hthrown
    exact h.matches_iff.mp hthrown.config
  · intro heq
    exact ⟨keeps_recoverable hsound h hretry, h.matches_iff.mpr heq,
      keeps_crashed hsound h fun hretries hm => (hretry hretries hm).1⟩

theorem lost_not_recoverable (h : (V.view s).Lost) : ¬(V.client v).Recoverable s₀ s := by
  rintro (⟨hopens, _⟩ | hopens)
  · exact h.not_opens _ hopens
  · exact h.not_opens _ hopens

theorem stuck_not_recoverable (h : (V.view s).Stuck) (hretries : V.Retries s₀) :
    ¬(V.client v).Recoverable s₀ s := by
  rintro (⟨⟨t, c, n, hroot, _, hm, _, _, hrecord⟩, hretry⟩ | hopens)
  · have hrelayed := h.memory c hm
    rcases h.used with hgone | hused
    · have hinternal : c.external = false := by
        simp only [Relayed, not_or, Bool.not_eq_true] at hrelayed
        exact hrelayed.1
      obtain ⟨r, hr, _⟩ := hrecord hinternal
      cases hgone.symm.trans hr
    · exact hused (V.unused s c hm hrelayed (hretry hretries))
  · exact not_opens_next h.unknown hopens

/-- Neither password opens the vault, or the old one opens it and cannot be changed. -/
structure Fatal (V : Vault σ) (v : Snapshot) (s₀ s : σ) : Prop where
  running : ¬(V.client v).Recoverable s₀ s
  restarted : ¬(V.client v).Recoverable s₀ (V.restart s)

theorem Fatal.thrown_iff {H : Prop} (h : Fatal V v s₀ s) (hH : ¬H) : (V.client v).Thrown s₀ s ↔ H :=
  iff_of_false (fun ht => h.running ht.recoverable) hH

theorem Fatal.crashed_iff {H : Prop} (h : Fatal V v s₀ s) (hH : ¬H) :
    (V.client v).Crashed s₀ s ↔ H :=
  iff_of_false h.restarted hH

theorem Vault.Unlocked.retries_iff (h : V.Unlocked v d c s₀) :
    V.Retries s₀ ↔ (Relayed c → (V.view s₀).newRecord = none ∧
      c.backupVersion = versionOf (V.view s₀).oldRecord) := by
  obtain ⟨t, hroot, _⟩ := h.keeps.root
  rw [V.retries_iff s₀ t c h.sound hroot h.keeps.memory]
  exact forall_congr' fun _ => and_congr Iff.rfl ⟨fun hv => hv h.unlocked, fun hv _ => hv⟩

end Outcomes

/-! How an attempt can leave a vault whose root has not been moved. -/
section Stations

variable {σ : Type} {V : Vault σ} {v : Snapshot} {d c : Config} {s₀ s : σ}

/-- Nothing has changed, except that the vault may have been locked. -/
def Undone (V : Vault σ) (s₀ s : σ) : Prop :=
  V.Sound s ∧ V.view s = { V.view s₀ with unlocked := (V.view s).unlocked }

theorem undone_of_same (hsound : V.Sound s) (hs : V.view s = V.view s₀) : Undone V s₀ s := by
  refine ⟨hsound, ?_⟩
  rw [hs]

theorem Undone.keeps (h : V.Unlocked v d c s₀) (hs : Undone V s₀ s) :
    (V.view s).Keeps V.shares v d c := by
  rw [hs.2]
  exact ⟨h.keeps.root, h.keeps.memory, h.keeps.same, h.keeps.split, h.keeps.held, h.keeps.record⟩

theorem Undone.unobstructed (h : V.Unlocked v d c s₀) (hs : Undone V s₀ s) (hr : V.Retries s₀) :
    (V.view s).Unobstructed c := by
  intro hrelayed
  obtain ⟨hnew, hversion⟩ := h.retries_iff.mp hr hrelayed
  rw [hs.2]
  exact ⟨hnew, fun _ => hversion⟩

theorem Undone.crashed (h : V.Unlocked v d c s₀) (hs : Undone V s₀ s) :
    (V.client v).Crashed s₀ s :=
  keeps_crashed hs.1 (hs.keeps h) fun hr hrelayed => (hs.unobstructed h hr hrelayed).1

theorem Undone.thrown_iff (h : V.Unlocked v d c s₀) (hs : Undone V s₀ s) :
    (V.client v).Thrown s₀ s ↔ c = d :=
  keeps_thrown_iff hs.1 (hs.keeps h) (hs.unobstructed h)

theorem unanswered_crashed (h : V.Unlocked v d c s₀) (hnew : (V.view s₀).newRecord = none)
    (hsound : V.Sound s) (hs : V.view s = (V.view s₀).unanswered c) : (V.client v).Crashed s₀ s := by
  refine keeps_crashed (d := d) (m := c) hsound ?_ fun _ _ => by rw [hs]; exact hnew
  rw [hs]
  exact ⟨h.keeps.root, h.keeps.memory, h.keeps.same, h.keeps.split, h.keeps.held,
    fun _ => ⟨_, rfl, h.keeps.split⟩⟩

/-- The relay refuses the same version a second time. -/
theorem unanswered_not_thrown (h : V.Unlocked v d c s₀) (hrelayed : Relayed c)
    (hnew : (V.view s₀).newRecord = none)
    (hversion : c.backupVersion = versionOf (V.view s₀).oldRecord) (hsound : V.Sound s)
    (hs : V.view s = (V.view s₀).unanswered c) : ¬(V.client v).Thrown s₀ s := by
  intro hthrown
  have hretries : V.Retries s₀ := h.retries_iff.mpr fun _ => ⟨hnew, hversion⟩
  obtain ⟨t, hroot, _⟩ := h.keeps.root
  rcases hthrown.recoverable with ⟨_, hretry⟩ | hopens
  · have hiff := V.retries_iff s t c hsound (by rw [hs]; exact hroot) (by rw [hs]; exact h.keeps.memory)
    rw [hs] at hiff
    have hagain := (hiff.mp (hretry hretries) hrelayed).2 h.unlocked
    exact absurd hagain (Nat.ne_of_lt (Nat.lt_succ_self _))
  · have hopens : (V.view s).Opens V.shares v .next := hopens
    rw [hs] at hopens
    exact not_opens_next h.unknown hopens

theorem answered_keeps (h : V.Unlocked v d c s₀) (hs : V.view s = (V.view s₀).answered c) :
    (V.view s).Keeps V.shares v d (advance c) := by
  rw [hs]
  exact ⟨h.keeps.root, rfl, h.keeps.same, h.keeps.split, h.keeps.held, fun _ => ⟨_, rfl, h.keeps.split⟩⟩

theorem answered_crashed (h : V.Unlocked v d c s₀) (hnew : (V.view s₀).newRecord = none)
    (hsound : V.Sound s) (hs : V.view s = (V.view s₀).answered c) : (V.client v).Crashed s₀ s :=
  keeps_crashed hsound (answered_keeps h hs) fun _ _ => by rw [hs]; exact hnew

theorem answered_thrown_iff (h : V.Unlocked v d c s₀) (hnew : (V.view s₀).newRecord = none)
    (hsound : V.Sound s) (hs : V.view s = (V.view s₀).answered c) :
    (V.client v).Thrown s₀ s ↔ advance c = d := by
  refine keeps_thrown_iff hsound (answered_keeps h hs) fun _ _ => ?_
  rw [hs]
  exact ⟨hnew, fun _ => rfl⟩

theorem synced_keeps (h : V.Unlocked v d c s₀) (hshares : Path.config ∉ V.shares)
    (hs : V.view s = (V.view s₀).synced c) :
    (V.view s).Keeps V.shares v (advance c) (advance c) := by
  obtain ⟨t, hroot, hwhole⟩ := h.keeps.root
  have hsplit : (advance c).provisioning = d.provisioning := by rw [h.keeps.same]; rfl
  rw [hs]
  refine ⟨⟨saveConfig (advance c) t, ?_, hwhole.saveConfig hsplit hshares⟩, rfl, rfl, h.keeps.split,
    h.keeps.held, fun _ => ⟨_, rfl, h.keeps.split⟩⟩
  exact congrArg (Option.map (saveConfig (advance c))) hroot

theorem synced_crashed (h : V.Unlocked v d c s₀) (hshares : Path.config ∉ V.shares)
    (hnew : (V.view s₀).newRecord = none) (hsound : V.Sound s)
    (hs : V.view s = (V.view s₀).synced c) : (V.client v).Crashed s₀ s :=
  keeps_crashed hsound (synced_keeps h hshares hs) fun _ _ => by rw [hs]; exact hnew

theorem synced_thrown (h : V.Unlocked v d c s₀) (hshares : Path.config ∉ V.shares)
    (hnew : (V.view s₀).newRecord = none) (hsound : V.Sound s)
    (hs : V.view s = (V.view s₀).synced c) : (V.client v).Thrown s₀ s := by
  refine (keeps_thrown_iff hsound (synced_keeps h hshares hs) fun _ _ => ?_).mpr rfl
  rw [hs]
  exact ⟨hnew, fun _ => rfl⟩

end Stations

/-- What a desktop vault presents. -/
def viewOf (s : State) : View := ⟨s.root, s.memory, s.unlocked, s.oldRecord, s.newRecord, s.held⟩

section Sync

variable {w : View} {c : Config} {F : Faults} {E C : State → Prop}

/-- Where `syncBackup` can end: before the upload, with its answer lost, before the
version is saved, and complete. -/
theorem syncBackup_spec
    (hrefused : c.backupVersion ≠ versionOf w.oldRecord ∨ ¬F.sync.Applied → ¬F.sync.Crashes →
      ∀ s, viewOf s = w → E s)
    (hcut : c.backupVersion ≠ versionOf w.oldRecord ∨ ¬F.sync.Applied → F.sync.Crashes →
      ∀ s, viewOf s = w → C s)
    (hlost : c.backupVersion = versionOf w.oldRecord → F.sync.Throws → F.sync.Applied →
      ∀ s, viewOf s = w.unanswered c → E s)
    (hcrashed : c.backupVersion = versionOf w.oldRecord → F.sync.Crashes → F.sync.Applied →
      ∀ s, viewOf s = w.unanswered c → C s)
    (hunsaved : c.backupVersion = versionOf w.oldRecord ∧ F.sync = .none → F.save.Throws →
      ∀ s, viewOf s = w.answered c → E s)
    (hsaving : c.backupVersion = versionOf w.oldRecord ∧ F.sync = .none → F.save.Crashes →
      ∀ s, viewOf s = w.answered c ∨ viewOf s = w.synced c → C s) :
    Triple (fun s => viewOf s = w) (syncBackup c F)
      (fun _ s => (c.backupVersion = versionOf w.oldRecord ∧ F.sync = .none ∧ F.save = .none) ∧
        viewOf s = w.synced c) E C := by
  refine Triple.bind (putOld_spec (R := fun s => viewOf s = w.unanswered c)
    (fun s hs => congrArg View.oldRecord hs) (fun s hs => congrArg (fun u : View => u.unanswered c) hs)
    hrefused hlost hcut hcrashed) fun _ => Triple.assuming fun hput => ?_
  refine Triple.bind (Q := fun _ s => viewOf s = w.answered c) (Triple.update fun s hs =>
    congrArg (fun u : View => { u with memory := some (advance c) }) hs) fun _ => ?_
  have hsaved (s : State) (hs : viewOf s = w.answered c) :
      viewOf (saveRoot (advance c) s) = w.synced c :=
    congrArg (fun u : View => { u with root := u.root.map (saveConfig (advance c)) }) hs
  exact Triple.atomically_cases (fun hnone s hs => ⟨⟨hput.1, hput.2, hnone⟩, hsaved s hs⟩)
    (hunsaved hput) (fun hc _ s hs => hsaving hput hc s (.inl hs))
    (fun hc _ s hs => hsaving hput hc _ (.inr (hsaved s hs)))

end Sync

end PasswordChange
