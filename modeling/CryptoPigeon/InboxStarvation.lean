import CryptoPigeon.ConsumeIncoming
import CryptoPigeon.TorRouting
import CryptoPigeon.WindowedQueue
import Mathlib.Data.List.Pairwise

/-! # Which pending envelopes the consumer is shown

Consecutive passes without new arrivals over `tor_inbox`, the relay's queue and, on
Android, the blind dropboxes. Requests and acknowledgements get through and the socket has
pushed nothing. The first 256 rows of `tor_inbox` are read in rowid order, and so are the
dropboxes of each batch of tags; a row leaves only when it is acknowledged. -/
namespace InboxStarvation

open ConsumingLoop VaultStore SyncMessages WindowedQueue
open ConsumeIncoming (ClientKind iterate)
open TorRouting (Mode)

inductive Origin where
  | tor
  | relay
  | blind
  deriving DecidableEq, Repr

/-- A waiting envelope; `key` is the id its acknowledgement names. -/
structure Queued where
  origin : Origin
  key : String
  pending : Pending
  deriving DecidableEq, Repr

/-- `blind` holds the dropbox rows of each batch of at most 2000 tags. -/
structure Sources where
  inbox : List Queued
  relay : List Queued
  blind : List (List Queued)
  deriving DecidableEq, Repr

structure State where
  vault : Vault
  sources : Sources

def windows (blind : List (List Queued)) : List Queued := (blind.map (List.take 256)).flatten

/-- What a pass reads from the dropboxes; any row in `tor_inbox` keeps it from asking. -/
def dropboxes (kind : ClientKind) (src : Sources) : List Queued :=
  if kind = .android ∧ src.inbox = [] then windows src.blind else []

/-- The answer to `/api/messages/pending`, and the dropbox rows after it. -/
def fetched (kind : ClientKind) (mode : Mode) (src : Sources) : List Queued :=
  if mode ≠ .relayOnly ∧ (src.inbox ≠ [] ∨ mode = .direct) then src.inbox.take 256
  else src.relay ++ dropboxes kind src

def keys (l : List Queued) : List String := l.map Queued.key

def without (ids : List String) (l : List Queued) : List Queued :=
  l.filter (fun q => decide (q.key ∉ ids))

/-- Acknowledgements: dropbox ids to the dropboxes, which take at most 256 at once; of the
others those in `tor_inbox` are deleted there and the rest passed on to the relay. The
desktop does not look into `tor_inbox` in relay-only mode. -/
def settle (kind : ClientKind) (mode : Mode) (src : Sources) (ids : List String) : Sources :=
  let viaBlind := ids.filter (fun id => decide (id ∈ keys (dropboxes kind src)))
  let legacy := ids.filter (fun id => decide (id ∉ keys (dropboxes kind src)))
  let direct := if kind = .desktop ∧ mode = .relayOnly then [] else legacy
  let passedOn := legacy.filter (fun id => decide (id ∉ direct ∨ id ∉ keys src.inbox))
  { inbox := without direct src.inbox
    relay := if mode = .direct then src.relay else without passedOn src.relay
    blind := if viaBlind.length ≤ 256 then src.blind.map (without viaBlind) else src.blind }

def body (kind : ClientKind) (v : Vault) (q : Queued) : Progress Vault String :=
  iterate kind v q.pending

/-- A pass whose loop an exception leaves acknowledges nothing. -/
def pass (kind : ClientKind) (mode : Mode) (s : State) : State :=
  let r := consume (body kind) s.vault (fetched kind mode s.sources)
  ⟨r.state, if r.escaped then s.sources else settle kind mode s.sources r.emitted⟩

def presentedIn (kind : ClientKind) (mode : Mode) (s : State) : List Queued :=
  presented (body kind) s.vault (fetched kind mode s.sources)

def pendingCount (src : Sources) : Nat :=
  src.inbox.length + src.relay.length + src.blind.flatten.length

/-- The envelope is shown to the consumer within as many passes as envelopes are waiting. -/
def Presented (kind : ClientKind) (mode : Mode) (s : State) (e : Queued) : Prop :=
  ∃ n ≤ pendingCount s.sources, e ∈ presentedIn kind mode ((pass kind mode)^[n] s)

/-- Envelope ids are primary keys, the relay's and the dropboxes' distinct. -/
structure WellFormed (src : Sources) : Prop where
  inbox : ∀ q ∈ src.inbox, q.origin = .tor
  relay : ∀ q ∈ src.relay, q.origin = .relay
  blind : ∀ q ∈ src.blind.flatten, q.origin = .blind
  inboxKeys : (keys src.inbox).Nodup
  relayKeys : (keys (src.relay ++ src.blind.flatten)).Nodup

def Waiting (src : Sources) (q : Queued) : Prop :=
  q ∈ src.inbox ∨ q ∈ src.relay ∨ q ∈ src.blind.flatten

/-- One pass over the dropboxes of which no row throws. -/
def advance (verdict : Queued → Verdict) (blind : List (List Queued)) : List (List Queued) :=
  if (consumedKeys Queued.key verdict (windows blind)).length ≤ 256 then
    blind.map (drain 256 verdict)
  else blind

/-- A dropbox row comes up before a row of any dropbox throws. -/
inductive BlindReached (verdict : Queued → Verdict) : List (List Queued) → Queued → Prop
  | now {blind : List (List Queued)} {e : Queued} :
      Reached verdict (windows blind) e → BlindReached verdict blind e
  | later {blind : List (List Queued)} {e : Queued} :
      throwing verdict (windows blind) = false →
      BlindReached verdict (advance verdict blind) e → BlindReached verdict blind e

def InboxClears (mode : Mode) (verdict : Queued → Verdict) (src : Sources) : Prop :=
  match mode with
  | .direct => False
  | .hybrid => ∀ q ∈ src.inbox, verdict q = .consumed
  | .relayOnly => ∀ q ∈ src.inbox, ∃ r ∈ src.relay, verdict r = .consumed ∧ r.key = q.key

section Settle

variable {kind : ClientKind} {mode : Mode} {verdict : Queued → Verdict} {src : Sources}
  {ids : List String} {q : Queued}

theorem without_sublist {l : List Queued} : (without ids l).Sublist l := List.filter_sublist

theorem flatten_without {blind : List (List Queued)} :
    (blind.map (without ids)).flatten = without ids blind.flatten :=
  List.filter_flatten.symm

theorem settle_inbox : (settle kind mode src ids).inbox.Sublist src.inbox := without_sublist

theorem settle_relay : (settle kind mode src ids).relay.Sublist src.relay := by
  unfold settle
  dsimp only
  split
  · exact List.Sublist.refl _
  · exact without_sublist

theorem settle_blind : (settle kind mode src ids).blind.flatten.Sublist src.blind.flatten := by
  unfold settle
  dsimp only
  split
  · rw [flatten_without]
    exact without_sublist
  · exact List.Sublist.refl _

theorem settle_wellFormed (h : WellFormed src) : WellFormed (settle kind mode src ids) where
  inbox q hq := h.inbox q (settle_inbox.subset hq)
  relay q hq := h.relay q (settle_relay.subset hq)
  blind q hq := h.blind q (settle_blind.subset hq)
  inboxKeys := h.inboxKeys.sublist (settle_inbox.map Queued.key)
  relayKeys := h.relayKeys.sublist ((settle_relay.append settle_blind).map Queued.key)

theorem settle_waiting (h : Waiting (settle kind mode src ids) q) : Waiting src q :=
  h.imp (fun h => settle_inbox.subset h)
    (Or.imp (fun h => settle_relay.subset h) (fun h => settle_blind.subset h))

theorem windows_subset {blind : List (List Queued)} (h : q ∈ windows blind) :
    q ∈ blind.flatten := by
  obtain ⟨w, hw, hq⟩ := List.mem_flatten.mp h
  obtain ⟨b, hb, rfl⟩ := List.mem_map.mp hw
  exact List.mem_flatten.mpr ⟨b, hb, List.mem_of_mem_take hq⟩

theorem dropboxes_subset (h : q ∈ dropboxes kind src) : q ∈ src.blind.flatten := by
  unfold dropboxes at h
  split at h
  · exact windows_subset h
  · cases h

theorem fetched_waiting (h : q ∈ fetched kind mode src) : Waiting src q := by
  unfold fetched at h
  split at h
  · exact .inl (List.mem_of_mem_take h)
  · rcases List.mem_append.mp h with h | h
    · exact .inr (.inl h)
    · exact .inr (.inr (dropboxes_subset h))

theorem without_nil (l : List Queued) : without [] l = l := by
  unfold without
  exact List.filter_eq_self.mpr fun q _ => by simp

/-- Acknowledging rows of the inbox only. -/
theorem settle_inboxIds {src : Sources} {ids : List String} (hmode : mode ≠ .relayOnly)
    (hboxes : dropboxes kind src = []) (hids : ∀ id ∈ ids, id ∈ keys src.inbox) :
    settle kind mode src ids = { src with inbox := without ids src.inbox } := by
  have hvia : ids.filter (fun id => decide (id ∈ keys (dropboxes kind src))) = [] := by
    rw [hboxes]
    exact List.filter_eq_nil_iff.mpr fun id _ => by simp [keys]
  have hlegacy : ids.filter (fun id => decide (id ∉ keys (dropboxes kind src))) = ids := by
    rw [hboxes]
    exact List.filter_eq_self.mpr fun id _ => by simp [keys]
  have hpassed : ids.filter (fun id => decide (id ∉ ids ∨ id ∉ keys src.inbox)) = [] :=
    List.filter_eq_nil_iff.mpr fun id hid => by simp [hid, hids id hid]
  have hblind : src.blind.map (without []) = src.blind := by
    rw [List.map_congr_left (fun l _ => without_nil l), List.map_id']
  unfold settle
  dsimp only
  rw [hvia, hlegacy, if_neg (fun h => hmode h.2), hpassed, without_nil, hblind]
  simp

theorem consumedKeys_subset {l : List Queued} {id : String}
    (h : id ∈ consumedKeys Queued.key verdict l) :
    ∃ q ∈ l, verdict q = .consumed ∧ q.key = id := by
  obtain ⟨q, hq, rfl⟩ := List.mem_map.mp h
  obtain ⟨hq, hv⟩ := List.mem_filter.mp hq
  exact ⟨q, hq, of_decide_eq_true hv, rfl⟩

theorem consumedKeys_append (l m : List Queued) :
    consumedKeys Queued.key verdict (l ++ m) =
      consumedKeys Queued.key verdict l ++ consumedKeys Queued.key verdict m := by
  simp [consumedKeys]

/-- Of the ids of a polled pass exactly those of dropbox rows go to the dropboxes. -/
theorem viaBlind_eq {src : Sources} (h : WellFormed src) :
    (consumedKeys Queued.key verdict (src.relay ++ windows src.blind)).filter
      (fun id => decide (id ∈ keys (windows src.blind))) =
      consumedKeys Queued.key verdict (windows src.blind) := by
  have hdisjoint := h.relayKeys
  unfold keys at hdisjoint
  rw [List.map_append, List.nodup_append] at hdisjoint
  rw [consumedKeys_append, List.filter_append]
  have hrelay : (consumedKeys Queued.key verdict src.relay).filter
      (fun id => decide (id ∈ keys (windows src.blind))) = [] := by
    refine List.filter_eq_nil_iff.mpr fun id hid hmem => ?_
    obtain ⟨r, hr, _, rfl⟩ := consumedKeys_subset hid
    obtain ⟨q, hq, hkey⟩ := List.mem_map.mp (of_decide_eq_true hmem)
    exact hdisjoint.2.2 _ (List.mem_map_of_mem hr) _ (List.mem_map_of_mem (windows_subset hq))
      hkey.symm
  have hblind : (consumedKeys Queued.key verdict (windows src.blind)).filter
      (fun id => decide (id ∈ keys (windows src.blind))) =
      consumedKeys Queued.key verdict (windows src.blind) := by
    refine List.filter_eq_self.mpr fun id hid => decide_eq_true ?_
    obtain ⟨q, hq, _, rfl⟩ := consumedKeys_subset hid
    exact List.mem_map_of_mem hq
  rw [hrelay, hblind, List.nil_append]

/-- Removing the consumed rows of every window drains each batch. -/
theorem without_windows {blind : List (List Queued)} (h : (keys blind.flatten).Nodup)
    {b : List Queued} (hb : b ∈ blind) :
    without (consumedKeys Queued.key verdict (windows blind)) b = drain 256 verdict b := by
  have hflat : (blind.map keys).flatten.Nodup := by
    unfold keys at h ⊢
    rwa [← List.map_flatten]
  obtain ⟨hnodup, hpair⟩ := List.nodup_flatten.mp hflat
  have hown : b.filter (fun q => decide (q.key ∉ consumedKeys Queued.key verdict (b.take 256))) =
      drain 256 verdict b := filter_consumedKeys (hnodup (keys b) (List.mem_map_of_mem hb))
  rw [← hown]
  refine List.filter_congr fun q hq => decide_eq_decide.mpr (not_congr ⟨fun hid => ?_, fun hid => ?_⟩)
  · obtain ⟨r, hr, hv, hkey⟩ := consumedKeys_subset hid
    obtain ⟨w, hw, hrw⟩ := List.mem_flatten.mp hr
    obtain ⟨b', hb', rfl⟩ := List.mem_map.mp hw
    have hsame : b' = b := by
      by_contra hne
      have hsymm : Std.Symm (fun a b : List Queued => List.Disjoint (keys a) (keys b)) :=
        ⟨fun _ _ hd => List.disjoint_symm hd⟩
      have hdis : List.Disjoint (keys b') (keys b) :=
        (List.pairwise_map.mp hpair).forall hb' hb hne
      exact hdis (List.mem_map_of_mem (List.mem_of_mem_take hrw))
        (hkey ▸ List.mem_map_of_mem hq)
    subst hsame
    exact List.mem_map.mpr ⟨r, List.mem_filter.mpr ⟨hrw, decide_eq_true hv⟩, hkey⟩
  · obtain ⟨r, hr, hv, hkey⟩ := consumedKeys_subset hid
    refine List.mem_map.mpr ⟨r, List.mem_filter.mpr ⟨?_, decide_eq_true hv⟩, hkey⟩
    exact List.mem_flatten.mpr ⟨b.take 256, List.mem_map_of_mem hb, hr⟩

/-- A quiet pass over the relay's queue and the dropboxes. -/
theorem settle_polled {src : Sources} (h : WellFormed src) (hnil : src.inbox = []) :
    (settle .android mode src
      (consumedKeys Queued.key verdict (src.relay ++ windows src.blind))).inbox = [] ∧
    (settle .android mode src
      (consumedKeys Queued.key verdict (src.relay ++ windows src.blind))).blind =
        advance verdict src.blind := by
  have hboxes : dropboxes .android src = windows src.blind := if_pos ⟨rfl, hnil⟩
  constructor
  · exact List.sublist_nil.mp (hnil ▸ settle_inbox)
  · unfold settle advance
    dsimp only
    rw [hboxes, viaBlind_eq h]
    have hkeys : (keys src.blind.flatten).Nodup :=
      h.relayKeys.sublist ((List.sublist_append_right _ _).map Queued.key)
    split
    · exact List.map_congr_left fun b hb => without_windows hkeys hb
    · rfl

theorem drained_shrinks (blind : List (List Queued)) :
    blind.map (drain 256 verdict) = blind ∨
      (blind.map (drain 256 verdict)).flatten.length < blind.flatten.length := by
  induction blind with
  | nil => exact .inl rfl
  | cons b rest ih =>
    have hb : drain 256 verdict b = b ∨ (drain 256 verdict b).length < b.length := by
      rcases Nat.lt_or_ge (drain 256 verdict b).length b.length with hlt | hge
      · exact .inr hlt
      · exact .inl (drain_sublist.eq_of_length_le hge)
    have hle : (drain 256 verdict b).length ≤ b.length := drain_sublist.length_le
    simp only [List.map_cons, List.flatten_cons, List.length_append]
    rcases hb with hb | hb
    · rcases ih with ih | ih
      · exact .inl (by rw [hb, ih])
      · exact .inr (by omega)
    · refine .inr ?_
      have hrest : (rest.map (drain 256 verdict)).flatten.length ≤ rest.flatten.length := by
        rcases ih with ih | ih
        · rw [ih]
        · exact Nat.le_of_lt ih
      omega

theorem advance_shrinks {blind : List (List Queued)} (hne : advance verdict blind ≠ blind) :
    (advance verdict blind).flatten.length < blind.flatten.length := by
  unfold advance at hne ⊢
  split at hne
  · next hcount =>
    rw [if_pos hcount]
    exact (drained_shrinks blind).resolve_left hne
  · exact absurd rfl hne

/-- As many passes as there are rows are enough. -/
theorem blindReached_bound {blind : List (List Queued)} {e : Queued}
    (h : BlindReached verdict blind e) :
    ∃ n ≤ blind.flatten.length, Reached verdict (windows ((advance verdict)^[n] blind)) e ∧
      ∀ k < n, throwing verdict (windows ((advance verdict)^[k] blind)) = false := by
  induction h with
  | now hr => exact ⟨0, Nat.zero_le _, hr, fun k hk => absurd hk (Nat.not_lt_zero k)⟩
  | @later blind e hquiet _ ih =>
    obtain ⟨n, hn, hr, hall⟩ := ih
    by_cases hsame : advance verdict blind = blind
    · rw [hsame] at hn hr hall
      exact ⟨n, hn, hr, hall⟩
    · have hshrinks := advance_shrinks hsame
      refine ⟨n + 1, by omega, hr, fun k hk => ?_⟩
      cases k with
      | zero => exact hquiet
      | succ k => exact hall k (by omega)

end Settle

section Pass

variable {kind : ClientKind} {mode : Mode} {verdict : Queued → Verdict} {Q : Vault → Prop}
  {rows : Queued → Prop} {s : State} {e : Queued}

/-- What holds of every state of the passes considered. -/
structure Covered (Q : Vault → Prop) (rows : Queued → Prop) (s : State) : Prop where
  vault : Q s.vault
  wellFormed : WellFormed s.sources
  rows : ∀ q, Waiting s.sources q → rows q

variable (hsteady : Steady (body kind) Queued.key verdict Q rows)

include hsteady

theorem pass_sources (h : Covered Q rows s) :
    (pass kind mode s).sources =
      if throwing verdict (fetched kind mode s.sources) then s.sources
      else settle kind mode s.sources
        (consumedKeys Queued.key verdict (fetched kind mode s.sources)) := by
  obtain ⟨_, hescaped, hemitted⟩ := steady_consume hsteady
    (fun q hq => h.rows q (fetched_waiting hq)) h.vault
  unfold pass
  dsimp only
  rw [hescaped]
  split
  · rfl
  · next hquiet => rw [hemitted (by simpa using hquiet)]

theorem presentedIn_iff (h : Covered Q rows s) :
    e ∈ presentedIn kind mode s ↔ Reached verdict (fetched kind mode s.sources) e :=
  steady_presented hsteady (fun q hq => h.rows q (fetched_waiting hq)) h.vault

theorem pass_covered (h : Covered Q rows s) : Covered Q rows (pass kind mode s) := by
  have hvault : Q (pass kind mode s).vault :=
    (steady_consume hsteady (fun q hq => h.rows q (fetched_waiting hq)) h.vault).1
  have hsources : (pass kind mode s).sources = _ := pass_sources hsteady h
  split at hsources
  · exact ⟨hvault, hsources ▸ h.wellFormed, fun q hq => h.rows q (hsources ▸ hq)⟩
  · exact ⟨hvault, hsources ▸ settle_wellFormed h.wellFormed,
      fun q hq => h.rows q (settle_waiting (hsources ▸ hq))⟩

/-- A pass over the inbox drains its window and leaves everything else alone. -/
theorem pass_inbox (h : Covered Q rows s) (hmode : mode ≠ .relayOnly)
    (hinbox : s.sources.inbox ≠ []) :
    (pass kind mode s).sources =
      if throwing verdict (s.sources.inbox.take 256) then s.sources
      else { s.sources with inbox := drain 256 verdict s.sources.inbox } := by
  have hfetched : fetched kind mode s.sources = s.sources.inbox.take 256 :=
    if_pos ⟨hmode, .inl hinbox⟩
  have hboxes : dropboxes kind s.sources = [] := if_neg (fun h => hinbox h.2)
  rw [pass_sources hsteady h, hfetched, settle_inboxIds hmode hboxes]
  · rw [without, filter_consumedKeys h.wellFormed.inboxKeys]
  · intro id hid
    obtain ⟨q, hq, _, rfl⟩ := consumedKeys_subset hid
    exact List.mem_map_of_mem (List.mem_of_mem_take hq)

theorem inbox_drains (hmode : mode ≠ .relayOnly) :
    Drains 256 verdict (pass kind mode) (fun s => s.sources.inbox) (Covered Q rows) where
  keeps s h := pass_covered hsteady h
  quiet s h hquiet := by
    by_cases hinbox : s.sources.inbox = []
    · have hsub : (pass kind mode s).sources.inbox.Sublist s.sources.inbox := by
        rw [pass_sources hsteady h]
        split
        · exact List.Sublist.refl _
        · exact settle_inbox
      rw [hinbox] at hsub ⊢
      exact List.sublist_nil.mp hsub
    · rw [pass_inbox hsteady h hmode hinbox, hquiet]
      rfl
  throws s h hthrow := by
    have hinbox : s.sources.inbox ≠ [] := by
      intro hnil
      rw [hnil] at hthrow
      cases hthrow
    rw [pass_inbox hsteady h hmode hinbox, hthrow]
    rfl

/-- A row of `tor_inbox` is in a pass only through the window of the inbox. -/
theorem presentedIn_tor_iff (h : Covered Q rows s) (he : e.origin = .tor) :
    e ∈ presentedIn kind mode s ↔
      mode ≠ .relayOnly ∧ Reached verdict (s.sources.inbox.take 256) e := by
  rw [presentedIn_iff hsteady h]
  have hpolled (hr : Reached verdict (s.sources.relay ++ dropboxes kind s.sources) e) : False := by
    rcases List.mem_append.mp (reached_mem hr) with hmem | hmem
    · have := h.wellFormed.relay e hmem
      rw [he] at this
      cases this
    · have := h.wellFormed.blind e (dropboxes_subset hmem)
      rw [he] at this
      cases this
  unfold fetched
  split
  · next hwindow => exact ⟨fun hr => ⟨hwindow.1, hr⟩, fun hr => hr.2⟩
  · next hpoll =>
    refine ⟨fun hr => (hpolled hr).elim, fun ⟨hmode, hr⟩ => ?_⟩
    refine absurd ⟨hmode, .inl fun hnil => ?_⟩ hpoll
    rw [hnil] at hr
    cases reached_mem hr

theorem passes_covered (h : Covered Q rows s) (n : Nat) :
    Covered Q rows ((pass kind mode)^[n] s) := by
  induction n generalizing s with
  | zero => exact h
  | succ n ih => exact ih (pass_covered hsteady h)

/-- A row of `tor_inbox` comes up if and only if nothing throws before it and fewer than
256 rows before it are stuck. -/
theorem presented_tor_iff (h : Covered Q rows s) (he : e ∈ s.sources.inbox) :
    Presented kind mode s e ↔ mode ≠ .relayOnly ∧ Waits 256 verdict s.sources.inbox e := by
  have horigin := h.wellFormed.inbox e he
  constructor
  · rintro ⟨n, _, hn⟩
    obtain ⟨hmode, hr⟩ :=
      (presentedIn_tor_iff hsteady (passes_covered hsteady h n) horigin).mp hn
    exact ⟨hmode, waits_of_reached (inbox_drains hsteady hmode) n h hr⟩
  · rintro ⟨hmode, hw⟩
    obtain ⟨n, hn, hr⟩ := reached_of_waits (inbox_drains hsteady hmode) h hw
    refine ⟨n, Nat.le_trans hn ?_, ?_⟩
    · unfold pendingCount
      omega
    · exact (presentedIn_tor_iff hsteady (passes_covered hsteady h n) horigin).mpr ⟨hmode, hr⟩

theorem presentedIn_relay_iff (h : Covered Q rows s) (he : e.origin = .relay) :
    e ∈ presentedIn kind mode s ↔
      (mode = .relayOnly ∨ (s.sources.inbox = [] ∧ mode = .hybrid)) ∧
        Reached verdict s.sources.relay e := by
  rw [presentedIn_iff hsteady h]
  have hinbox : e ∉ s.sources.inbox := fun hmem => by
    have := h.wellFormed.inbox e hmem
    rw [he] at this
    cases this
  have hboxes : e ∉ dropboxes kind s.sources := fun hmem => by
    have := h.wellFormed.blind e (dropboxes_subset hmem)
    rw [he] at this
    cases this
  unfold fetched
  split
  · next hwindow =>
    refine ⟨fun hr => absurd (List.mem_of_mem_take (reached_mem hr)) hinbox, ?_⟩
    rintro ⟨hmode | ⟨hnil, hmode⟩, _⟩
    · exact absurd hmode hwindow.1
    · rcases hwindow.2 with hne | hdirect
      · exact absurd hnil hne
      · rw [hmode] at hdirect
        cases hdirect
  · next hpoll =>
    rw [reached_append_left_iff hboxes]
    refine ⟨fun hr => ⟨?_, hr⟩, fun hr => hr.2⟩
    cases mode with
    | relayOnly => exact .inl rfl
    | direct => exact absurd ⟨nofun, .inr rfl⟩ hpoll
    | hybrid =>
      by_cases hnil : s.sources.inbox = []
      · exact .inr ⟨hnil, rfl⟩
      · exact absurd ⟨nofun, .inl hnil⟩ hpoll

/-- A row of the relay's queue comes up once the inbox is out of the way. -/
def RelayWaits (mode : Mode) (verdict : Queued → Verdict) (src : Sources) (e : Queued) : Prop :=
  (mode = .hybrid → ∀ q ∈ src.inbox, verdict q = .consumed) ∧ Reached verdict src.relay e

theorem relayWaits_of_pass (h : Covered Q rows s) (hmode : mode ≠ .direct)
    (hw : RelayWaits mode verdict (pass kind mode s).sources e) :
    RelayWaits mode verdict s.sources e := by
  by_cases hwindow : mode = .hybrid ∧ s.sources.inbox ≠ []
  · obtain ⟨rfl, hinbox⟩ := hwindow
    have hrelay : Mode.hybrid ≠ Mode.relayOnly := nofun
    rw [pass_inbox hsteady h hrelay hinbox] at hw
    split at hw
    · exact hw
    · refine ⟨fun _ q hq => ?_, hw.2⟩
      by_contra hv
      exact hv (hw.1 rfl q (mem_drain hq hv))
  · have hnil : mode = .hybrid → s.sources.inbox = [] := fun hm => by
      by_contra hne
      exact hwindow ⟨hm, hne⟩
    have hfetched : fetched kind mode s.sources =
        s.sources.relay ++ dropboxes kind s.sources := by
      refine if_neg fun hc => ?_
      cases mode with
      | relayOnly => exact hc.1 rfl
      | direct => exact hmode rfl
      | hybrid => exact hc.2.elim (fun hne => hne (hnil rfl)) nofun
    rw [pass_sources hsteady h, hfetched] at hw
    split at hw
    · exact hw
    · next hquiet =>
      rw [Bool.not_eq_true, throwing_append, Bool.or_eq_false_iff] at hquiet
      refine ⟨fun hm q hq => ?_, reached_of_quiet hquiet.1 (settle_relay.subset (reached_mem hw.2))⟩
      rw [hnil hm] at hq
      cases hq

/-- An inbox of consumable rows only is empty after finitely many passes. -/
theorem inbox_clears (h : Covered Q rows s) (hall : ∀ q ∈ s.sources.inbox, verdict q = .consumed) :
    ∃ n ≤ s.sources.inbox.length,
      ((pass kind .hybrid)^[n] s).sources = { s.sources with inbox := [] } := by
  induction hlen : s.sources.inbox.length using Nat.strongRecOn generalizing s with
  | ind k ih =>
    subst hlen
    by_cases hinbox : s.sources.inbox = []
    · refine ⟨0, Nat.zero_le _, ?_⟩
      rw [← hinbox]
      rfl
    · have hrelay : Mode.hybrid ≠ Mode.relayOnly := nofun
      have hquiet : throwing verdict (s.sources.inbox.take 256) = false :=
        quiet_iff.mpr fun q hq hv => by
          rw [hall q (List.mem_of_mem_take hq)] at hv
          cases hv
      have hpass : (pass kind .hybrid s).sources =
          { s.sources with inbox := drain 256 verdict s.sources.inbox } := by
        rw [pass_inbox hsteady h hrelay hinbox, hquiet]
        rfl
      have hdrop : drain 256 verdict s.sources.inbox = s.sources.inbox.drop 256 := by
        have hnone : (s.sources.inbox.take 256).filter
            (fun q => decide (verdict q ≠ .consumed)) = [] :=
          List.filter_eq_nil_iff.mpr fun q hq => by simp [hall q (List.mem_of_mem_take hq)]
        rw [drain, hnone, List.nil_append]
      have hshorter : (pass kind .hybrid s).sources.inbox.length < s.sources.inbox.length := by
        have hpos : s.sources.inbox.length ≠ 0 := fun hzero =>
          hinbox (List.eq_nil_of_length_eq_zero hzero)
        rw [hpass, hdrop]
        simp only [List.length_drop]
        omega
      have hrest : ∀ q ∈ (pass kind .hybrid s).sources.inbox, verdict q = .consumed := by
        rw [hpass]
        exact fun q hq => hall q (drain_sublist.subset hq)
      obtain ⟨n, hn, hsources⟩ := ih _ hshorter (pass_covered hsteady h) hrest rfl
      refine ⟨n + 1, by omega, ?_⟩
      rw [Function.iterate_succ_apply, hsources, hpass]

theorem presented_relay_iff (h : Covered Q rows s) (hmode : mode ≠ .direct)
    (he : e ∈ s.sources.relay) :
    Presented kind mode s e ↔ RelayWaits mode verdict s.sources e := by
  have horigin := h.wellFormed.relay e he
  constructor
  · rintro ⟨n, hbound, hn⟩
    clear he hbound
    induction n generalizing s with
    | zero =>
      obtain ⟨hfree, hr⟩ := (presentedIn_relay_iff hsteady h horigin).mp hn
      refine ⟨fun hm q hq => ?_, hr⟩
      rcases hfree with hrelay | ⟨hnil, _⟩
      · rw [hm] at hrelay
        cases hrelay
      · rw [hnil] at hq
        cases hq
    | succ n ih => exact relayWaits_of_pass hsteady h hmode (ih (pass_covered hsteady h) hn)
  · rintro ⟨hall, hr⟩
    cases mode with
    | direct => exact absurd rfl hmode
    | relayOnly =>
      exact ⟨0, Nat.zero_le _, (presentedIn_relay_iff hsteady h horigin).mpr ⟨.inl rfl, hr⟩⟩
    | hybrid =>
      obtain ⟨n, hn, hsources⟩ := inbox_clears hsteady h (hall rfl)
      refine ⟨n, ?_, (presentedIn_relay_iff hsteady (passes_covered hsteady h n) horigin).mpr ?_⟩
      · unfold pendingCount
        omega
      · rw [hsources]
        exact ⟨.inr ⟨rfl, rfl⟩, hr⟩

theorem presentedIn_blind_iff (h : Covered Q rows s) (hmode : mode ≠ .direct)
    (hkind : kind = .android) (he : e.origin = .blind) :
    e ∈ presentedIn kind mode s ↔
      s.sources.inbox = [] ∧ (∀ q ∈ s.sources.relay, verdict q ≠ .aborting) ∧
        Reached verdict (windows s.sources.blind) e := by
  rw [presentedIn_iff hsteady h]
  have hinbox : e ∉ s.sources.inbox := fun hmem => by
    have := h.wellFormed.inbox e hmem
    rw [he] at this
    cases this
  have hrelay : e ∉ s.sources.relay := fun hmem => by
    have := h.wellFormed.relay e hmem
    rw [he] at this
    cases this
  unfold fetched
  split
  · next hwindow =>
    refine ⟨fun hr => absurd (List.mem_of_mem_take (reached_mem hr)) hinbox, ?_⟩
    rintro ⟨hnil, _⟩
    exact hwindow.2.elim (fun hne => absurd hnil hne) (fun hdirect => absurd hdirect hmode)
  · rw [reached_append_right_iff hrelay]
    unfold dropboxes
    by_cases hnil : s.sources.inbox = []
    · simp [hkind, hnil]
    · rw [if_neg (fun hc => hnil hc.2)]
      exact ⟨fun hr => absurd (reached_mem hr.2) List.not_mem_nil, fun hr => absurd hr.1 hnil⟩

end Pass

/-- What a dropbox row waits for besides its own batch. -/
def BlindWaits (mode : Mode) (verdict : Queued → Verdict) (src : Sources) (e : Queued) : Prop :=
  InboxClears mode verdict src ∧ (∀ q ∈ src.relay, verdict q ≠ .aborting) ∧
    BlindReached verdict src.blind e

section Dropboxes

variable {mode : Mode} {verdict : Queued → Verdict} {Q : Vault → Prop} {rows : Queued → Prop}
  {s : State} {e : Queued} (hsteady : Steady (body .android) Queued.key verdict Q rows)

theorem fetched_polled {src : Sources} (hmode : mode ≠ .direct) (hnil : src.inbox = []) :
    fetched .android mode src = src.relay ++ windows src.blind := by
  unfold fetched dropboxes
  rw [if_neg (fun hc => hc.2.elim (fun hne => hne hnil) hmode), if_pos ⟨rfl, hnil⟩]

include hsteady

/-- A pass over the relay's queue and the dropboxes of which no row throws. -/
theorem pass_polled (h : Covered Q rows s) (hmode : mode ≠ .direct) (hnil : s.sources.inbox = [])
    (hquiet : throwing verdict (s.sources.relay ++ windows s.sources.blind) = false) :
    (pass .android mode s).sources.inbox = [] ∧
    (∀ q ∈ (pass .android mode s).sources.relay, q ∈ s.sources.relay) ∧
    (pass .android mode s).sources.blind = advance verdict s.sources.blind := by
  have hpass : (pass .android mode s).sources = _ := pass_sources hsteady h
  rw [fetched_polled hmode hnil, hquiet] at hpass
  rw [hpass]
  exact ⟨(settle_polled h.wellFormed hnil).1, fun q hq => settle_relay.subset hq,
    (settle_polled h.wellFormed hnil).2⟩

/-- In relay-only mode rows left in the inbox keep a pass from the dropboxes, and go only
as duplicates of what the relay delivers. -/
theorem pass_leftover (h : Covered Q rows s) (hne : s.sources.inbox ≠ [])
    (hquiet : throwing verdict s.sources.relay = false) :
    (pass .android .relayOnly s).sources.inbox =
      without (consumedKeys Queued.key verdict s.sources.relay) s.sources.inbox ∧
    (∀ q ∈ (pass .android .relayOnly s).sources.relay, q ∈ s.sources.relay) ∧
    (pass .android .relayOnly s).sources.blind = s.sources.blind := by
  have hboxes : dropboxes .android s.sources = [] := if_neg fun hc => hne hc.2
  have hfetched : fetched .android .relayOnly s.sources = s.sources.relay := by
    unfold fetched
    rw [if_neg (fun hc => hc.1 rfl), hboxes, List.append_nil]
  have hpass : (pass .android .relayOnly s).sources = _ := pass_sources hsteady h
  rw [hfetched, hquiet] at hpass
  rw [hpass]
  refine ⟨?_, fun q hq => settle_relay.subset hq, ?_⟩
  · simp [settle, hboxes, keys]
  · have hblind : s.sources.blind.map (without []) = s.sources.blind := by
      rw [List.map_congr_left (fun l _ => without_nil l), List.map_id']
    simp [settle, hboxes, keys, hblind]

theorem blindWaits_of_pass (h : Covered Q rows s) (hmode : mode ≠ .direct)
    (hw : BlindWaits mode verdict (pass .android mode s).sources e) :
    BlindWaits mode verdict s.sources e := by
  by_cases hnil : s.sources.inbox = []
  · cases hthrow : throwing verdict (s.sources.relay ++ windows s.sources.blind) with
    | true =>
      rwa [pass_sources hsteady h, fetched_polled hmode hnil, hthrow] at hw
    | false =>
      have hblind := (pass_polled hsteady h hmode hnil hthrow).2.2
      rw [throwing_append, Bool.or_eq_false_iff] at hthrow
      refine ⟨?_, quiet_iff.mp hthrow.1, .later hthrow.2 (hblind ▸ hw.2.2)⟩
      cases mode with
      | direct => exact absurd rfl hmode
      | hybrid => exact fun q hq => by rw [hnil] at hq; cases hq
      | relayOnly => exact fun q hq => by rw [hnil] at hq; cases hq
  · cases mode with
    | direct => exact absurd rfl hmode
    | hybrid =>
      have hrelay : Mode.hybrid ≠ Mode.relayOnly := nofun
      rw [pass_inbox hsteady h hrelay hnil] at hw
      split at hw
      · exact hw
      · refine ⟨fun q hq => ?_, hw.2⟩
        by_contra hv
        exact hv (hw.1 q (mem_drain hq hv))
    | relayOnly =>
      have hboxes : dropboxes .android s.sources = [] := if_neg fun hc => hnil hc.2
      have hfetched : fetched .android .relayOnly s.sources = s.sources.relay := by
        unfold fetched
        rw [if_neg (fun hc => hc.1 rfl), hboxes, List.append_nil]
      cases hthrow : throwing verdict s.sources.relay with
      | true => rwa [pass_sources hsteady h, hfetched, hthrow] at hw
      | false =>
        obtain ⟨hinbox, hsub, hblind⟩ := pass_leftover hsteady h hnil hthrow
        refine ⟨fun q hq => ?_, quiet_iff.mp hthrow, hblind ▸ hw.2.2⟩
        by_cases hkey : q.key ∈ consumedKeys Queued.key verdict s.sources.relay
        · exact consumedKeys_subset hkey
        · have hkept : q ∈ (pass .android .relayOnly s).sources.inbox := by
            rw [hinbox]
            exact List.mem_filter.mpr ⟨hq, decide_eq_true hkey⟩
          obtain ⟨r, hr, hv⟩ := hw.1 q hkept
          exact ⟨r, hsub r hr, hv⟩

/-- Passes after which no row of the inbox keeps the dropboxes from being asked. -/
theorem dropboxes_open (h : Covered Q rows s) (hclears : InboxClears mode verdict s.sources)
    (hrelay : ∀ q ∈ s.sources.relay, verdict q ≠ .aborting) :
    ∃ n ≤ s.sources.inbox.length,
      ((pass .android mode)^[n] s).sources.inbox = [] ∧
      (∀ q ∈ ((pass .android mode)^[n] s).sources.relay, q ∈ s.sources.relay) ∧
      ((pass .android mode)^[n] s).sources.blind = s.sources.blind := by
  cases mode with
  | direct => exact hclears.elim
  | hybrid =>
    obtain ⟨n, hn, hsources⟩ := inbox_clears hsteady h hclears
    exact ⟨n, hn, by rw [hsources], by rw [hsources]; exact fun q hq => hq, by rw [hsources]⟩
  | relayOnly =>
    by_cases hnil : s.sources.inbox = []
    · exact ⟨0, Nat.zero_le _, hnil, fun q hq => hq, rfl⟩
    · obtain ⟨hinbox, hsub, hblind⟩ := pass_leftover hsteady h hnil (quiet_iff.mpr hrelay)
      refine ⟨1, List.length_pos_iff.mpr hnil, ?_, hsub, hblind⟩
      refine hinbox.trans (List.filter_eq_nil_iff.mpr fun q hq => ?_)
      obtain ⟨r, hr, hv, hkey⟩ := hclears q hq
      have hmem : q.key ∈ consumedKeys Queued.key verdict s.sources.relay :=
        List.mem_map.mpr ⟨r, List.mem_filter.mpr ⟨hr, decide_eq_true hv⟩, hkey⟩
      simp [hmem]

/-- Once they are asked, the dropboxes advance pass by pass. -/
theorem dropbox_comes_up (n : Nat) (h : Covered Q rows s) (hmode : mode ≠ .direct)
    (he : e.origin = .blind) (hnil : s.sources.inbox = [])
    (hrelay : ∀ q ∈ s.sources.relay, verdict q ≠ .aborting)
    (hr : Reached verdict (windows ((advance verdict)^[n] s.sources.blind)) e)
    (hquiet : ∀ k < n, throwing verdict (windows ((advance verdict)^[k] s.sources.blind)) = false) :
    e ∈ presentedIn .android mode ((pass .android mode)^[n] s) := by
  induction n generalizing s with
  | zero => exact (presentedIn_blind_iff hsteady h hmode rfl he).mpr ⟨hnil, hrelay, hr⟩
  | succ n ih =>
    have hthrow : throwing verdict (s.sources.relay ++ windows s.sources.blind) = false := by
      rw [throwing_append, quiet_iff.mpr hrelay]
      exact hquiet 0 (Nat.succ_pos n)
    obtain ⟨hinbox, hsub, hblind⟩ := pass_polled hsteady h hmode hnil hthrow
    refine ih (pass_covered hsteady h) hinbox (fun q hq => hrelay q (hsub q hq)) ?_ ?_
    · rw [hblind]
      exact hr
    · rw [hblind]
      exact fun k hk => hquiet (k + 1) (Nat.succ_lt_succ hk)

theorem presented_blind_iff (h : Covered Q rows s) (hmode : mode ≠ .direct)
    (he : e ∈ s.sources.blind.flatten) :
    Presented .android mode s e ↔ BlindWaits mode verdict s.sources e := by
  have horigin := h.wellFormed.blind e he
  constructor
  · rintro ⟨n, hbound, hn⟩
    clear he hbound
    induction n generalizing s with
    | zero =>
      obtain ⟨hnil, hrelay, hr⟩ := (presentedIn_blind_iff hsteady h hmode rfl horigin).mp hn
      refine ⟨?_, hrelay, .now hr⟩
      cases mode with
      | direct => exact absurd rfl hmode
      | hybrid => exact fun q hq => absurd (hnil ▸ hq) List.not_mem_nil
      | relayOnly => exact fun q hq => absurd (hnil ▸ hq) List.not_mem_nil
    | succ n ih => exact blindWaits_of_pass hsteady h hmode (ih (pass_covered hsteady h) hn)
  · rintro ⟨hclears, hrelay, hreached⟩
    obtain ⟨m, hm, hnil, hsub, hblind⟩ := dropboxes_open hsteady h hclears hrelay
    obtain ⟨n, hn, hr, hquiet⟩ := blindReached_bound hreached
    refine ⟨n + m, ?_, ?_⟩
    · unfold pendingCount
      omega
    · rw [Function.iterate_add_apply]
      refine dropbox_comes_up hsteady n (passes_covered hsteady h m) hmode horigin hnil
        (fun q hq => hrelay q (hsub q hq)) ?_ ?_
      · rw [hblind]
        exact hr
      · rw [hblind]
        exact hquiet

end Dropboxes

section KnownSenders

variable {v w : Vault} {c id : String} {o : Outcome} {p : Payload}

def receiptReady (p : Payload) (o : Outcome) : Bool :=
  match p.messageId with
  | none => true
  | some remote => !isRemoteId remote || o.receipt.isSome

/-- Whether the transaction of an envelope commits, whatever the vault holds. -/
def commits (o : Outcome) : Bool :=
  match o.payload with
  | none => false
  | some p => o.persists && (p.kind != .text || receiptReady p o)

def rowVerdict (v : Vault) (contactId : String) (o : Outcome) : Verdict :=
  if identityChanged v contactId then .stuck
  else if o.begins = false then .aborting
  else if commits o then .consumed
  else if o.rollsBack then .stuck
  else .aborting

theorem queueReceipt_isSome : (queueReceipt v p o).isSome = receiptReady p o := by
  unfold queueReceipt receiptReady
  cases p.messageId with
  | none => rfl
  | some remote =>
    cases hr : isRemoteId remote with
    | false => simp [hr]
    | true => cases ho : o.receipt <;> simp [hr]

theorem commitEnvelope_isSome : (commitEnvelope v c id o).isSome = commits o := by
  unfold commitEnvelope commits
  cases o.payload with
  | none => rfl
  | some p =>
    cases o.persists with
    | false => rfl
    | true =>
      by_cases hk : p.kind = .text
      · have hr := queueReceipt_isSome (p := p) (o := o)
          (v := storeMessage (applyProfile (findOrCreateConversation v c o.conversationId).1 c p)
            (findOrCreateConversation v c o.conversationId).2 id p o)
        simp only [hk, ne_eq, not_true_eq_false, if_false, Bool.true_eq_false]
        cases hq : queueReceipt (storeMessage
            (applyProfile (findOrCreateConversation v c o.conversationId).1 c p)
            (findOrCreateConversation v c o.conversationId).2 id p o) p o with
        | none => rw [hq] at hr; simp [← hr]
        | some q => rw [hq] at hr; simp [← hr]
      · simp [hk]

def senderOf (q : Queued) : Option String :=
  match q.pending.entry with
  | .object f => match f.senderId with | .str s _ => some s | _ => none
  | _ => none

/-- The verdict on a row whose sender is a known device. -/
def knownVerdict (v : Vault) (q : Queued) : Verdict :=
  match remoteOfDevice v (senderOf q) with
  | none => .aborting
  | some r => rowVerdict v r.contactId q.pending.outcome

/-- A row as the onion service stores it, from a device in `remote_contacts`. -/
structure KnownRow (v : Vault) (q : Queued) : Prop where
  entry : ∃ ciphertext device, ciphertext ≠ "" ∧
    q.pending.entry = TorRouting.InboxRow.entry ⟨q.key, ciphertext, device⟩
  key : q.key ≠ ""
  sender : (remoteOfDevice v (senderOf q)).isSome

/-- The vaults of the passes: same contacts, no row seen that cannot be consumed. -/
def Unseen (v : Vault) (rows : List Queued) (w : Vault) : Prop :=
  SameContacts v w ∧ ∀ q ∈ rows, knownVerdict v q ≠ .consumed → q.key ∉ w.seen

theorem body_known {q : Queued} (h : KnownRow v q) (hw : SameContacts v w) :
    ∃ r, remoteOfDevice v (senderOf q) = some r ∧
      body .desktop w q =
        if q.key ∈ w.seen then .next w (some q.key)
        else receiveFrom (transact q.key q.pending.outcome) w (.known w r.contactId) := by
  obtain ⟨r, hr⟩ := Option.isSome_iff_exists.mp h.sender
  obtain ⟨ciphertext, device, hc, hentry⟩ := h.entry
  have hsender : senderOf q = some device := by
    unfold senderOf
    rw [hentry]
    rfl
  have hkey := h.key
  refine ⟨r, hr, ?_⟩
  rw [hsender, ← hw.remoteOfDevice] at hr
  simp [body, iterate, SyncMessages.processEnvelope, hentry, TorRouting.InboxRow.entry,
    processFields, malformed, Value.isOne, Value.falsy, Value.bind, Value.bufferFrom,
    resolveSender, hr, hkey, hc]

/-- For an envelope not seen yet the verdict is what the loop body does. -/
theorem receive_cases {q : Queued} (hw : SameContacts v w) (c : String) :
    (rowVerdict v c q.pending.outcome = .consumed ∧
      ∃ x, commitEnvelope w c q.key q.pending.outcome = some x ∧
        receiveFrom (transact q.key q.pending.outcome) w (.known w c) = .next x (some q.key)) ∨
    (rowVerdict v c q.pending.outcome = .stuck ∧
      receiveFrom (transact q.key q.pending.outcome) w (.known w c) = .next w none) ∨
    (rowVerdict v c q.pending.outcome = .aborting ∧
      receiveFrom (transact q.key q.pending.outcome) w (.known w c) = .escaped w) := by
  have hsome : (commitEnvelope w c q.key q.pending.outcome).isSome = commits q.pending.outcome :=
    commitEnvelope_isSome
  simp only [rowVerdict, receiveFrom, transact, hw.identityChanged]
  cases identityChanged v c with
  | true => exact .inr (.inl ⟨rfl, rfl⟩)
  | false =>
    cases q.pending.outcome.begins with
    | false => exact .inr (.inr ⟨rfl, rfl⟩)
    | true =>
      rw [← hsome]
      cases commitEnvelope w c q.key q.pending.outcome with
      | some x => exact .inl ⟨rfl, x, rfl, rfl⟩
      | none =>
        cases q.pending.outcome.rollsBack with
        | true => exact .inr (.inl ⟨rfl, rfl⟩)
        | false => exact .inr (.inr ⟨rfl, rfl⟩)

/-- Rows from known devices have steady verdicts. -/
theorem knownSenders_steady {rows : List Queued} (hrows : ∀ q ∈ rows, KnownRow v q)
    (hkeys : (keys rows).Nodup) :
    Steady (body .desktop) Queued.key (knownVerdict v) (Unseen v rows) (fun q => q ∈ rows) := by
  refine steady_of_cases fun w q hw hq => ?_
  obtain ⟨r, hr, hbody⟩ := body_known (hrows q hq) hw.1
  have hverdict : knownVerdict v q = rowVerdict v r.contactId q.pending.outcome := by
    simp [knownVerdict, hr]
  rw [hbody]
  by_cases hseen : q.key ∈ w.seen
  · rw [if_pos hseen]
    refine .inl ⟨?_, w, hw, rfl⟩
    by_contra hv
    exact hw.2 q hq hv hseen
  · rw [if_neg hseen, hverdict]
    rcases receive_cases hw.1 r.contactId with ⟨hv, x, hx, hreceive⟩ | ⟨hv, hreceive⟩ | ⟨hv, hreceive⟩
    · refine .inl ⟨hv, x, ⟨hw.1.trans (commitEnvelope_contacts hx), fun a ha hstuck hmem => ?_⟩,
        hreceive⟩
      rw [(commitEnvelope_commit hseen hx).seen] at hmem
      rcases List.mem_append.mp hmem with hold | hnew
      · exact hw.2 a ha hstuck hold
      · have hsame : a = q := List.inj_on_of_nodup_map hkeys ha hq (List.mem_singleton.mp hnew)
        rw [hsame, hverdict] at hstuck
        exact hstuck hv
    · exact .inr (.inl ⟨hv, w, hw, hreceive⟩)
    · exact .inr (.inr ⟨hv, w, hw, hreceive⟩)

end KnownSenders

section Starved

def alice : Contact := ⟨"alice.1", "alice", none, "ik-alice", some "s", false, false⟩

def mallory : Contact := ⟨"mallory.1", "mallory", none, "ik-mallory", some "s", false, true⟩

/-- Mallory's identity has changed; both devices are known. -/
def vault : Vault :=
  { Vault.empty with
    contacts := [alice, mallory]
    remoteContacts :=
      [⟨"alice.1", "alice", "alice-device", 1⟩, ⟨"mallory.1", "mallory", "mallory-device", 1⟩] }

def hello : Payload := ⟨.text, "", "", none, "hello", none, none, none⟩

def fine : Outcome := ⟨0, .throws, true, some hello, "m", "conversation", none, true, true⟩

def envelope (origin : Origin) (key device : String) : Queued :=
  ⟨origin, key, TorRouting.InboxRow.entry ⟨key, "AAAA", device⟩, fine⟩

def hostile : Queued := envelope .tor "0123456789abcdef0123456789abcde1" "mallory-device"

def behind : Queued := envelope .tor "0123456789abcdef0123456789abcde2" "alice-device"

def relayed : Queued := envelope .relay "0123456789abcdef0123456789abcde2" "alice-device"

def sharedInbox : State := ⟨vault, ⟨[hostile, behind], [], []⟩⟩

def starved : State := ⟨vault, ⟨[hostile], [relayed], []⟩⟩

theorem sharedInbox_wellFormed : WellFormed sharedInbox.sources where
  inbox := by decide
  relay := by decide
  blind := by decide
  inboxKeys := by decide
  relayKeys := by decide

theorem starved_stays (kind : ClientKind) : pass kind .hybrid starved = starved := by
  cases kind <;> rfl

theorem starved_not_presented (kind : ClientKind) : ¬ ∀ e ∈ starved.sources.relay,
    (∃ w, body kind starved.vault e = .next w (some e.key)) → Presented kind .hybrid starved e := by
  intro h
  have hcommits : ∃ w, body kind starved.vault relayed = .next w (some relayed.key) := by
    cases kind <;> exact ⟨_, rfl⟩
  obtain ⟨n, _, hn⟩ := h relayed (by decide) hcommits
  rw [Function.iterate_fixed (starved_stays kind)] at hn
  cases kind <;> exact absurd hn (by decide)

end Starved

end InboxStarvation
