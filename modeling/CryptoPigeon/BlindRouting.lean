import CryptoPigeon.TransitionSystem
import Mathlib.Logic.Function.Basic

/-! # Blind routing between phones

Every message carries a secret that its sender has drawn for the receiver. Whoever has received it
may address the answers to a dropbox, whose tag is a digest of that secret and of the hour on the
sender's clock; the receiver asks for the tags of the last thirty days and of the next hour. A
contact is a device here. `owner` is history: who drew a secret and for whom. -/
namespace BlindRouting

open TransitionSystem

/-- 32 random bytes. -/
abbrev Secret := BitVec 256

/-- A row of `contact_routing`. -/
structure Routing where
  receiveSecret : Secret
  sendSecret : Option Secret
  deriving DecidableEq, Repr

abbrev Table := List (String × Routing)

/-- A payload with `routingSecret` in its profile, from when it was encrypted. -/
structure Mail where
  envelopeId : Nat
  sender : String
  receiver : String
  secret : Secret
  deriving DecidableEq, Repr

/-- A row of `blind_messages`; only the id and the tag are the relay's to see. -/
structure Row where
  mail : Mail
  tag : String
  secret : Secret
  hour : Int

structure Phone where
  routing : Table
  /-- Milliseconds. -/
  clock : Nat
  backups : List Table
  restored : Bool

structure State where
  phones : String → Phone
  mail : List Mail
  rows : List Row
  owner : Secret → Option (String × String)

def Phone.hour (p : Phone) : Int := (p.clock / 3600000 : Nat)

/-- `routedProfile`: the secret for a contact is drawn once. -/
def routedProfile (t : Table) (contact : String) (drawn : Secret) : Table × Secret :=
  match t.lookup contact with
  | some r => (t, r.receiveSecret)
  | none => (t ++ [(contact, ⟨drawn, none⟩)], drawn)

/-- `UPDATE contact_routing SET send_secret=? WHERE contact_id=?` -/
def setSendSecret (t : Table) (contact : String) (secret : Secret) : Table :=
  t.map fun e => if e.1 = contact then (e.1, { e.2 with sendSecret := some secret }) else e

/-- The keys and values that `routingTags` puts into its map, in this order. -/
def puts (routingTag : Secret → Int → String) (p : Phone) : List (String × String) :=
  p.routing.flatMap fun e =>
    (List.range 722).map fun (i : Nat) =>
      (routingTag e.2.receiveSecret (p.hour - ((i : Int) - 1)), e.1)

/-- The sender that `routingTags` has for a tag: a later value replaces an earlier one. -/
def routingTags (routingTag : Secret → Int → String) (p : Phone) (tag : String) : Option String :=
  (puts routingTag p).reverse.lookup tag

inductive Event where
  | compose (id : Nat) (sender receiver : String) (drawn : Secret)
  /-- An attempt to send, in which the relay takes the row. -/
  | post (m : Mail)
  /-- A payload arrives, by whatever way, and is committed. -/
  | consume (m : Mail) (drawn : Secret)
  /-- Acknowledged or expired. -/
  | remove (id : Nat)
  | setClock (phone : String) (clock : Nat)
  | backup (phone : String)
  | restore (phone : String) (t : Table)

def setRouting (s : State) (a : String) (t : Table) : State :=
  { s with phones := Function.update s.phones a { s.phones a with routing := t } }

/-- Who has drawn what, when `routedProfile` has drawn a secret if it had to. -/
def drew (s : State) (a b : String) (drawn : Secret) : Secret → Option (String × String) :=
  if ((s.phones a).routing.lookup b).isSome then s.owner
  else Function.update s.owner drawn (some (a, b))

def compose (s : State) (id : Nat) (a b : String) (drawn : Secret) : State :=
  let profile := routedProfile (s.phones a).routing b drawn
  { setRouting s a profile.1 with
    mail := ⟨id, a, b, profile.2⟩ :: s.mail
    owner := drew s a b drawn }

/-- `ON CONFLICT(id) DO NOTHING`: the first attempt decides the dropbox. -/
def post (routingTag : Secret → Int → String) (s : State) (m : Mail) : State :=
  match ((s.phones m.sender).routing.lookup m.receiver).bind Routing.sendSecret with
  | none => s
  | some k =>
    if s.rows.any fun r => r.mail.envelopeId == m.envelopeId then s
    else
      let hour := (s.phones m.sender).hour
      { s with rows := s.rows ++ [⟨m, routingTag k hour, k, hour⟩] }

def consume (s : State) (m : Mail) (drawn : Secret) : State :=
  let profile := routedProfile (s.phones m.receiver).routing m.sender drawn
  { setRouting s m.receiver (setSendSecret profile.1 m.sender m.secret) with
    owner := drew s m.receiver m.sender drawn }

def next (routingTag : Secret → Int → String) (s : State) : Event → State
  | .compose id a b drawn => compose s id a b drawn
  | .post m => post routingTag s m
  | .consume m drawn => consume s m drawn
  | .remove id => { s with rows := s.rows.filter fun r => r.mail.envelopeId != id }
  | .setClock a clock =>
    { s with phones := Function.update s.phones a { s.phones a with clock := clock } }
  | .backup a =>
    let p := s.phones a
    { s with phones := Function.update s.phones a { p with backups := p.routing :: p.backups } }
  | .restore a t =>
    { s with
      phones := Function.update s.phones a { s.phones a with routing := t, restored := true } }

/-- A drawn secret is new. -/
def Enabled (s : State) : Event → Prop
  | .compose _ _ _ drawn => s.owner drawn = none
  | .post m => m ∈ s.mail
  | .consume m drawn => m ∈ s.mail ∧ s.owner drawn = none
  | .restore a t => t ∈ (s.phones a).backups
  | .remove _ | .setClock _ _ | .backup _ => True

/-- Before any message. -/
structure Initial (s : State) : Prop where
  phones : ∀ a, (s.phones a).routing = [] ∧ (s.phones a).backups = [] ∧
    (s.phones a).restored = false
  mail : s.mail = []
  rows : s.rows = []
  owner : ∀ k, s.owner k = none

def system (routingTag : Secret → Int → String) : System State Event :=
  ⟨Initial, Enabled, next routingTag⟩

/-- The tag is one of the last thirty days or of the next hour, by the receiver's clock. -/
def Within (p : Phone) (hour : Int) : Prop := p.hour - 720 ≤ hour ∧ hour ≤ p.hour + 1

/-- What a phone may have in its table, now or in a backup. -/
def Owned (owner : Secret → Option (String × String)) (a : String) (t : Table) : Prop :=
  ∀ e ∈ t, owner e.2.receiveSecret = some (a, e.1) ∧
    ∀ k, e.2.sendSecret = some k → owner k = some (e.1, a)

structure Invariant (routingTag : Secret → Int → String) (s : State) : Prop where
  routing : ∀ a, Owned s.owner a (s.phones a).routing
  backups : ∀ a, ∀ t ∈ (s.phones a).backups, Owned s.owner a t
  mail : ∀ m ∈ s.mail, s.owner m.secret = some (m.sender, m.receiver)
  rows : ∀ r ∈ s.rows, s.owner r.secret = some (r.mail.receiver, r.mail.sender) ∧
    r.tag = routingTag r.secret r.hour
  kept : ∀ a b k, (s.phones a).restored = false → s.owner k = some (a, b) →
    ∃ e ∈ (s.phones a).routing, e.1 = b ∧ e.2.receiveSecret = k

theorem mem_of_lookup {α : Type} {l : List (String × α)} {x : String} {v : α}
    (h : l.lookup x = some v) : (x, v) ∈ l := by
  obtain ⟨before, after, rfl, -⟩ := List.lookup_eq_some_iff.mp h
  exact List.mem_append_right _ List.mem_cons_self

section Steps

variable {routingTag : Secret → Int → String} {s : State} {a b : String} {k drawn : Secret}
  {e : String × Routing}
  {owner owner' : Secret → Option (String × String)} {t : Table} {m : Mail}

theorem Owned.mono (h : Owned owner a t) (hsub : ∀ k p, owner k = some p → owner' k = some p) :
    Owned owner' a t :=
  fun e he => ⟨hsub _ _ (h e he).1, fun k hk => hsub _ _ ((h e he).2 k hk)⟩

theorem drew_mono (hfresh : s.owner drawn = none) (k : Secret) (p : String × String)
    (hk : s.owner k = some p) : drew s a b drawn k = some p := by
  unfold drew
  split
  · exact hk
  · rw [Function.update_of_ne (fun heq => by rw [heq, hfresh] at hk; cases hk)]
    exact hk

/-- A contact's row is there, or it is made with the secret that was drawn for it. -/
theorem routedProfile_cases (t : Table) (b : String) (drawn : Secret) :
    (∃ r, t.lookup b = some r ∧ routedProfile t b drawn = (t, r.receiveSecret)) ∨
      (t.lookup b = none ∧ routedProfile t b drawn = (t ++ [(b, ⟨drawn, none⟩)], drawn)) := by
  unfold routedProfile
  cases h : t.lookup b with
  | some r => exact .inl ⟨r, rfl, rfl⟩
  | none => exact .inr ⟨rfl, rfl⟩

theorem routedProfile_mem (he : e ∈ t) : e ∈ (routedProfile t b drawn).1 := by
  rcases routedProfile_cases t b drawn with ⟨r, -, hp⟩ | ⟨-, hp⟩ <;> rw [hp]
  · exact he
  · exact List.mem_append_left _ he

/-- What a profile carries is the phone's own, and it is kept. -/
theorem routedProfile_owned (h : Owned s.owner a (s.phones a).routing)
    (hfresh : s.owner drawn = none) :
    Owned (drew s a b drawn) a (routedProfile (s.phones a).routing b drawn).1 ∧
      drew s a b drawn (routedProfile (s.phones a).routing b drawn).2 = some (a, b) := by
  have hold : Owned (drew s a b drawn) a (s.phones a).routing := h.mono (drew_mono hfresh)
  rcases routedProfile_cases (s.phones a).routing b drawn with ⟨r, hr, hp⟩ | ⟨hnone, hp⟩
  · rw [hp]
    exact ⟨hold, (hold _ (mem_of_lookup hr)).1⟩
  · have hdrawn : drew s a b drawn drawn = some (a, b) := by
      simp [drew, hnone]
    rw [hp]
    refine ⟨fun e he => ?_, hdrawn⟩
    rcases List.mem_append.mp he with he | he
    · exact hold e he
    · rw [List.mem_singleton.mp he]
      exact ⟨hdrawn, fun _ hk => nomatch hk⟩

theorem setSendSecret_owned (h : Owned owner a t) (hk : owner k = some (b, a)) :
    Owned owner a (setSendSecret t b k) := by
  intro e he
  obtain ⟨e₀, he₀, rfl⟩ := List.mem_map.mp he
  split
  · next hcontact => exact ⟨(h e₀ he₀).1, fun k' hk' => by rw [← Option.some.inj hk', hcontact, hk]⟩
  · exact h e₀ he₀

theorem setSendSecret_mem (he : e ∈ t) :
    ∃ e' ∈ setSendSecret t b k, e'.1 = e.1 ∧ e'.2.receiveSecret = e.2.receiveSecret := by
  refine ⟨_, List.mem_map_of_mem he, ?_⟩
  split <;> exact ⟨rfl, rfl⟩

theorem drew_new (hk : drew s a b drawn k = some p) (hold : s.owner k ≠ some p) :
    p = (a, b) ∧ k = (routedProfile (s.phones a).routing b drawn).2 ∧
      (routedProfile (s.phones a).routing b drawn).1 =
        (s.phones a).routing ++ [(b, ⟨drawn, none⟩)] := by
  unfold drew at hk
  split at hk
  · exact absurd hk hold
  · next hnone =>
    have hlookup : (s.phones a).routing.lookup b = none := Option.not_isSome_iff_eq_none.mp hnone
    by_cases heq : k = drawn
    · subst heq
      rw [Function.update_self] at hk
      simp [routedProfile, hlookup, (Option.some.inj hk).symm]
    · rw [Function.update_of_ne heq] at hk
      exact absurd hk hold

/-- A phone has drawn a secret, if it had to, and has its new table. -/
theorem invariant_profile {mail : List Mail} (h : Invariant routingTag s)
    (hfresh : s.owner drawn = none) (howned : Owned (drew s a b drawn) a t)
    (hkept : ∀ e ∈ (routedProfile (s.phones a).routing b drawn).1,
      ∃ e' ∈ t, e'.1 = e.1 ∧ e'.2.receiveSecret = e.2.receiveSecret)
    (hmail : ∀ m ∈ mail, drew s a b drawn m.secret = some (m.sender, m.receiver)) :
    Invariant routingTag { setRouting s a t with mail := mail, owner := drew s a b drawn } where
  routing c := by
    by_cases hc : c = a
    · subst hc; simpa [setRouting] using howned
    · simpa [setRouting, hc] using (h.routing c).mono (drew_mono hfresh)
  backups c t' ht' := by
    by_cases hc : c = a
    · subst hc
      exact (h.backups c t' (by simpa [setRouting] using ht')).mono (drew_mono hfresh)
    · exact (h.backups c t' (by simpa [setRouting, hc] using ht')).mono (drew_mono hfresh)
  mail := hmail
  rows r hr := ⟨drew_mono hfresh _ _ (h.rows r hr).1, (h.rows r hr).2⟩
  kept c d k hrestored hk := by
    by_cases hold : s.owner k = some (c, d)
    · have hsame : (s.phones c).restored = false := by
        by_cases hc : c = a
        · subst hc; simpa [setRouting] using hrestored
        · simpa [setRouting, hc] using hrestored
      obtain ⟨e, he, hcontact, hsecret⟩ := h.kept c d k hsame hold
      by_cases hc : c = a
      · subst hc
        obtain ⟨e', he', hfirst, hsecond⟩ := hkept e (routedProfile_mem he)
        exact ⟨e', by simpa [setRouting] using he', hfirst.trans hcontact, hsecond.trans hsecret⟩
      · exact ⟨e, by simpa [setRouting, hc] using he, hcontact, hsecret⟩
    · obtain ⟨hpair, hk', htable⟩ := drew_new hk hold
      obtain ⟨rfl, rfl⟩ := Prod.mk.inj hpair
      obtain ⟨e', he', hfirst, hsecond⟩ := hkept (d, ⟨drawn, none⟩) (by rw [htable]; simp)
      refine ⟨e', by simpa [setRouting] using he', hfirst, hsecond.trans ?_⟩
      rw [hk']
      rcases routedProfile_cases (s.phones c).routing d drawn with ⟨r, hr, hp⟩ | ⟨-, hp⟩
      · rw [hp] at htable; simp at htable
      · rw [hp]

theorem invariant_initial (h : Initial s) : Invariant routingTag s where
  routing a e he := by rw [(h.phones a).1] at he; cases he
  backups a t ht := by rw [(h.phones a).2.1] at ht; cases ht
  mail m hm := by rw [h.mail] at hm; cases hm
  rows r hr := by rw [h.rows] at hr; cases hr
  kept a b k _ hk := by rw [h.owner] at hk; cases hk

theorem invariant_compose (h : Invariant routingTag s) (hfresh : s.owner drawn = none) (id : Nat) :
    Invariant routingTag (compose s id a b drawn) := by
  obtain ⟨howned, hsecret⟩ := routedProfile_owned (b := b) (h.routing a) hfresh
  refine invariant_profile h hfresh howned (fun e he => ⟨e, he, rfl, rfl⟩) ?_
  rw [List.forall_mem_cons]
  exact ⟨hsecret, fun m hm => drew_mono hfresh _ _ (h.mail m hm)⟩

theorem invariant_consume (h : Invariant routingTag s) (hm : m ∈ s.mail)
    (hfresh : s.owner drawn = none) : Invariant routingTag (consume s m drawn) := by
  obtain ⟨howned, -⟩ := routedProfile_owned (b := m.sender) (h.routing m.receiver) hfresh
  have hsecret := drew_mono (a := m.receiver) (b := m.sender) hfresh _ _ (h.mail m hm)
  exact invariant_profile h hfresh (setSendSecret_owned howned hsecret)
    (fun e he => setSendSecret_mem he) fun m' hm' => drew_mono hfresh _ _ (h.mail m' hm')

theorem invariant_post (h : Invariant routingTag s) :
    Invariant routingTag (post routingTag s m) := by
  unfold post
  split
  · exact h
  · next k hk =>
    split
    · exact h
    · refine ⟨h.routing, h.backups, h.mail, fun r hr => ?_, h.kept⟩
      rcases List.mem_append.mp hr with hr | hr
      · exact h.rows r hr
      · rw [List.mem_singleton.mp hr]
        obtain ⟨e, he, hsend⟩ := Option.bind_eq_some_iff.mp hk
        exact ⟨(h.routing m.sender _ (mem_of_lookup he)).2 k hsend, rfl⟩

/-- A phone with the same table, backups and history. -/
theorem invariant_phone {p : Phone} (h : Invariant routingTag s)
    (hrouting : Owned s.owner a p.routing) (hbackups : ∀ t ∈ p.backups, Owned s.owner a t)
    (hkept : p.restored = false → (s.phones a).restored = false ∧
      p.routing = (s.phones a).routing) :
    Invariant routingTag { s with phones := Function.update s.phones a p } where
  routing c := by
    by_cases hc : c = a
    · subst hc; simpa using hrouting
    · simpa [hc] using h.routing c
  backups c := by
    by_cases hc : c = a
    · subst hc; simpa using hbackups
    · simpa [hc] using h.backups c
  mail := h.mail
  rows := h.rows
  kept c d k hrestored hk := by
    by_cases hc : c = a
    · subst hc
      obtain ⟨hsame, htable⟩ := hkept (by simpa using hrestored)
      simpa [htable] using h.kept c d k hsame hk
    · simpa [hc] using h.kept c d k (by simpa [hc] using hrestored) hk

theorem invariant_next {ev : Event} (h : Invariant routingTag s) (he : Enabled s ev) :
    Invariant routingTag (next routingTag s ev) := by
  cases ev with
  | compose id a b drawn => exact invariant_compose h he id
  | post m => exact invariant_post h
  | consume m drawn => exact invariant_consume h he.1 he.2
  | remove id =>
    exact ⟨h.routing, h.backups, h.mail, fun r hr => h.rows r (List.mem_filter.mp hr).1, h.kept⟩
  | setClock a clock =>
    exact invariant_phone h (h.routing a) (h.backups a) fun hrestored => ⟨hrestored, rfl⟩
  | backup a =>
    refine invariant_phone h (h.routing a) ?_ fun hrestored => ⟨hrestored, rfl⟩
    rw [List.forall_mem_cons]
    exact ⟨h.routing a, h.backups a⟩
  | restore a t => exact invariant_phone h (h.backups a t he) (h.backups a) fun hr => nomatch hr

end Steps

section Asking

variable {routingTag : Secret → Int → String} {s : State} {p : Phone} {tag d : String} {r : Row}

theorem mem_puts : (tag, d) ∈ puts routingTag p ↔
    ∃ e ∈ p.routing, ∃ i : Nat, i < 722 ∧
      tag = routingTag e.2.receiveSecret (p.hour - ((i : Int) - 1)) ∧ d = e.1 := by
  simp only [puts, List.mem_flatMap, List.mem_map, List.mem_range, Prod.mk.injEq]
  refine exists_congr fun e => and_congr_right fun _ => ?_
  exact exists_congr fun i => and_congr_right fun _ => and_congr eq_comm eq_comm

/-- Whatever a phone has gone through, it takes the row for nobody else's. -/
theorem routingTags_sender (hinj : Function.Injective2 routingTag) (h : Invariant routingTag s)
    (hr : r ∈ s.rows) (hd : routingTags routingTag (s.phones r.mail.receiver) r.tag = some d) :
    d = r.mail.sender ∧ Within (s.phones r.mail.receiver) r.hour := by
  obtain ⟨howner, htag⟩ := h.rows r hr
  obtain ⟨e, he, i, hi, hsame, rfl⟩ := mem_puts.mp (List.mem_reverse.mp (mem_of_lookup hd))
  obtain ⟨hsecret, hhour⟩ := hinj (htag.symm.trans hsame)
  have hown := (h.routing _ e he).1
  rw [← hsecret, howner] at hown
  refine ⟨(Prod.mk.inj (Option.some.inj hown)).2.symm, ?_⟩
  unfold Within
  omega

/-- The receiver asks for the row, as its sender's, just while its hour is in the window. -/
theorem blind_row_asked_for (hinj : Function.Injective2 routingTag)
    (h : Reachable (system routingTag) s) (hr : r ∈ s.rows)
    (hrestored : (s.phones r.mail.receiver).restored = false) :
    routingTags routingTag (s.phones r.mail.receiver) r.tag =
      if (s.phones r.mail.receiver).hour - 720 ≤ r.hour ∧
        r.hour ≤ (s.phones r.mail.receiver).hour + 1 then some r.mail.sender else none := by
  have hinv : Invariant routingTag s :=
    reachable_invariant (fun _ hs => invariant_initial hs) (fun _ _ hs he => invariant_next hs he) h
  split
  · next hwithin =>
    obtain ⟨howner, htag⟩ := hinv.rows r hr
    obtain ⟨e, he, hcontact, hsecret⟩ := hinv.kept _ _ _ hrestored howner
    have hput : (r.tag, e.1) ∈ puts routingTag (s.phones r.mail.receiver) := by
      refine mem_puts.mpr
        ⟨e, he, ((s.phones r.mail.receiver).hour - r.hour + 1).toNat, by omega, ?_, rfl⟩
      rw [htag, hsecret]
      congr 1
      omega
    obtain ⟨d, hfound⟩ : ∃ d, routingTags routingTag (s.phones r.mail.receiver) r.tag = some d :=
      Option.isSome_iff_exists.mp
        (List.lookup_isSome_iff.mpr ⟨_, List.mem_reverse.mpr hput, beq_self_eq_true _⟩)
    rw [hfound, (routingTags_sender hinj hinv hr hfound).1]
  · next hout =>
    cases hd : routingTags routingTag (s.phones r.mail.receiver) r.tag with
    | none => rfl
    | some d => exact absurd (routingTags_sender hinj hinv hr hd).2 hout

/-- A digest that counts. -/
def tally (k : Secret) (hour : Int) : String :=
  String.ofList (List.replicate k.toNat 'k' ++ List.replicate hour.toNat 'h' ++
    List.replicate (-hour).toNat 'n')

theorem tally_injective : Function.Injective2 tally := by
  intro k k' hour hour' h
  have hlist := String.ofList_injective h
  have hcount (c : Char) := congrArg (List.count c) hlist
  simp only [List.count_append, List.count_replicate] at hcount
  have hk := hcount 'k'
  have hh := hcount 'h'
  have hn := hcount 'n'
  simp only [beq_iff_eq, Char.reduceEq, if_true, if_false, Nat.add_zero, Nat.zero_add] at hk hh hn
  exact ⟨BitVec.eq_of_toNat_eq hk, by omega⟩

def unmet : State :=
  { phones := fun _ => ⟨[], 0, [], false⟩
    mail := []
    rows := []
    owner := fun _ => none }

def greeting : Mail := ⟨0, "alice", "bob", 1⟩

def reply : Mail := ⟨1, "bob", "alice", 2⟩

/-- Bob answers Alice thirty days before she looks. -/
def answered : List Event :=
  [.compose 0 "alice" "bob" 1, .consume greeting 2, .compose 1 "bob" "alice" 3, .post reply,
    .setClock "alice" 2592000000]

theorem answered_reachable : Reachable (system tally) ((system tally).replay unmet answered) := by
  have hinitial : Initial unmet := ⟨fun _ => ⟨rfl, rfl, rfl⟩, rfl, rfl, fun _ => rfl⟩
  refine valid_trace_reachable (reachable_initial hinitial) ?_
  simp only [answered, System.Valid, system]
  exact ⟨rfl, ⟨.head _, rfl⟩, rfl, .head _, trivial, trivial⟩

theorem reply_asked_for :
    routingTags tally (((system tally).replay unmet answered).phones "alice") (tally 1 0) =
      some "bob" :=
  blind_row_asked_for tally_injective answered_reachable (r := ⟨reply, tally 1 0, 1, 0⟩) (.head _)
    rfl

end Asking

end BlindRouting
