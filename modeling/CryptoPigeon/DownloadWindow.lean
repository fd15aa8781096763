import CryptoPigeon.LoginSignature
import Mathlib.Data.List.Nodup

/-! # Which attachment downloads are attempted

Each pass takes eight rows of `attachment_downloads` in the order of the table; a row leaves when
its file is complete. A download over Tor first starts a job that fetches the chunks of its blob
and finds them stored in a later pass. New rows come after the others. -/
namespace DownloadWindow

open LoginSignature (Client)

/-- What the job of a blob has come to: the passes it still takes. -/
inductive Fetch where
  | idle
  | running (left : Nat)
  | cached
  deriving DecidableEq, Repr

/-- An attempt starts a job, finds one running or reads the stored chunks. -/
def Fetch.attempted (lasts : Nat) : Fetch → Option Fetch
  | .cached => none
  | .running n => some (.running n)
  | .idle => some (.running lasts)

/-- A job goes on between two passes; one that cannot have its chunks ends without them. -/
def Fetch.progress (available : Bool) : Fetch → Fetch
  | .cached => .cached
  | .running (n + 1) => .running n
  | .running 0 => if available then .cached else .idle
  | .idle => .idle

/-- `valid` tells whether the stored manifest passes the validation. -/
structure Download where
  attachmentId : String
  disappearAt : Option Nat
  valid : Bool
  fetch : Fetch
  deriving DecidableEq, Repr

/-- How the chunks are had in these passes: whether over Tor or from the relay, whether they are
there, and how long a job takes. -/
structure Network where
  viaTor : Bool
  available : String → Bool
  lasts : String → Nat

variable (client : Client) (net : Network) (now : Nat)

/-- The desktop joins the messages that have not disappeared; Android reads the bare table. -/
def shown (d : Download) : Bool :=
  match client with
  | .desktop => d.disappearAt.all fun t => decide (now < t)
  | .android => true

/-- What one attempt leaves of a row. -/
def attempt (d : Download) : Option Download :=
  if !d.valid then some d
  else if net.viaTor then
    (d.fetch.attempted (net.lasts d.attachmentId)).map fun f => { d with fetch := f }
  else if net.available d.attachmentId then none
  else some d

/-- The attempts on the first `limit` rows of the query. -/
def passFrom : Nat → List Download → List Download
  | _, [] => []
  | 0, l => l
  | limit + 1, d :: l =>
    if shown client now d then (attempt net d).toList ++ passFrom limit l
    else d :: passFrom (limit + 1) l

/-- The rows a pass attempts. -/
def attempted (table : List Download) : List Download :=
  (table.filter (shown client now)).take 8

def progress (d : Download) : Download :=
  { d with fetch := d.fetch.progress (net.available d.attachmentId) }

/-- `retryAttachmentDownloads` or `downloadPending`, and the time until the next one. -/
def pass (table : List Download) : List Download :=
  (passFrom client net now 8 table).map (progress net)

/-- Consecutive passes, each followed by the rows that have come in. -/
def run (arrivals : Nat → List Download) (table : List Download) : Nat → List Download
  | 0 => table
  | n + 1 => pass client net now (run arrivals table n) ++ arrivals n

/-- No attempt on the row ever succeeds. -/
def hopeless (d : Download) : Bool :=
  !d.valid || !(net.available d.attachmentId) && (!net.viaTor || d.fetch != .cached)

/-- The rows that stay in the way, of those the query gives. -/
def blocking (l : List Download) : Nat :=
  l.countP fun d => shown client now d && hopeless net d

/-- As many passes as the row takes at most, from its first attempt on. -/
def attempts (d : Download) : Nat :=
  if net.viaTor then
    match d.fetch with
    | .cached => 1
    | .running n => n + 2
    | .idle => net.lasts d.attachmentId + 3
  else 1

def weight (d : Download) : Nat :=
  if shown client now d && !hopeless net d then attempts net d else 0

/-- The attempts on all rows that are not hopeless. -/
def work (l : List Download) : Nat := (l.map (weight client net now)).sum

section Rows

variable {client net now} {l : List Download} {d e : Download}

theorem attempt_same (h : attempt net d = some e) :
    e.attachmentId = d.attachmentId ∧ e.disappearAt = d.disappearAt ∧ e.valid = d.valid := by
  unfold attempt at h
  split at h
  · cases h
    exact ⟨rfl, rfl, rfl⟩
  · split at h
    · obtain ⟨f, -, rfl⟩ := Option.map_eq_some_iff.mp h
      exact ⟨rfl, rfl, rfl⟩
    · split at h
      · cases h
      · cases h
        exact ⟨rfl, rfl, rfl⟩

theorem shown_congr (h : e.disappearAt = d.disappearAt) :
    shown client now e = shown client now d := by
  unfold shown
  rw [h]

theorem hopeless_progress (d : Download) : hopeless net (progress net d) = hopeless net d := by
  obtain ⟨id, t, valid, fetch⟩ := d
  cases hav : net.available id with
  | true => simp [hopeless, progress, hav]
  | false =>
    have hcached : (fetch.progress false != .cached) = (fetch != .cached) := by
      cases fetch with
      | cached => rfl
      | idle => rfl
      | running n => cases n <;> rfl
    simp only [hopeless, progress, hav, hcached]

theorem hopeless_attempt (h : attempt net d = some e) : hopeless net e = hopeless net d := by
  obtain ⟨id, t, valid, fetch⟩ := d
  unfold attempt at h
  split at h
  · cases h
    rfl
  · split at h
    · cases fetch with
      | cached => cases h
      | idle => cases h; rfl
      | running n => cases h; rfl
    · split at h
      · cases h
      · cases h
        rfl

/-- A hopeless row stays. -/
theorem attempt_of_hopeless (h : hopeless net d = true) : ∃ e, attempt net d = some e := by
  unfold attempt
  by_cases hv : d.valid = true
  · obtain ⟨hav, hway⟩ : net.available d.attachmentId = false ∧
        (net.viaTor = false ∨ d.fetch ≠ .cached) := by
      simpa [hopeless, hv] using h
    rw [if_neg (by simp [hv])]
    by_cases ht : net.viaTor = true
    · rw [if_pos ht]
      have hfetch : d.fetch ≠ .cached := hway.resolve_left (by simp [ht])
      cases hf : d.fetch with
      | cached => exact absurd hf hfetch
      | idle => exact ⟨_, rfl⟩
      | running n => exact ⟨_, rfl⟩
    · rw [if_neg ht, if_neg (by simp [hav])]
      exact ⟨d, rfl⟩
  · rw [if_pos (by simp [hv])]
    exact ⟨d, rfl⟩

/-- Time does not set a download back. -/
theorem attempts_progress (h : hopeless net d = false) :
    attempts net (progress net d) ≤ attempts net d := by
  obtain ⟨id, t, valid, fetch⟩ := d
  unfold attempts
  split
  · next htor =>
    cases fetch with
    | cached => exact Nat.le_refl _
    | idle => exact Nat.le_refl _
    | running n =>
      have hav : valid = true ∧ net.available id = true := by simpa [hopeless, htor] using h
      cases n with
      | zero => simp [progress, Fetch.progress, hav.2]
      | succ n => simp [progress, Fetch.progress]
  · exact Nat.le_refl _

/-- An attempt that may succeed comes nearer to the end. -/
theorem attempts_attempt (h : hopeless net d = false) (ha : attempt net d = some e) :
    attempts net (progress net e) < attempts net d := by
  obtain ⟨id, t, valid, fetch⟩ := d
  have hvalid : valid = true := by
    cases valid with
    | true => rfl
    | false => simp [hopeless] at h
  subst hvalid
  cases htor : net.viaTor with
  | false =>
    have hav : net.available id = true := by simpa [hopeless, htor] using h
    simp [attempt, htor, hav] at ha
  | true =>
    simp only [attempt, htor, Bool.not_true, Bool.false_eq_true, if_false, if_true] at ha
    cases fetch with
    | cached => cases ha
    | idle =>
      have hav : net.available id = true := by simpa [hopeless, htor] using h
      cases ha
      cases hl : net.lasts id with
      | zero => simp [attempts, progress, Fetch.progress, htor, hav, hl]
      | succ k => simp [attempts, progress, Fetch.progress, htor, hl]
    | running n =>
      have hav : net.available id = true := by simpa [hopeless, htor] using h
      cases ha
      cases n with
      | zero => simp [attempts, progress, Fetch.progress, htor, hav]
      | succ k => simp [attempts, progress, Fetch.progress, htor]

end Rows

section Passes

variable {client net now} {before after : List Download} {d e : Download}

/-- One pass and what happens until the next one, on the rows before the limit is reached. -/
def step (client : Client) (net : Network) (now limit : Nat) (l : List Download) :
    List Download :=
  (passFrom client net now limit l).map (progress net)

theorem passFrom_append {limit : Nat} (h : limit ≤ (before.filter (shown client now)).length) :
    passFrom client net now limit (before ++ after) =
      passFrom client net now limit before ++ after := by
  induction before generalizing limit with
  | nil =>
    have hzero : limit = 0 := Nat.le_zero.mp h
    subst hzero
    cases after <;> rfl
  | cons d l ih =>
    cases limit with
    | zero => rfl
    | succ n =>
      rw [List.cons_append, passFrom, passFrom]
      cases hd : shown client now d with
      | true =>
        rw [List.filter_cons, hd, if_pos rfl, List.length_cons] at h
        rw [if_pos rfl, if_pos rfl, ih (by omega), List.append_assoc]
      | false =>
        rw [List.filter_cons, hd, if_neg Bool.false_ne_true] at h
        rw [if_neg Bool.false_ne_true, if_neg Bool.false_ne_true, ih h, List.cons_append]

theorem shown_progress (d : Download) :
    shown client now (progress net d) = shown client now d := shown_congr rfl

theorem blocking_cons (d : Download) (l : List Download) :
    blocking client net now (d :: l) = blocking client net now l +
      if shown client now d && hopeless net d then 1 else 0 := List.countP_cons

theorem work_cons (d : Download) (l : List Download) :
    work client net now (d :: l) = weight client net now d + work client net now l :=
  List.sum_cons

theorem blocking_progress (l : List Download) :
    blocking client net now (l.map (progress net)) = blocking client net now l := by
  unfold blocking
  rw [List.countP_map]
  exact List.countP_congr fun d _ => by
    simp only [Function.comp_apply, shown_progress, hopeless_progress]

theorem weight_progress (d : Download) :
    weight client net now (progress net d) ≤ weight client net now d := by
  unfold weight
  rw [shown_progress, hopeless_progress]
  split
  · next h =>
    simp only [Bool.and_eq_true, Bool.not_eq_true'] at h
    exact attempts_progress h.2
  · exact Nat.le_refl _

theorem work_progress (l : List Download) :
    work client net now (l.map (progress net)) ≤ work client net now l := by
  induction l with
  | nil => exact Nat.le_refl _
  | cons d l ih =>
    rw [List.map_cons, work_cons, work_cons]
    exact Nat.add_le_add (weight_progress d) ih

theorem step_hidden (h : shown client now d = false) (limit : Nat) (l : List Download) :
    step client net now (limit + 1) (d :: l) =
      progress net d :: step client net now (limit + 1) l := by
  unfold step
  rw [passFrom, h, if_neg Bool.false_ne_true, List.map_cons]

theorem step_gone (h : shown client now d = true) (ha : attempt net d = none) (limit : Nat)
    (l : List Download) :
    step client net now (limit + 1) (d :: l) = step client net now limit l := by
  unfold step
  rw [passFrom, h, if_pos rfl, ha]
  rfl

theorem step_stays (h : shown client now d = true) (ha : attempt net d = some e) (limit : Nat)
    (l : List Download) :
    step client net now (limit + 1) (d :: l) =
      progress net e :: step client net now limit l := by
  unfold step
  rw [passFrom, h, if_pos rfl, ha]
  rfl

/-- The rows in the way stay in the way. -/
theorem blocking_step (limit : Nat) (l : List Download) :
    blocking client net now (step client net now limit l) = blocking client net now l := by
  induction l generalizing limit with
  | nil => cases limit <;> rfl
  | cons d l ih =>
    cases limit with
    | zero => exact blocking_progress (d :: l)
    | succ n =>
      cases hd : shown client now d with
      | false => rw [step_hidden hd, blocking_cons, blocking_cons, ih, shown_progress,
          hopeless_progress]
      | true =>
        cases ha : attempt net d with
        | none =>
          have hno : hopeless net d = false := by
            by_contra h
            obtain ⟨e, he⟩ := attempt_of_hopeless (Bool.not_eq_false _ ▸ h)
            rw [ha] at he
            cases he
          rw [step_gone hd ha, blocking_cons, ih, hno, Bool.and_false,
            if_neg Bool.false_ne_true, Nat.add_zero]
        | some e =>
          have hsame := (attempt_same ha).2.1
          rw [step_stays hd ha, blocking_cons, blocking_cons, ih, shown_progress,
            hopeless_progress, hopeless_attempt ha, shown_congr hsame]

theorem attempts_pos (d : Download) : 0 < attempts net d := by
  unfold attempts
  split
  · split <;> omega
  · exact Nat.one_pos

theorem weight_hopeless (h : hopeless net d = true) : weight client net now d = 0 := by
  unfold weight
  rw [h, Bool.not_true, Bool.and_false, if_neg Bool.false_ne_true]

theorem weight_working (hd : shown client now d = true) (h : hopeless net d = false) :
    weight client net now d = attempts net d := by
  unfold weight
  rw [hd, h, Bool.not_false, Bool.and_true, if_pos rfl]

/-- Every attempt on a row that is not in the way gets nearer to having it out of the way. -/
theorem work_step {limit : Nat} {l : List Download}
    (h : limit ≤ (l.filter (shown client now)).length) :
    work client net now (step client net now limit l) + limit ≤
      work client net now l + blocking client net now l := by
  induction l generalizing limit with
  | nil =>
    have hzero : limit = 0 := Nat.le_zero.mp h
    subst hzero
    exact Nat.le_refl _
  | cons d l ih =>
    cases limit with
    | zero => exact (work_progress (d :: l)).trans (Nat.le_add_right _ _)
    | succ n =>
      rw [List.filter_cons] at h
      cases hd : shown client now d with
      | false =>
        rw [hd, if_neg Bool.false_ne_true] at h
        have hrest := ih h
        have hweight : weight client net now (progress net d) ≤ weight client net now d :=
          weight_progress d
        rw [step_hidden hd, work_cons, work_cons, blocking_cons]
        omega
      | true =>
        rw [hd, if_pos rfl, List.length_cons] at h
        have hrest := ih (Nat.le_of_succ_le_succ h)
        cases hh : hopeless net d with
        | true =>
          obtain ⟨e, ha⟩ := attempt_of_hopeless hh
          have hzero : weight client net now (progress net e) = 0 :=
            weight_hopeless ((hopeless_progress e).trans ((hopeless_attempt ha).trans hh))
          rw [step_stays hd ha, work_cons, work_cons, blocking_cons, hd, hh, Bool.and_true,
            if_pos rfl, hzero]
          omega
        | false =>
          have hweight : weight client net now d = attempts net d := weight_working hd hh
          rw [work_cons, blocking_cons, hd, hh, Bool.and_false, if_neg Bool.false_ne_true, hweight]
          cases ha : attempt net d with
          | none =>
            have hpos : 0 < attempts net d := attempts_pos d
            rw [step_gone hd ha]
            omega
          | some e =>
            have hnear := attempts_attempt hh ha
            have hshown : shown client now (progress net e) = true := by
              rw [shown_progress, shown_congr (attempt_same ha).2.1, hd]
            have hworking : hopeless net (progress net e) = false := by
              rw [hopeless_progress, hopeless_attempt ha, hh]
            rw [step_stays hd ha, work_cons, weight_working hshown hworking]
            omega

end Passes

section Starvation

variable {client net now} {arrivals : Nat → List Download} {table before after : List Download}
  {e : Download}

/-- The row is among those that the pass of this number attempts. -/
def AttemptedAt (client : Client) (net : Network) (now : Nat) (arrivals : Nat → List Download)
    (table : List Download) (id : String) (n : Nat) : Prop :=
  ∃ d ∈ attempted client now (run client net now arrivals table n), d.attachmentId = id

theorem run_succ (n : Nat) : run client net now arrivals table (n + 1) =
    run client net now (fun k => arrivals (k + 1))
      (pass client net now table ++ arrivals 0) n := by
  induction n with
  | zero => rfl
  | succ n ih =>
    rw [run, ih]
    rfl

theorem pass_behind (h : 8 ≤ (before.filter (shown client now)).length) :
    pass client net now (before ++ e :: after) =
      step client net now 8 before ++ progress net e :: after.map (progress net) := by
  unfold pass step
  rw [passFrom_append h, List.map_append, List.map_cons]

theorem blocking_le (l : List Download) :
    blocking client net now l ≤ (l.filter (shown client now)).length := by
  rw [← List.countP_eq_length_filter]
  exact List.countP_mono_left fun d _ h => by
    simp only [Bool.and_eq_true] at h
    exact h.1

theorem attempted_of_few (he : shown client now e = true)
    (h : (before.filter (shown client now)).length < 8) :
    e ∈ attempted client now (before ++ e :: after) := by
  obtain ⟨k, hk⟩ : ∃ k, 8 - (before.filter (shown client now)).length = k + 1 :=
    ⟨7 - (before.filter (shown client now)).length, by omega⟩
  unfold attempted
  rw [List.filter_append, List.filter_cons, he, if_pos rfl, List.take_append, hk,
    List.take_succ_cons]
  exact List.mem_append_right _ List.mem_cons_self

theorem attempted_before (h : 8 ≤ (before.filter (shown client now)).length) {d : Download}
    (hd : d ∈ attempted client now (before ++ e :: after)) : d ∈ before := by
  unfold attempted at hd
  rw [List.filter_append, List.take_append_of_le_length h] at hd
  exact List.mem_of_mem_filter (List.mem_of_mem_take hd)

theorem mem_passFrom {limit : Nat} {l : List Download} {d : Download}
    (h : d ∈ passFrom client net now limit l) :
    ∃ c ∈ l, d.attachmentId = c.attachmentId := by
  induction l generalizing limit with
  | nil => cases limit <;> cases h
  | cons c l ih =>
    cases limit with
    | zero => exact ⟨d, h, rfl⟩
    | succ n =>
      rw [passFrom] at h
      split at h
      · rcases List.mem_append.mp h with h | h
        · exact ⟨c, List.mem_cons_self, (attempt_same (Option.mem_toList.mp h)).1⟩
        · obtain ⟨c', hc, hid⟩ := ih h
          exact ⟨c', List.mem_cons_of_mem c hc, hid⟩
      · rcases List.mem_cons.mp h with rfl | h
        · exact ⟨d, List.mem_cons_self, rfl⟩
        · obtain ⟨c', hc, hid⟩ := ih h
          exact ⟨c', List.mem_cons_of_mem c hc, hid⟩

theorem mem_step {limit : Nat} {l : List Download} {d : Download}
    (h : d ∈ step client net now limit l) : ∃ c ∈ l, d.attachmentId = c.attachmentId := by
  obtain ⟨c, hc, rfl⟩ := List.mem_map.mp h
  obtain ⟨b, hb, hid⟩ := mem_passFrom hc
  exact ⟨b, hb, hid⟩

/-- Behind eight rows on which every attempt fails, a row is never attempted. -/
theorem never_attempted (hid : ∀ d ∈ before, d.attachmentId ≠ e.attachmentId)
    (h : 8 ≤ blocking client net now before) (n : Nat) :
    ¬AttemptedAt client net now arrivals (before ++ e :: after) e.attachmentId n := by
  have hfull : 8 ≤ (before.filter (shown client now)).length := h.trans (blocking_le before)
  induction n generalizing arrivals before after e with
  | zero =>
    rintro ⟨d, hd, heq⟩
    exact hid d (attempted_before hfull hd) heq
  | succ n ih =>
    have hstep : blocking client net now (step client net now 8 before) =
        blocking client net now before := blocking_step 8 before
    unfold AttemptedAt
    rw [run_succ, pass_behind hfull, List.append_assoc, List.cons_append]
    refine ih (e := progress net e) (fun d hd => ?_) (hstep ▸ h)
      ((hstep ▸ h).trans (blocking_le _))
    obtain ⟨c, hc, heq⟩ := mem_step hd
    exact heq ▸ hid c hc

/-- Behind fewer, it is attempted as soon as the others are done. -/
theorem attempted_in_time (he : shown client now e = true)
    (h : blocking client net now before < 8) :
    ∃ n ≤ work client net now before,
      AttemptedAt client net now arrivals (before ++ e :: after) e.attachmentId n := by
  induction hw : work client net now before using Nat.strong_induction_on
    generalizing arrivals before after e with
  | _ w ih =>
    subst hw
    by_cases hfew : (before.filter (shown client now)).length < 8
    · exact ⟨0, Nat.zero_le _, e, attempted_of_few he hfew, rfl⟩
    · have hfull : 8 ≤ (before.filter (shown client now)).length := Nat.not_lt.mp hfew
      have hless : work client net now (step client net now 8 before) + 8 ≤
          work client net now before + blocking client net now before := work_step hfull
      have hstep : blocking client net now (step client net now 8 before) =
          blocking client net now before := blocking_step 8 before
      have hnext : ∃ n ≤ work client net now (step client net now 8 before),
          AttemptedAt client net now (fun k => arrivals (k + 1))
            (step client net now 8 before ++
              progress net e :: (after.map (progress net) ++ arrivals 0))
            (progress net e).attachmentId n :=
        ih _ (by omega) ((shown_progress e).trans he) (hstep ▸ h) rfl
      obtain ⟨n, hn, hat⟩ := hnext
      refine ⟨n + 1, by omega, ?_⟩
      unfold AttemptedAt at hat ⊢
      rw [run_succ, pass_behind hfull, List.append_assoc, List.cons_append]
      exact hat

end Starvation

def offlinePeer (i : Nat) : Download := ⟨toString i, none, true, .idle⟩

def waitingFile : Download := ⟨"8", none, true, .idle⟩

/-- Everything but one file is with peers that stay offline. -/
def oneOnline : Network := ⟨true, fun id => id == "8", fun _ => 0⟩

def eightOffline : List Download := (List.range 8).map offlinePeer

end DownloadWindow
