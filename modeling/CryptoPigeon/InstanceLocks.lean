import CryptoPigeon.BackupRecords

/-! # Who moves a device to another instance

The proof of a device covers the hash of the instance and nothing else: not the token, the
version, the writer's key or the claim it comes with. Every backup that carries one shows
it, and whoever has seen it can put it into an upload of their own. -/
namespace InstanceLocks

open TransitionSystem VaultBackupRelay BackupRecords

/-- `seen` are the bodies the device's client has sent; `lock` and `sessions` are what its
own uploads and logins made of its lock and its sessions. -/
structure State where
  relay : Relay
  seen : List BackupBody
  lock : Option String
  sessions : List Session

inductive Event where
  | own (b : BackupBody) (pathToken : Option LookupToken) (suppliedDigest : Option String)
  | foreign (b : BackupBody) (pathToken : Option LookupToken) (suppliedDigest : Option String)
  | delete (token : LookupToken) (version : Nat)
  | login (x : Session)

def sessionsOf (d : DeviceId) (s : Relay) : List Session := s.sessions.filter fun x => x.deviceId == d

/-- Without the device's key, a proof that verifies is one that was seen. -/
def Buildable (P : Primitives) (d : DeviceId) (s : State) (b : BackupBody) : Prop :=
  ∀ hash signature, b.deviceId = some d → b.instanceHash = some hash →
    b.deviceSignature = some signature → deviceVerified P s.relay d hash signature = true →
    ∃ old ∈ s.seen, old.deviceId = some d ∧ old.instanceHash = some hash ∧
      old.deviceSignature = some signature

def Enabled (P : Primitives) (d : DeviceId) (s : State) : Event → Prop
  | .foreign b _ _ => Buildable P d s b
  | _ => True

/-- What the device's own client did is written down with it. -/
def settle (d : DeviceId) (r : Relay) (s : State) : State :=
  { s with relay := r, lock := r.locks d, sessions := sessionsOf d r }

def next (P : Primitives) (d : DeviceId) (s : State) : Event → State
  | .own b pathToken suppliedDigest =>
    { settle d (putBackup P s.relay b pathToken suppliedDigest).2 s with seen := b :: s.seen }
  | .foreign b pathToken suppliedDigest =>
    { s with relay := (putBackup P s.relay b pathToken suppliedDigest).2 }
  | .delete token version => { s with relay := deleteRow token version s.relay }
  | .login x =>
    { s with
      relay := { s.relay with sessions := x :: s.relay.sessions }
      sessions := if x.deviceId == d then x :: s.sessions else s.sessions }

def Initial (d : DeviceId) (s : State) : Prop :=
  s.seen = [] ∧ s.lock = s.relay.locks d ∧ s.sessions = sessionsOf d s.relay

def system (P : Primitives) (d : DeviceId) : System State Event := ⟨Initial d, Enabled P d, next P d⟩

/-- The device's lock and its sessions are as they were. -/
def Untouched (d : DeviceId) (s t : Relay) : Prop :=
  t.locks d = s.locks d ∧ sessionsOf d t = sessionsOf d s

/-- An upload that is refused, that proves another device or none, or that only repeats
what the device's lock is and ends no session. -/
def Harmless (P : Primitives) (d : DeviceId) (s : Relay) (b : BackupBody)
    (pathToken : Option LookupToken) (suppliedDigest : Option String) : Prop :=
  ∀ hash, screenPut P b pathToken suppliedDigest = none →
    conflicts P (s.backups b.lookupToken) b = false → checkDevice P s b = .proved d hash →
    (s.locks d = some hash ∨ (replayed P (s.backups b.lookupToken) b = true ∧ b.claim = false)) ∧
      (b.claim = true → ∀ x ∈ s.sessions, x.deviceId ≠ d)

section Uploads

variable {P : Primitives} {d : DeviceId} {s : Relay} {b : BackupBody} {pathToken : Option LookupToken}
variable {suppliedDigest : Option String}

theorem put_proved {device : DeviceId} {hash : String}
    (hscreen : screenPut P b pathToken suppliedDigest = none)
    (hc : conflicts P (s.backups b.lookupToken) b = false)
    (hproved : checkDevice P s b = .proved device hash) :
    putBackup P s b pathToken suppliedDigest =
      finishPut P (takeLock s b (replayed P (s.backups b.lookupToken) b) device hash) b
        (s.backups b.lookupToken) := by
  unfold putBackup
  rw [hscreen]
  dsimp only
  rw [if_neg (by rw [hc]; exact nofun), hproved]

theorem sessionsOf_ended {device : DeviceId} :
    (s.sessions.filter fun x => x.deviceId != device).filter (fun x => x.deviceId == d) =
      if d = device then [] else sessionsOf d s := by
  unfold sessionsOf
  rw [List.filter_filter]
  split
  · next heq =>
    refine List.filter_eq_nil_iff.mpr fun x _ hx => ?_
    simp only [heq, Bool.and_eq_true, beq_iff_eq, bne_iff_ne] at hx
    exact hx.2 hx.1
  · next hne =>
    refine List.filter_congr fun x _ => ?_
    by_cases hx : x.deviceId = d
    · simp [hx, hne]
    · simp [hx]

theorem takeLock_other {device : DeviceId} {hash : String} {replay : Bool} (hne : d ≠ device) :
    Untouched d s (takeLock s b replay device hash) := by
  refine ⟨?_, ?_⟩
  · rw [takeLock_locks]
    split
    · exact Function.update_of_ne hne ..
    · rfl
  · unfold sessionsOf
    rw [takeLock_sessions]
    split
    · rw [sessionsOf_ended, if_neg hne]
      rfl
    · rfl

theorem takeLock_untouched {hash : String} {replay : Bool} :
    Untouched d s (takeLock s b replay d hash) ↔
      (s.locks d = some hash ∨ (replay = true ∧ b.claim = false)) ∧
        (b.claim = true → ∀ x ∈ s.sessions, x.deviceId ≠ d) := by
  have hsessions : sessionsOf d (takeLock s b replay d hash) =
      if b.claim then [] else sessionsOf d s := by
    unfold sessionsOf
    rw [takeLock_sessions]
    split
    · rw [sessionsOf_ended, if_pos rfl]
    · rfl
  have hnone : sessionsOf d s = [] ↔ ∀ x ∈ s.sessions, x.deviceId ≠ d := by
    unfold sessionsOf
    simp [List.filter_eq_nil_iff]
  unfold Untouched
  rw [hsessions, takeLock_locks]
  refine and_congr ?_ ?_
  · cases replay <;> cases b.claim <;> simp [eq_comm]
  · cases b.claim with
    | false => simp
    | true => simp only [if_true, true_implies, ← hnone, eq_comm]

theorem Untouched.finish {t : Relay} (old : Option BackupRow) :
    Untouched d s (finishPut P t b old).2 ↔ Untouched d s t := by
  unfold Untouched sessionsOf
  rw [finishPut_locks, finishPut_sessions]

/-- What an upload does to a device, whoever sends it. -/
theorem put_untouched_iff : Untouched d s (putBackup P s b pathToken suppliedDigest).2 ↔
    Harmless P d s b pathToken suppliedDigest := by
  have hrefl : Untouched d s s := ⟨rfl, rfl⟩
  by_cases hproved : ∃ hash, screenPut P b pathToken suppliedDigest = none ∧
      conflicts P (s.backups b.lookupToken) b = false ∧ checkDevice P s b = .proved d hash
  · obtain ⟨hash, hscreen, hc, hdevice⟩ := hproved
    rw [put_proved hscreen hc hdevice, Untouched.finish, takeLock_untouched]
    refine ⟨fun h hash' _ _ hdevice' => ?_, fun h => h hash hscreen hc hdevice⟩
    cases hdevice.symm.trans hdevice'
    exact h
  · refine iff_of_true ?_ fun hash hscreen hc hdevice => absurd ⟨hash, hscreen, hc, hdevice⟩ hproved
    rcases putBackup_cases P s b pathToken suppliedDigest with
      ⟨reply, -, he⟩ | ⟨hscreen, hc, ⟨-, he⟩ | ⟨device, hash, hdevice, he⟩⟩
    · rw [he]
      exact hrefl
    · rw [he, Untouched.finish]
      exact hrefl
    · rw [he, Untouched.finish]
      refine takeLock_other fun heq => hproved ⟨hash, hscreen, hc, ?_⟩
      rw [heq]
      exact hdevice

end Uploads

section Runs

variable {P : Primitives} {d : DeviceId} {s : State}

/-- The uploads of others are all harmless. -/
def Harmlessly (P : Primitives) (d : DeviceId) (s : State) : Event → Prop
  | .foreign b pathToken suppliedDigest => Harmless P d s.relay b pathToken suppliedDigest
  | _ => True

/-- The device is where its own client put it. -/
def Kept (d : DeviceId) (s : State) : Prop :=
  s.relay.locks d = s.lock ∧ sessionsOf d s.relay = s.sessions

theorem deleteRow_untouched (token : LookupToken) (version : Nat) (r : Relay) :
    Untouched d r (deleteRow token version r) := by
  unfold deleteRow
  split
  · exact ⟨rfl, rfl⟩
  · split <;> exact ⟨rfl, rfl⟩

theorem step_kept (s : State) (e : Event) (h : Kept d s)
    (he : ((system P d).Within (Harmlessly P d)).Enabled s e) : Kept d (next P d s e) := by
  cases e with
  | own b pathToken suppliedDigest => exact ⟨rfl, rfl⟩
  | foreign b pathToken suppliedDigest =>
    obtain ⟨hlock, hsessions⟩ := put_untouched_iff.mpr he.2
    exact ⟨hlock.trans h.1, hsessions.trans h.2⟩
  | delete token version =>
    obtain ⟨hlock, hsessions⟩ := deleteRow_untouched (d := d) token version s.relay
    exact ⟨hlock.trans h.1, hsessions.trans h.2⟩
  | login x =>
    refine ⟨h.1, ?_⟩
    change (x :: s.relay.sessions).filter _ = if x.deviceId == d then x :: s.sessions else s.sessions
    rw [List.filter_cons, show s.relay.sessions.filter (fun x => x.deviceId == d) = s.sessions from h.2]

theorem run_kept (h : Reachable ((system P d).Within (Harmlessly P d)) s) : Kept d s :=
  reachable_invariant (M := (system P d).Within (Harmlessly P d)) (I := Kept d)
    (fun _ hi => ⟨hi.2.1.symm, hi.2.2.symm⟩) step_kept h

end Runs

/-- An upload built without the device's key leaves the device alone exactly if it is
harmless; in a run whose foreign uploads all are, only the device's own client moves it. -/
theorem foreign_untouched_iff (P : Primitives) (d : DeviceId) :
    (∀ s b pathToken suppliedDigest, Reachable (system P d) s → Buildable P d s b →
      (Untouched d s.relay (putBackup P s.relay b pathToken suppliedDigest).2 ↔
        Harmless P d s.relay b pathToken suppliedDigest)) ∧
    (∀ s, Reachable ((system P d).Within (Harmlessly P d)) s → Kept d s) :=
  ⟨fun _ _ _ _ _ _ => put_untouched_iff, fun _ h => run_kept h⟩

/-- The client of d1 claims its instance h1, and later h2. -/
def moving (version : Nat) (hash : String) : BackupBody :=
  ⟨"t1", version, [], List.replicate 16 0, "", [], List.replicate 44 0, "writer", some "d1", some hash,
    some ("device " ++ hash), true⟩

/-- A backup of someone else, with the first proof of d1. -/
def recombined : BackupBody :=
  ⟨"t2", 1, [], List.replicate 16 0, "", [], List.replicate 44 1, "writer", some "d1", some "h1",
    some "device h1", true⟩

def moved : State :=
  (system toy "d1").replay ⟨beforeClaim, [], none, []⟩
    [.own (moving 1 "h1") none none, .own (moving 2 "h2") none none, .login ⟨"s1", "d1", 100⟩]

theorem moved_reachable : Reachable (system toy "d1") moved :=
  valid_trace_reachable (reachable_initial ⟨rfl, rfl, rfl⟩) ⟨trivial, trivial, trivial, trivial⟩

theorem recombined_buildable : Buildable toy "d1" moved recombined := by
  intro hash signature _ hhash hsignature _
  cases hhash
  cases hsignature
  exact ⟨moving 1 "h1", List.mem_cons_of_mem _ (List.mem_singleton_self _), rfl, rfl, rfl⟩

/-- It moves the device back and ends its session. -/
theorem recombined_moves_back : Reachable (system toy "d1") moved ∧ Buildable toy "d1" moved recombined ∧
    moved.relay.locks "d1" = some "h2" ∧ moved.relay.sessions = [⟨"s1", "d1", 100⟩] ∧
    (putBackup toy moved.relay recombined none none).2.locks "d1" = some "h1" ∧
    (putBackup toy moved.relay recombined none none).2.sessions = [] :=
  ⟨moved_reachable, recombined_buildable, by decide +kernel, by decide +kernel, by decide +kernel,
    by decide +kernel⟩

theorem recombined_harms : ¬Harmless toy "d1" moved.relay recombined none none := by
  intro hharmless
  have huntouched := ((foreign_untouched_iff toy "d1").1 moved recombined none none moved_reachable
    recombined_buildable).mpr hharmless
  have hback : (putBackup toy moved.relay recombined none none).2.locks "d1" = some "h1" := by
    decide +kernel
  have hlock : moved.relay.locks "d1" = some "h2" := by decide +kernel
  exact absurd (hback.symm.trans (huntouched.1.trans hlock)) (by decide)

end InstanceLocks
