import CryptoPigeon.LocalApiGate
import CryptoPigeon.TransitionSystem
import Mathlib.Logic.Function.Basic

/-! # Sessions of the relay's administrator

A login adds an entry to a map in memory, keyed by a token that the browser keeps in a cookie.
An entry leaves the map when it is found expired or its cookie logs out, and nothing else reads
the clock. `logins` and `loggedOut` are history. -/
namespace AdminSessions

open TransitionSystem
open LocalApiGate (Method trim)

abbrev Text := List Char

structure AdminSession where
  csrfToken : Text
  expiresAt : Nat
  deriving DecidableEq, Repr

/-- `x-csrf-token`, of which a client may send several. -/
inductive Header where
  | absent
  | single (value : Text)
  | several (values : List Text)
  deriving DecidableEq, Repr

structure Request where
  method : Method
  cookie : Option Text
  csrf : Header
  deriving DecidableEq, Repr

structure Env where
  adminUsername : Text
  adminToken : Text
  deriving DecidableEq, Repr

/-- What `find` takes the cookies of a header for: a name, and the rest with its signs. -/
def crumbs (header : Text) : List (List Text) :=
  (header.splitOn ';').map fun value => (trim value).splitOn '='

def cookie (header : Option Text) (name : Text) : Option Text :=
  header.bind fun h => ((crumbs h).find? fun crumb => crumb.head? == some name).map
    fun crumb => ['='].intercalate crumb.tail

def sessionName : Text := "crypto_pigeon_admin".toList

/-- The token of a request; an empty one is none. -/
def tokenOf (r : Request) : Option Text := (cookie r.cookie sessionName).filter (· ≠ [])

abbrev Sessions := Text → Option AdminSession

/-- The session of the request, and the map that is left. -/
def getAdminSession (r : Request) (now : Nat) (adminSessions : Sessions) :
    Option AdminSession × Sessions :=
  match tokenOf r with
  | none => (none, adminSessions)
  | some token =>
    match adminSessions token with
    | none => (none, adminSessions)
    | some session =>
      if session.expiresAt ≤ now then (none, Function.update adminSessions token none)
      else (some session, adminSessions)

def Header.text : Header → Text
  | .absent => []
  | .single value => value
  | .several values => values.head?.getD []

/-- Methods that are let through without the CSRF token. -/
def reads (m : Method) : Bool := m == .get || m == .head || m == .options

inductive Denial where
  | adminAuthRequired
  | adminCsrfInvalid
  deriving DecidableEq, Repr

def requireAdminGuard (r : Request) (now : Nat) (adminSessions : Sessions) :
    Except Denial Unit × Sessions :=
  match getAdminSession r now adminSessions with
  | (none, left) => (.error .adminAuthRequired, left)
  | (some session, left) =>
    (if !reads r.method && r.csrf.text != session.csrfToken then .error .adminCsrfInvalid
      else .ok (), left)

def lifetime : Nat := 8 * 60 * 60 * 1000

structure Login where
  username : Text
  password : Text
  token : Text
  csrf : Text
  loginAt : Nat
  deriving DecidableEq, Repr

def Login.session (l : Login) : AdminSession := ⟨l.csrf, l.loginAt + lifetime⟩

def Env.accepts (env : Env) (l : Login) : Bool :=
  l.username == env.adminUsername && l.password == env.adminToken

structure State where
  now : Nat
  adminSessions : Sessions
  logins : List Login
  loggedOut : List Text

/-- The routes behind the guard are alike but for the logout. -/
inductive Event where
  | login (l : Login)
  | guarded (r : Request) (now : Nat)
  | logout (r : Request) (now : Nat)
  deriving DecidableEq, Repr

/-- 32 random bytes in base64url are not drawn twice, and the clock does not go back. -/
def Enabled (s : State) : Event → Prop
  | .login l => s.now ≤ l.loginAt ∧ l.token ≠ [] ∧ ∀ m ∈ s.logins, m.token ≠ l.token
  | .guarded _ now => s.now ≤ now
  | .logout _ now => s.now ≤ now

instance (s : State) (e : Event) : Decidable (Enabled s e) := by
  cases e <;> simp only [Enabled] <;> infer_instance

/-- `POST /api/admin/logout`, its guard included. -/
def logout (r : Request) (now : Nat) (s : State) : State :=
  match requireAdminGuard r now s.adminSessions, tokenOf r with
  | (.ok (), left), some token =>
    ⟨now, Function.update left token none, s.logins, token :: s.loggedOut⟩
  | (_, left), _ => { s with now := now, adminSessions := left }

def next (env : Env) (s : State) : Event → State
  | .login l =>
    if env.accepts l then
      ⟨l.loginAt, Function.update s.adminSessions l.token (some l.session), l :: s.logins,
        s.loggedOut⟩
    else { s with now := l.loginAt }
  | .guarded r now =>
    { s with now := now, adminSessions := (requireAdminGuard r now s.adminSessions).2 }
  | .logout r now => logout r now s

def Initial (s : State) : Prop :=
  (∀ token, s.adminSessions token = none) ∧ s.logins = [] ∧ s.loggedOut = []

def system (env : Env) : System State Event := ⟨Initial, Enabled, next env⟩

/-- The login is the administrator's, less than eight hours old, and was not ended. -/
structure Holds (env : Env) (s : State) (now : Nat) (token : Text) (l : Login) : Prop where
  login : l ∈ s.logins
  named : l.token = token
  accepted : env.accepts l
  young : now < l.loginAt + lifetime
  kept : token ∉ s.loggedOut

structure Invariant (env : Env) (s : State) : Prop where
  fresh : ∀ l ∈ s.logins, l.token ≠ []
  accepted : ∀ l ∈ s.logins, env.accepts l
  ended : ∀ token ∈ s.loggedOut, ∃ l ∈ s.logins, l.token = token
  known : ∀ token session, s.adminSessions token = some session →
    ∃ l ∈ s.logins, l.token = token ∧ session = l.session ∧ token ∉ s.loggedOut
  live : ∀ l ∈ s.logins, l.token ∉ s.loggedOut → s.now < l.loginAt + lifetime →
    s.adminSessions l.token = some l.session

section Guard

variable (r : Request) (now : Nat) (adminSessions : Sessions)

/-- A read of the map drops at most the entry that it finds expired. -/
theorem getAdminSession_cases :
    (getAdminSession r now adminSessions = (none, adminSessions) ∧
      ∀ token, tokenOf r = some token → adminSessions token = none) ∨
    (∃ token session, tokenOf r = some token ∧ adminSessions token = some session ∧
      ((session.expiresAt ≤ now ∧ getAdminSession r now adminSessions =
          (none, Function.update adminSessions token none)) ∨
        (now < session.expiresAt ∧
          getAdminSession r now adminSessions = (some session, adminSessions)))) := by
  unfold getAdminSession
  cases htoken : tokenOf r with
  | none => simp
  | some token =>
    cases hsession : adminSessions token with
    | none => simp [hsession]
    | some session =>
      refine .inr ⟨token, session, rfl, hsession, ?_⟩
      by_cases h : session.expiresAt ≤ now
      · simp [hsession, h]
      · simp [hsession, h, Nat.lt_of_not_le h]

theorem guard_left :
    (requireAdminGuard r now adminSessions).2 = (getAdminSession r now adminSessions).2 := by
  unfold requireAdminGuard
  rcases getAdminSession r now adminSessions with ⟨_ | session, left⟩ <;> rfl

end Guard

variable {env : Env} {s : State} {r : Request} {now : Nat} {adminSessions : Sessions}
  {session : AdminSession} {token : Text}

theorem initial_invariant (h : Initial s) : Invariant env s := by
  obtain ⟨hsessions, hlogins, hout⟩ := h
  refine ⟨by simp [hlogins], by simp [hlogins], by simp [hout], fun token session h => ?_,
    by simp [hlogins]⟩
  rw [hsessions] at h
  exact absurd h (by simp)

theorem Invariant.later (h : Invariant env s) (hclock : s.now ≤ now) :
    Invariant env { s with now := now } :=
  { h with live := fun l hl hout hyoung => h.live l hl hout (Nat.lt_of_le_of_lt hclock hyoung) }

/-- Entries may go once they are expired. -/
theorem Invariant.dropped (h : Invariant env s) (hsession : s.adminSessions token = some session)
    (hexpired : session.expiresAt ≤ s.now) :
    Invariant env { s with adminSessions := Function.update s.adminSessions token none } := by
  refine { h with known := fun other found hother => ?_, live := fun l hl hout hyoung => ?_ }
  · by_cases heq : other = token
    · simp [heq] at hother
    · simp only [Function.update_of_ne heq] at hother
      exact h.known other found hother
  · have hlive := h.live l hl hout hyoung
    by_cases heq : l.token = token
    · rw [heq, hsession, Option.some.injEq] at hlive
      rw [hlive] at hexpired
      exact absurd hyoung (Nat.not_lt.mpr hexpired)
    · simpa only [Function.update_of_ne heq] using hlive

theorem Invariant.guarded (h : Invariant env s) (hclock : s.now ≤ now) :
    Invariant env
      { s with now := now, adminSessions := (requireAdminGuard r now s.adminSessions).2 } := by
  rw [guard_left]
  rcases getAdminSession_cases r now s.adminSessions with
    ⟨hget, -⟩ | ⟨token, session, -, hsession, ⟨hexpired, hget⟩ | ⟨-, hget⟩⟩
  · simpa only [hget] using h.later hclock
  · simpa only [hget] using (h.later hclock).dropped hsession hexpired
  · simpa only [hget] using h.later hclock

theorem Invariant.loggedIn (h : Invariant env s) {l : Login} (hclock : s.now ≤ l.loginAt)
    (hnonempty : l.token ≠ []) (hfresh : ∀ m ∈ s.logins, m.token ≠ l.token)
    (haccepts : env.accepts l) :
    Invariant env ⟨l.loginAt, Function.update s.adminSessions l.token (some l.session),
      l :: s.logins, s.loggedOut⟩ := by
  have hkept : l.token ∉ s.loggedOut := fun hout => by
    obtain ⟨m, hm, heq⟩ := h.ended _ hout
    exact hfresh m hm heq
  constructor
  · simpa [hnonempty] using h.fresh
  · simpa [haccepts] using h.accepted
  · intro token hout
    obtain ⟨m, hm, heq⟩ := h.ended token hout
    exact ⟨m, List.mem_cons_of_mem _ hm, heq⟩
  · intro token session hsession
    by_cases heq : token = l.token
    · subst heq
      simp only [Function.update_self, Option.some.injEq] at hsession
      exact ⟨l, List.mem_cons_self, rfl, hsession.symm, hkept⟩
    · simp only [Function.update_of_ne heq] at hsession
      obtain ⟨m, hm, hrest⟩ := h.known token session hsession
      exact ⟨m, List.mem_cons_of_mem _ hm, hrest⟩
  · intro m hm hout hyoung
    rcases List.mem_cons.mp hm with rfl | hm
    · simp
    · simp only [Function.update_of_ne (hfresh m hm)]
      exact h.live m hm hout (Nat.lt_of_le_of_lt hclock hyoung)

theorem Invariant.loggedOut (h : Invariant env s)
    (hsession : s.adminSessions token = some session) :
    Invariant env { s with adminSessions := Function.update s.adminSessions token none,
                           loggedOut := token :: s.loggedOut } := by
  obtain ⟨l, hl, htoken, -⟩ := h.known token session hsession
  refine { h with ended := fun other hout => ?_, known := fun other found hother => ?_,
                  live := fun m hm hout hyoung => ?_ }
  · rcases List.mem_cons.mp hout with rfl | hout
    · exact ⟨l, hl, htoken⟩
    · exact h.ended other hout
  · by_cases heq : other = token
    · simp [heq] at hother
    · simp only [Function.update_of_ne heq] at hother
      obtain ⟨m, hm, hm', hfound, hkept⟩ := h.known other found hother
      exact ⟨m, hm, hm', hfound, by simp [heq, hkept]⟩
  · simp only [List.mem_cons, not_or] at hout
    simpa only [Function.update_of_ne hout.1] using h.live m hm hout.2 hyoung

/-- What a request that is let through shows. -/
theorem guard_ok (h : (requireAdminGuard r now adminSessions).1 = .ok ()) :
    ∃ token session, tokenOf r = some token ∧ adminSessions token = some session ∧
      now < session.expiresAt ∧ (reads r.method = true ∨ r.csrf.text = session.csrfToken) ∧
      (requireAdminGuard r now adminSessions).2 = adminSessions := by
  rcases getAdminSession_cases r now adminSessions with
    ⟨hget, -⟩ | ⟨token, session, htoken, hsession, ⟨-, hget⟩ | ⟨hyoung, hget⟩⟩
  · simp [requireAdminGuard, hget] at h
  · simp [requireAdminGuard, hget] at h
  · refine ⟨token, session, htoken, hsession, hyoung, ?_, by rw [guard_left, hget]⟩
    by_contra hcsrf
    rw [not_or, Bool.not_eq_true] at hcsrf
    simp [requireAdminGuard, hget, hcsrf.1, hcsrf.2] at h

theorem guard_admits (htoken : tokenOf r = some token)
    (hsession : adminSessions token = some session)
    (hyoung : now < session.expiresAt)
    (hcsrf : reads r.method = true ∨ r.csrf.text = session.csrfToken) :
    (requireAdminGuard r now adminSessions).1 = .ok () := by
  rcases hcsrf with h | h <;>
    simp [requireAdminGuard, getAdminSession, htoken, hsession, Nat.not_le.mpr hyoung, h]

theorem Invariant.logout (h : Invariant env s) (hclock : s.now ≤ now) :
    Invariant env (logout r now s) := by
  have hguarded := h.guarded (r := r) hclock
  unfold AdminSessions.logout
  cases hguard : requireAdminGuard r now s.adminSessions with
  | mk verdict left =>
    rw [hguard] at hguarded
    cases verdict with
    | error e => exact hguarded
    | ok u =>
      cases htoken : tokenOf r with
      | none => exact hguarded
      | some token =>
        have hok : (requireAdminGuard r now s.adminSessions).1 = .ok () := by rw [hguard]
        obtain ⟨other, session, hother, hsession, -, -, hleft⟩ := guard_ok hok
        rw [hguard] at hleft
        obtain rfl : other = token := Option.some.inj (hother.symm.trans htoken)
        subst hleft
        exact hguarded.loggedOut hsession

theorem step_preserves_invariant (s : State) (e : Event) (h : Invariant env s)
    (he : Enabled s e) : Invariant env (next env s e) := by
  cases e with
  | login l =>
    obtain ⟨hclock, hnonempty, hfresh⟩ := he
    simp only [next]
    by_cases haccepts : env.accepts l
    · rw [if_pos haccepts]
      exact h.loggedIn hclock hnonempty hfresh haccepts
    · rw [if_neg haccepts]
      exact h.later hclock
  | guarded r now => exact h.guarded he
  | logout r now => exact h.logout he

theorem reachable_satisfies_invariant (h : Reachable (system env) s) : Invariant env s :=
  reachable_invariant (fun _ => initial_invariant) step_preserves_invariant h

/-- The map with its lazy deletions admits whom the history of logins and logouts admits. -/
theorem admitted_iff_login_holds (h : Reachable (system env) s) (hclock : s.now ≤ now) :
    (requireAdminGuard r now s.adminSessions).1 = .ok () ↔
      ∃ token l, tokenOf r = some token ∧ Holds env s now token l ∧
        (reads r.method = true ∨ r.csrf.text = l.csrf) := by
  have hinv := reachable_satisfies_invariant h
  constructor
  · intro hok
    obtain ⟨token, session, htoken, hsession, hyoung, hcsrf, -⟩ := guard_ok hok
    obtain ⟨l, hl, hnamed, rfl, hkept⟩ := hinv.known token session hsession
    exact ⟨token, l, htoken, ⟨hl, hnamed, hinv.accepted l hl, hyoung, hkept⟩, hcsrf⟩
  · rintro ⟨token, l, htoken, ⟨hl, rfl, -, hyoung, hkept⟩, hcsrf⟩
    have hsession := hinv.live l hl hkept (Nat.lt_of_le_of_lt hclock hyoung)
    exact guard_admits htoken hsession hyoung hcsrf

section Run

def deployment : Env := ⟨"admin".toList, "an-admin-token-of-32-characters".toList⟩

def alice : Login :=
  ⟨deployment.adminUsername, deployment.adminToken, "token-a".toList, "csrf-a".toList, 1000⟩

def bob : Login :=
  ⟨deployment.adminUsername, deployment.adminToken, "token-b".toList, "csrf-b".toList, 2000⟩

/-- Both logged in, and the first has logged out. -/
def ended : Request :=
  ⟨.post, some "theme=dark; crypto_pigeon_admin=token-a".toList, .single "csrf-a".toList⟩

def approval : Request :=
  ⟨.post, some "crypto_pigeon_admin=token-b; crypto_pigeon_admin_csrf=csrf-b".toList,
    .single "csrf-b".toList⟩

def fresh : State := ⟨0, fun _ => none, [], []⟩

def run : List Event := [.login alice, .login bob, .logout ended 3000]

def afterRun : State := (system deployment).replay fresh run

theorem afterRun_reachable : Reachable (system deployment) afterRun := by
  refine valid_trace_reachable (reachable_initial ⟨fun _ => rfl, rfl, rfl⟩) ?_
  simp only [run, System.Valid, system]
  exact ⟨by decide, by decide, by decide, trivial⟩

theorem bob_still_admitted :
    (requireAdminGuard approval 28801999 afterRun.adminSessions).1 = .ok () :=
  (admitted_iff_login_holds afterRun_reachable (by decide)).mpr
    ⟨bob.token, bob, by decide, ⟨by decide, rfl, by decide, by decide, by decide⟩, .inr rfl⟩

end Run

end AdminSessions
