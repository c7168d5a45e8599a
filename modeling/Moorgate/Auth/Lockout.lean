import Moorgate.Auth.SecondFactor
import Moorgate.Store.Users

/-!
# Password guessing: `Authenticate` and `RecordLoginFailure`

A call checks that the account is not locked, verifies the password and then records a failure; the
account is locked when the recorded failures reach the threshold. The calls between check and
record are in nobody's count, so any number of wrong passwords can be compared at the same time.
The threshold holds in the runs in which a call passes the check only when there is room for all
that are on the way, and every failure is recorded.
-/

namespace Moorgate.Auth

open Framework Models Store

/-- `hashes` is `user_credentials`. -/
structure LoginDb where
  users : Users
  hashes : UUID → Option String

/-- `lockout_policy`. -/
structure LockoutPolicy where
  max : ℕ
  lockFor : Duration

/-- `ci` compares names, `verify` is `VerifyPassword` (false when it fails), `needsRehash`
is `PasswordNeedsRehash`. -/
structure PasswordEnv where
  ci : String → String
  verify : String → String → Bool
  needsRehash : String → Bool

structure Attempt where
  (username password : String)

/-- `ok = false` makes the statement fail; `newHash` is what `HashPassword` returns. -/
structure AttemptInput where
  now : Instant
  ok : Bool
  newHash : Option String

/-- Each state stands before the step it is named for. `compared` is the account whose
hash the password was compared with. -/
inductive AttemptPc where
  | reading (a : Attempt) -- `GetUserByUsername`
  | loadingHash (u : UserRow) (password : String) -- `GetPasswordHash`
  | verifying (u : UserRow) (password hash : String)
  | recording (u : UserRow) -- `RecordLoginFailure`
  | rehashing (u : UserRow) -- `SetPasswordHash`
  | returned (compared : Option UUID) (result : Except String UserRow)

def checkAccount (now : Instant) (row : Option UserRow) : Except String UserRow :=
  match row with
  | none => .error errInvalidCredentials
  | some u =>
    if u.isDisabled then .error errInvalidCredentials
    else if u.authSource ≠ "" ∧ u.authSource ≠ "local" then .error errInvalidCredentials
    else if u.lockedUntil.any (fun t => decide (now < t)) then .error errAccountLocked
    else .ok u

section

variable (env : PasswordEnv) (P : LockoutPolicy)

def AttemptInput.row (i : AttemptInput) (d : LoginDb) (a : Attempt) : Option UserRow :=
  if i.ok then getUserByUsername env.ci d.users a.username else none

/-- A failure that cannot be recorded is only logged. -/
def applyFailure (i : AttemptInput) (u : UserRow) (d : LoginDb) : LoginDb :=
  if i.ok then { d with users := recordLoginFailure i.now u.id P.max P.lockFor d.users } else d

def setPasswordHash (id : UUID) (hash : String) (d : LoginDb) : LoginDb where
  users := clearMustChangePw id d.users
  hashes := Function.update d.hashes id ((d.hashes id).map fun _ => hash)

def attemptAct (i : AttemptInput) (d : LoginDb) : AttemptPc → Option (LoginDb × AttemptPc)
  | .reading a =>
    match checkAccount i.now (i.row env d a) with
    | .error e => some (d, .returned none (.error e))
    | .ok u => some (d, .loadingHash u a.password)
  | .loadingHash u password =>
    match if i.ok then d.hashes u.id else none with
    | none => some (d, .returned none (.error errInvalidCredentials))
    | some hash => some (d, .verifying u password hash)
  | .verifying u password hash =>
    if env.verify password hash then
      if env.needsRehash hash then some (d, .rehashing u)
        else some (d, .returned (some u.id) (.ok u))
    else some (d, .recording u)
  | .recording u =>
    some (applyFailure P i u d, .returned (some u.id) (.error errInvalidCredentials))
  | .rehashing u =>
    match i.newHash with
    | some hash =>
      some (if i.ok then setPasswordHash u.id hash d else d, .returned (some u.id) (.ok u))
    | none => some (d, .returned (some u.id) (.ok u))
  | .returned _ _ => none

abbrev AttemptPool := Pool LoginDb AttemptPc
abbrev AttemptMove := Move Attempt AttemptInput

def attemptStep : AttemptPool → AttemptMove → Option AttemptPool :=
  poolStep .reading (attemptAct env P)

end

/-! ## Guesses -/

namespace AttemptPc

variable (id : UUID)

def compared : AttemptPc → Bool
  | .recording u | .rehashing u => decide (u.id = id)
  | .returned c _ => decide (c = some id)
  | _ => false

/-- The call has compared and is done with the account. -/
def settled : AttemptPc → Bool
  | .rehashing u => decide (u.id = id)
  | .returned c _ => decide (c = some id)
  | _ => false

/-- The call has passed the check of the account and has not recorded a failure. -/
def underWay : AttemptPc → Bool
  | .loadingHash u _ | .verifying u _ _ | .recording u => decide (u.id = id)
  | _ => false

def attempt : AttemptPc → Option Attempt
  | .reading a => some a
  | _ => none

def guess : AttemptPc → Option (UserRow × String × String)
  | .verifying u password hash => some (u, password, hash)
  | _ => none

def failing : AttemptPc → Option UserRow
  | .recording u => some u
  | _ => none

end AttemptPc

def compared (id : UUID) (s : AttemptPool) : ℕ := s.calls.countP (AttemptPc.compared id)
def underWay (id : UUID) (s : AttemptPool) : ℕ := s.calls.countP (AttemptPc.underWay id)

section

variable (env : PasswordEnv) (P : LockoutPolicy) (id : UUID)

/-- The passwords for the account are wrong, and calls are made before a lock of the
account has run out. -/
def Guessing (s : AttemptPool) : AttemptMove → Prop
  | .begin _ => True
  | .advance k i => ∀ pc ∈ s.call k,
      (∀ a ∈ pc.attempt, ∀ u ∈ i.row env s.store a, u.id = id → ∀ t ∈ u.lockedUntil, i.now < t) ∧
        ∀ g ∈ pc.guess, g.1.id = id → env.verify g.2.1 g.2.2 = false

/-- A call passes the check when no other is on the way, or when there is room for all
of them, and failures are recorded. -/
def RoomForGuess (s : AttemptPool) : AttemptMove → Prop
  | .begin _ => True
  | .advance k i => ∀ pc ∈ s.call k,
      (∀ a ∈ pc.attempt, ∀ u ∈ (checkAccount i.now (i.row env s.store a)).toOption, u.id = id →
        underWay id s = 0 ∨ u.failedLogins + underWay id s < P.max) ∧
        ∀ u ∈ pc.failing, u.id = id → i.ok

instance (s : AttemptPool) (m : AttemptMove) : Decidable (Guessing env id s m) := by
  unfold Guessing
  split <;> infer_instance

instance (s : AttemptPool) (m : AttemptMove) : Decidable (RoomForGuess env P id s m) := by
  unfold RoomForGuess
  split <;> infer_instance

end

/-! ## Runs -/

/-- Every guess that is made is recorded, there is room for those on the way, and the
account is locked when it has to be. -/
structure LockoutInv (P : LockoutPolicy) (id : UUID) (s : AttemptPool) (u : UserRow) : Prop where
  mem : u ∈ s.store.users.rows
  id_eq : u.id = id
  settled_le : s.calls.countP (AttemptPc.settled id) ≤ u.failedLogins
  room : u.failedLogins + underWay id s ≤ P.max
  locked : u.lockedUntil = none ↔ u.failedLogins < P.max

section

variable {env : PasswordEnv} {P : LockoutPolicy} {id : UUID} {s s' : AttemptPool}
  {m : AttemptMove} {k : ℕ} {i : AttemptInput} {u : UserRow}

theorem checkAccount_eq_ok {row : Option UserRow} (h : checkAccount i.now row = .ok u) :
    row = some u ∧ ∀ t ∈ u.lockedUntil, ¬ i.now < t := by
  unfold checkAccount at h
  split at h
  · cases h
  split_ifs at h with hdisabled hsource hlocked
  cases h
  refine ⟨rfl, ?_⟩
  intro t ht hlt
  apply hlocked
  rw [Option.mem_def.mp ht]
  exact decide_eq_true hlt

variable {a : Attempt} {d : LoginDb}

theorem mem_of_row (h : i.row env d a = some u) : u ∈ d.users.rows := by
  unfold AttemptInput.row at h
  split at h
  · exact List.mem_of_find?_eq_some h
  · cases h

theorem compared_le (id : UUID) (calls : List AttemptPc) : calls.countP (AttemptPc.compared id) ≤
      calls.countP (AttemptPc.settled id) + calls.countP (AttemptPc.underWay id) := by
  induction calls with
  | nil => exact Nat.zero_le _
  | cons pc calls ih =>
    rw [List.countP_cons, List.countP_cons, List.countP_cons]
    cases pc <;> simp only [AttemptPc.compared, AttemptPc.settled, AttemptPc.underWay] <;> grind

/-- A call that does not touch the account moves on, and it is not settled or on the way
unless it was. -/
theorem LockoutInv.put {pc pc' : AttemptPc} (hi : LockoutInv P id s u) (hk : s.call k = some pc)
    (hmem : u ∈ d.users.rows) (hsettled : pc'.settled id → pc.settled id)
    (hunder : pc'.underWay id → pc.underWay id) : LockoutInv P id (s.put k d pc') u := by
  refine ⟨hmem, hi.id_eq, ?_, ?_, hi.locked⟩
  · exact (Pool.countP_put_le hk hsettled d).trans hi.settled_le
  · exact (Nat.add_le_add_left (Pool.countP_put_le hk hunder d) _).trans hi.room

variable {v : UserRow}

theorem lockoutInv_reading (hi : LockoutInv P id s u)
    (hk : s.call k = some (.reading a)) (hguess : Guessing env id s (.advance k i))
    (hroom : RoomForGuess env P id s (.advance k i))
    (hcheck : checkAccount i.now (i.row env s.store a) = .ok v) :
    LockoutInv P id (s.put k s.store (.loadingHash v a.password)) u := by
  by_cases hid : v.id = id
  · obtain ⟨hrow, hunlocked⟩ := checkAccount_eq_ok hcheck
    have hv : v = u := Table.eq_of_key (mem_of_row hrow) hi.mem (hid.trans hi.id_eq.symm)
    subst hv
    -- a lock that is there has not run out, so there is none
    have hnone : v.lockedUntil = none := by
      refine Option.eq_none_iff_forall_not_mem.mpr ?_
      intro t ht
      exact hunlocked t ht ((hguess _ hk).1 a rfl v hrow hid t ht)
    have hlt := hi.locked.mp hnone
    have hfree := (hroom _ hk).1 a rfl v (by rw [hcheck]; rfl) hid
    have hcount := Pool.countP_put (AttemptPc.underWay id) hk s.store (.loadingHash v a.password)
    have hone : AttemptPc.underWay id (.loadingHash v a.password) := decide_eq_true hid
    rw [if_pos hone, if_neg (show AttemptPc.underWay id (.reading a) ≠ true from nofun)] at hcount
    refine ⟨hi.mem, hi.id_eq, ?_, ?_, hi.locked⟩
    · exact (Pool.countP_put_le hk (by intro h; cases h) s.store).trans hi.settled_le
    · unfold underWay at hfree ⊢
      omega
  · refine hi.put hk hi.mem nofun ?_
    intro h
    exact absurd (of_decide_eq_true h) hid

theorem LockoutInv.record {u' : UserRow} {r : Except String UserRow} (hi : LockoutInv P id s u)
    (hk : s.call k = some (.recording v)) (hid : v.id = id) (hmem : u' ∈ d.users.rows)
    (hid' : u'.id = id) (hfailed : u'.failedLogins = u.failedLogins + 1)
    (hlocked : u'.lockedUntil = none ↔ u'.failedLogins < P.max) :
    LockoutInv P id (s.put k d (.returned (some v.id) r)) u' := by
  have hsettled := Pool.countP_put (AttemptPc.settled id) hk d (.returned (some v.id) r)
  have hunder := Pool.countP_put (AttemptPc.underWay id) hk d (.returned (some v.id) r)
  rw [if_neg (show AttemptPc.settled id (.recording v) ≠ true from nofun),
    if_pos (show AttemptPc.settled id (.returned (some v.id) r) = true
    by rw [hid]; exact decide_eq_true rfl)] at hsettled
  rw [if_pos (show AttemptPc.underWay id (.recording v) = true from decide_eq_true hid),
    if_neg (show AttemptPc.underWay id (.returned (some v.id) r) ≠ true from nofun)] at hunder
  have hle := hi.settled_le
  have hroom := hi.room
  unfold underWay at hroom
  refine ⟨hmem, hid', ?_, ?_, hlocked⟩
  · omega
  · unfold underWay
    omega

theorem lockoutInv_recording (hi : LockoutInv P id s u) (hk : s.call k = some (.recording v))
    (hok : v.id = id → i.ok) : ∃ u', LockoutInv P id (s.put k (applyFailure P i v s.store)
      (.returned (some v.id) (.error errInvalidCredentials))) u' := by
  unfold applyFailure
  by_cases hid : v.id = id
  · rw [if_pos (hok hid)]
    have hmem := mem_updateRow_self (UserRow.fail i.now P.max P.lockFor) (fun _ => rfl) hi.mem
      (hi.id_eq.trans hid.symm)
    refine ⟨_, hi.record hk hid hmem hi.id_eq rfl ?_⟩
    show (if P.max ≤ u.failedLogins + 1 then some (i.now + P.lockFor) else u.lockedUntil) = none ↔
      u.failedLogins + 1 < P.max
    by_cases hmax : P.max ≤ u.failedLogins + 1
    · rw [if_pos hmax]
      exact ⟨nofun, fun hlt => absurd hlt (Nat.not_lt.mpr hmax)⟩
    · rw [if_neg hmax, hi.locked]
      omega
  · refine ⟨u, hi.put hk ?_ (fun h => absurd (Option.some.inj (of_decide_eq_true h)) hid) nofun⟩
    split
    · exact mem_updateRow_of_ne (UserRow.fail i.now P.max P.lockFor) (fun _ => rfl) hi.mem fun h =>
        hid (h.symm.trans hi.id_eq)
    · exact hi.mem

theorem lockoutInv_rehashing (hi : LockoutInv P id s u) (hk : s.call k = some (.rehashing v))
    (hash : String) (r : Except String UserRow) :
    ∃ u', LockoutInv P id
      (s.put k (setPasswordHash v.id hash s.store) (.returned (some v.id) r)) u' := by
  have hsettled : AttemptPc.settled id (.returned (some v.id) r) →
      AttemptPc.settled id (.rehashing v) :=
    fun h => decide_eq_true (Option.some.inj (of_decide_eq_true h))
  by_cases hid : v.id = id
  · have hmem :=
      mem_updateRow_self UserRow.changedPw (fun _ => rfl) hi.mem (hi.id_eq.trans hid.symm)
    have hput := hi.put (d := s.store) hk hi.mem hsettled nofun
    exact ⟨_, hmem, hi.id_eq, hput.settled_le, hput.room, hi.locked⟩
  · have hmem := mem_updateRow_of_ne UserRow.changedPw (fun _ => rfl) hi.mem fun h =>
        hid (h.symm.trans hi.id_eq)
    exact ⟨u, hi.put hk hmem hsettled nofun⟩

theorem lockoutInv_step (hi : ∃ u, LockoutInv P id s u)
    (hg : Guessing env id s m ∧ RoomForGuess env P id s m) (h : attemptStep env P s m = some s') :
    ∃ u, LockoutInv P id s' u := by
  obtain ⟨u, hi⟩ := hi
  obtain ⟨hguess, hroom⟩ := hg
  rcases poolStep_cases h with ⟨a, rfl, rfl⟩ | ⟨k, i, pc, d, pc', rfl, hk, hact, rfl⟩
  · refine ⟨u, hi.mem, hi.id_eq, ?_, ?_, hi.locked⟩
    · rw [Pool.countP_enter]
      exact hi.settled_le
    · unfold underWay
      rw [Pool.countP_enter]
      exact hi.room
  -- a right password is for another account
  have hother {v password hash} (hk : s.call k = some (.verifying v password hash))
      (hverify : env.verify password hash) : v.id ≠ id := by
    intro hid
    rw [(hguess _ hk).2 _ rfl hid] at hverify
    cases hverify
  revert hact
  fun_cases attemptAct env P i s.store pc with
  | case2 a v hcheck =>
    rintro ⟨⟩
    exact ⟨u, lockoutInv_reading hi hk hguess hroom hcheck⟩
  | case1 | case3 =>
    rintro ⟨⟩
    exact ⟨u, hi.put hk hi.mem nofun nofun⟩
  | case4 | case7 =>
    rintro ⟨⟩
    exact ⟨u, hi.put hk hi.mem nofun fun h => h⟩
  | case5 v password hash hverify =>
    rintro ⟨⟩
    exact ⟨u, hi.put hk hi.mem (fun h => absurd (of_decide_eq_true h) (hother hk hverify)) nofun⟩
  | case6 v password hash hverify =>
    rintro ⟨⟩
    refine ⟨u, hi.put hk hi.mem (fun h => ?_) nofun⟩
    exact absurd (Option.some.inj (of_decide_eq_true h)) (hother hk hverify)
  | case8 v =>
    rintro ⟨⟩
    exact lockoutInv_recording hi hk fun hid => (hroom _ hk).2 v rfl hid
  | case9 v hash =>
    rintro ⟨⟩
    split
    · exact lockoutInv_rehashing hi hk hash _
    · exact ⟨u, hi.put hk hi.mem (fun h => decide_eq_true
        (Option.some.inj (of_decide_eq_true h))) nofun⟩
  | case10 =>
    rintro ⟨⟩
    exact ⟨u, hi.put hk hi.mem (fun h => decide_eq_true
      (Option.some.inj (of_decide_eq_true h))) nofun⟩
  | case11 => exact nofun

end

/-- **Bounded guessing** in the runs in which calls find room: at most `max` wrong
passwords are compared with the hash of the account, and once that many are recorded
the account is locked. -/
theorem guesses_bounded {env : PasswordEnv} {P : LockoutPolicy} (hmax : 0 < P.max) {id : UUID}
    {d : LoginDb} {u : UserRow} (hu : getUserByID d.users id = some u)
    (hfailed : u.failedLogins = 0) (hlocked : u.lockedUntil = none) {ms : List AttemptMove}
    {s : AttemptPool} (h : exec (attemptStep env P) ⟨d, []⟩ ms = some s)
    (hguess : Guarded (attemptStep env P) (Guessing env id) ⟨d, []⟩ ms)
    (hroom : Guarded (attemptStep env P) (RoomForGuess env P id) ⟨d, []⟩ ms) :
    compared id s ≤ P.max ∧
      ∃ u', getUserByID s.store.users id = some u' ∧
      (P.max ≤ u'.failedLogins → u'.lockedUntil ≠ none) := by
  obtain ⟨hmem, hid⟩ := Table.lookup_eq_some.mp hu
  have hstart : ∃ u, LockoutInv P id ⟨d, []⟩ u := by
    refine ⟨u, hmem, hid, Nat.zero_le _, ?_, ?_⟩
    · rw [hfailed]
      exact Nat.zero_le _
    · rw [hfailed, hlocked]
      exact ⟨fun _ => hmax, fun _ => rfl⟩
  obtain ⟨u', hi⟩ := exec_invariant lockoutInv_step (hguess.and hroom) h hstart
  constructor
  · have hle := compared_le id s.calls
    have hsettled := hi.settled_le
    have hroom := hi.room
    unfold underWay at hroom
    unfold compared
    omega
  · refine ⟨u', Table.lookup_eq_some.mpr ⟨hi.mem, hi.id_eq⟩, ?_⟩
    intro hreached hnone
    exact absurd (hi.locked.mp hnone) (Nat.not_lt.mpr hreached)

def plainPasswords : PasswordEnv :=
  ⟨fun s => s, fun password hash => decide (password = hash), fun _ => false⟩

def twoFailures : LockoutPolicy := ⟨2, 15 * minute⟩

def oneAccount : LoginDb where
  users := .single ⟨.ofNat 1, "alice", none, "", false, false, false, "local", 0, none⟩
  hashes id := if id = .ofNat 1 then some "secret" else none

def guessMove (k : ℕ) (now : Instant) : AttemptMove := .advance k ⟨now, true, none⟩

def wrongGuess : AttemptMove := .begin ⟨"alice", "wrong"⟩

def guessView (s : AttemptPool) : ℕ × Option ℕ :=
  (compared (.ofNat 1) s, (getUserByID s.store.users (.ofNat 1)).map UserRow.failedLogins)

/-- A call that reads the account, compares and records. -/
def guessAlone (k : ℕ) (now : Instant) : List AttemptMove :=
  [wrongGuess, guessMove k now, guessMove k now, guessMove k now, guessMove k now]

/-- The third call in turn is refused. -/
theorem guesses_bounded_in_turn :
    ∃ s, exec (attemptStep plainPasswords twoFailures) ⟨oneAccount, []⟩
        (guessAlone 0 0 ++ guessAlone 1 minute ++ [wrongGuess, guessMove 2 (2 * minute)]) = some s ∧
      guessView s = (2, some 2) ∧ compared (.ofNat 1) s ≤ 2 := by
  refine exists_of_view guessView _ (by decide +kernel) fun s hs hview => ⟨hview, ?_⟩
  exact (guesses_bounded (by decide) rfl rfl rfl hs (by decide +kernel) (by decide +kernel)).1

/-- Three calls that all read the account before one of them records compare three
passwords, within the time of the lock and with nothing failing. -/
theorem concurrent_guesses_exceed_max :
    ∃ s, exec (attemptStep plainPasswords twoFailures) ⟨oneAccount, []⟩
        ([wrongGuess, wrongGuess, wrongGuess] ++ [0, 1, 2, 0, 1, 2, 0, 1, 2, 0, 1,
          2].map (guessMove · 0)) = some s ∧
      Guarded (attemptStep plainPasswords twoFailures)
        (Guessing plainPasswords (.ofNat 1)) ⟨oneAccount, []⟩
        ([wrongGuess, wrongGuess, wrongGuess] ++ [0, 1, 2, 0, 1, 2, 0, 1, 2, 0, 1,
          2].map (guessMove · 0)) ∧
      compared (.ofNat 1) s = 3 ∧ ¬ compared (.ofNat 1) s ≤ twoFailures.max := by
  refine exists_of_view (compared (.ofNat 1)) 3 (by decide +kernel) fun s _ hthree => ?_
  refine ⟨by decide +kernel, hthree, ?_⟩
  rw [hthree]
  decide

end Moorgate.Auth
