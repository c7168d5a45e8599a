import Moorgate.Auth.Lockout
import Moorgate.Framework.Base.Checks

/-!
# A forced change of the password: `must_change_pw`

Until the password of a flagged account is changed, nothing but the authentication routes answers
it. `SetPasswordHash` clears the flag, and `Authenticate` calls it too, when the hash is of another
KDF than the one in force: a login in FIPS mode clears the flag of the very accounts that
`FlagNonFIPSPasswords` has found (`login_clears_flag`). Nor does `changePassword` compare the new
password with the old one.
-/

namespace Moorgate.Auth

open Framework Models Store

/-! ## Hashes -/

/-- The two functions that read the rest of a hash, with the KDFs they call. -/
structure Kdf where
  (verifyArgon2 verifyPBKDF2 : String → List (List Char) → Except String Bool)

/-- `strings.Split(encoded, "$")`. -/
def hashParts (encoded : String) : List (List Char) := encoded.toList.splitOn '$'

def pbkdf2 : List Char := "pbkdf2-sha256".toList

def verifyPassword (kdf : Kdf) (password encoded : String) : Except String Bool :=
  match (hashParts encoded)[1]? with
  | none => .error "invalid hash format"
  | some name =>
    if name = "argon2id".toList then kdf.verifyArgon2 password (hashParts encoded)
    else if name = pbkdf2 then kdf.verifyPBKDF2 password (hashParts encoded)
    else .error "invalid hash format"

/-- Here `fips` is what `SetPasswordFIPS` has set. -/
def passwordNeedsRehash (fips : Bool) (encoded : String) : Bool :=
  match (hashParts encoded)[1]? with
  | none => true
  | some name => fips && decide (name ≠ pbkdf2)

/-- A failure of `VerifyPassword` counts as a wrong password. -/
def verifies (kdf : Kdf) (password encoded : String) : Bool :=
  match verifyPassword kdf password encoded with
  | .ok b => b
  | .error _ => false

/-! ## The policy -/

/-- The classes of package `unicode`. -/
structure RuneClasses where
  (isUpper isLower isDigit isPunct isSymbol : Char → Bool)

inductive RuneClass where
  | upper | lower | digit | symbol
deriving DecidableEq

/-- The first case that applies. -/
def RuneClasses.classOf (cls : RuneClasses) (c : Char) : Option RuneClass :=
  if cls.isUpper c then some .upper
  else if cls.isLower c then some .lower
  else if cls.isDigit c then some .digit
  else if cls.isPunct c || cls.isSymbol c then some .symbol
  else none

def RuneClasses.has (cls : RuneClasses) (pw : String) (k : RuneClass) : Bool :=
  pw.toList.any fun c => decide (cls.classOf c = some k)

structure PasswordPolicy where
  minLength : ℤ
  (requireUpper requireLower requireDigit requireSymbol : Bool)

def defaultPolicy : PasswordPolicy := ⟨12, true, true, true, true⟩

def PasswordPolicy.validate (p : PasswordPolicy) (cls : RuneClasses) (pw : String) :
    Except String Unit := do
  refuseIf (decide ((pw.utf8ByteSize : ℤ) < p.minLength))
    ("password must be at least " ++ toString p.minLength ++ " characters")
  refuseIf (p.requireUpper && !cls.has pw .upper) "password must contain an uppercase letter"
  refuseIf (p.requireLower && !cls.has pw .lower) "password must contain a lowercase letter"
  refuseIf (p.requireDigit && !cls.has pw .digit) "password must contain a digit"
  refuseIf (p.requireSymbol && !cls.has pw .symbol) "password must contain a symbol"

/-- A password with the policy that has accepted it. -/
structure Checked (cls : RuneClasses) where
  policy : PasswordPolicy
  password : String
  accepted : policy.validate cls password = .ok ()

/-! ## The statements -/

def mustChange (d : LoginDb) (id : UUID) : Option Bool :=
  (getUserByID d.users id).map UserRow.mustChangePw

def UserRow.flag (must : Bool) (u : UserRow) : UserRow := { u with mustChangePw := must }

def setMustChangePassword (id : UUID) (must : Bool) (d : LoginDb) : LoginDb :=
  { d with users := updateRow id (UserRow.flag must) (fun _ => rfl) d.users }

/-- A local account whose hash is not of PBKDF2 and that has no flag. `split_part` yields
the empty text for a part that is not there. -/
def staleHash (d : LoginDb) (u : UserRow) : Bool :=
  (d.hashes u.id).any (fun hash => decide (((hashParts hash)[1]?.getD []) ≠ pbkdf2)) &&
    decide (u.authSource = "" ∨ u.authSource = "local") && !u.mustChangePw

def flagNonFIPSPasswords (d : LoginDb) : LoginDb :=
  { d with users := d.users.update (staleHash d) (UserRow.flag true) fun _ => rfl }

def createAccount (ci : String → String) (id : UUID) (p : CreateUserParams) (hash : String)
    (d : LoginDb) : Option LoginDb :=
  (createUser ci id p d.users).map fun (_, users) => ⟨users,
    Function.update d.hashes id (some hash)⟩

def deleteAccount (id : UUID) (d : LoginDb) : LoginDb :=
  ⟨deleteUser id d.users, Function.update d.hashes id none⟩

/-! ## Requests -/

structure PasswordSystem where
  ci : String → String
  kdf : Kdf
  classes : RuneClasses
  fips : Bool

def PasswordSystem.env (sys : PasswordSystem) : PasswordEnv :=
  ⟨sys.ci, verifies sys.kdf, passwordNeedsRehash sys.fips⟩

/-- Who replaces the password: its owner, or an administrator who may flag the account
again. -/
inductive Replacing where
  | change
  | reset (mustChange : Bool)

def Replacing.storeFailed : Replacing → String
  | .change => "update failed"
  | .reset _ => "could not reset password"

/-- A reset that `guardSuperTarget` lets through. -/
inductive PasswordRequest where
  | authenticate (a : Attempt)
  | changePassword (id : UUID) (current new : String)
  | resetPassword (id : UUID) (new : String) (mustChange : Bool)
  | flagNonFIPS
  | create (p : CreateUserParams) (hash : String)
  | delete (id : UUID)

/-- `policy` is what `PasswordPolicy` reads, `fresh` what `gen_random_uuid()` yields. -/
structure PasswordInput extends AttemptInput where
  policy : PasswordPolicy
  fresh : UUID

/-- Each state stands before the step it is named for. The last three of them are statements on
their own, which end in `ran`. -/
inductive PasswordPc (cls : RuneClasses) where
  | attempt (pc : AttemptPc)
  | changing (id : UUID) (current new : String) -- `GetPasswordHash`
  | validating (id : UUID) (new : String) (by_ : Replacing) -- `PasswordPolicy`
  | storing (id : UUID) (new : Checked cls) (by_ : Replacing) -- `SetPasswordHash`
  | flagging (id : UUID) -- `SetMustChangePassword`
  | flaggingStale -- `FlagNonFIPSPasswords`
  | creating (p : CreateUserParams) (hash : String) -- `CreateUser`
  | deleting (id : UUID) -- `DeleteUser`
  | done (result : Except String Unit)
  | ran

section

variable (sys : PasswordSystem) (P : LockoutPolicy)

def PasswordRequest.start : PasswordRequest → PasswordPc sys.classes
  | .authenticate a => .attempt (.reading a)
  | .changePassword id current new => .changing id current new
  | .resetPassword id new must =>
    if new = "" then .done (.error "newPassword is required") else .validating id new (.reset must)
  | .flagNonFIPS => .flaggingStale
  | .create p hash => .creating p hash
  | .delete id => .deleting id

def checkNew (policy : PasswordPolicy) (id : UUID) (new : String) (by_ : Replacing) :
    PasswordPc sys.classes :=
  match h : policy.validate sys.classes new with
  | .error e => .done (.error e)
  | .ok () => .storing id ⟨policy, new, h⟩ by_

/-- What follows once the hash is stored. -/
def Replacing.stored (id : UUID) (by_ : Replacing) : PasswordPc sys.classes :=
  match by_ with
  | .reset true => .flagging id
  | _ => .done (.ok ())

def passwordAct (i : PasswordInput) (d : LoginDb) :
    PasswordPc sys.classes → Option (LoginDb × PasswordPc sys.classes)
  | .attempt pc =>
    (attemptAct sys.env P i.toAttemptInput d pc).map fun (d', pc') => (d', .attempt pc')
  | .changing id current new =>
    match if i.ok then d.hashes id else none with
    | none => some (d, .done (.error "lookup failed"))
    | some hash =>
      if verifies sys.kdf current hash then some (d, .validating id new .change)
      else some (d, .done (.error "current password is incorrect"))
  | .validating id new by_ => some (d, checkNew sys i.policy id new by_)
  | .storing id _ by_ =>
    match i.newHash with
    | none => some (d, .done (.error "hash failed"))
    | some hash =>
      if i.ok then some (setPasswordHash id hash d, by_.stored sys id)
      else some (d, .done (.error by_.storeFailed))
  | .flagging id =>
    if i.ok then some (setMustChangePassword id true d, .done (.ok ()))
    else some (d, .done (.error "could not flag password change"))
  | .flaggingStale => some (if i.ok then flagNonFIPSPasswords d else d, .ran)
  | .creating p hash =>
    some (if i.ok then (createAccount sys.ci i.fresh p hash d).getD d else d, .ran)
  | .deleting id => some (if i.ok then deleteAccount id d else d, .ran)
  | .done _ | .ran => none

abbrev PasswordPool := Pool LoginDb (PasswordPc sys.classes)
abbrev PasswordMove := Move PasswordRequest PasswordInput

def passwordStep : PasswordPool sys → PasswordMove → Option (PasswordPool sys) :=
  poolStep (PasswordRequest.start sys) (passwordAct sys P)

/-- What a step does to the flags. Those of `Authenticate` leave every one of them, and one is
cleared only where a password that the policy has accepted takes the place of another. -/
def Rightful (s : PasswordPool sys) : PasswordMove → Prop
  | .begin _ => True
  | .advance k i => ∀ pc next, s.call k = some pc → passwordAct sys P i s.store pc = some next →
      ((∃ a, pc = .attempt a) → ∀ id, mustChange next.1 id = mustChange s.store id) ∧
      ∀ id, mustChange s.store id = some true → mustChange next.1 id = some false →
        ∃ new by_ old, pc = .storing id new by_ ∧ s.store.hashes id = some old ∧
          verifies sys.kdf new.password old = false ∧ next.1.hashes id = i.newHash

/-- A login stores a hash for a flagged account, or a password is stored that is the one the
flagged account has. -/
def Clears (s : PasswordPool sys) : PasswordMove → Prop
  | .begin _ => False
  | .advance k i => i.ok ∧ i.newHash.isSome ∧
      ((∃ u, s.call k = some (.attempt (.rehashing u)) ∧ mustChange s.store u.id = some true) ∨
        ∃ id new by_, s.call k = some (.storing id new by_) ∧ mustChange s.store id = some true ∧
          ∀ old, s.store.hashes id = some old → verifies sys.kdf new.password old)

end

/-! ## What the statements do to a flag -/

section

variable {d d' : LoginDb} {id k : UUID}

theorem mustChange_update {users : Users} {hashes : UUID → Option String} (p : UserRow → Bool)
    (f : UserRow → UserRow) (hf : ∀ u, (f u).id = u.id) :
    mustChange ⟨users.update p f hf, hashes⟩ k =
      (getUserByID users k).map fun u => (if p u then f u else u).mustChangePw := by
  unfold mustChange getUserByID
  rw [Table.lookup_update, Option.map_map]
  rfl

theorem mustChange_updateRow_of_same {users : Users} {hashes : UUID → Option String}
    (f : UserRow → UserRow) (hf : ∀ u, (f u).id = u.id)
    (h : ∀ u, (f u).mustChangePw = u.mustChangePw) :
    mustChange ⟨updateRow id f hf users, hashes⟩ k = mustChange ⟨users, hashes⟩ k := by
  refine (mustChange_update _ f hf).trans (congrArg (Option.map · _) (funext fun u => ?_))
  split
  · exact h u
  · rfl

theorem mustChange_applyFailure (P : LockoutPolicy) (i : AttemptInput) (u : UserRow) :
    mustChange (applyFailure P i u d) k = mustChange d k := by
  unfold applyFailure
  split
  · exact mustChange_updateRow_of_same (UserRow.fail i.now P.max P.lockFor) (fun _ => rfl)
      fun _ => rfl
  · rfl

theorem mustChange_setPasswordHash (hash : String) :
    mustChange (setPasswordHash id hash d) k = (mustChange d k).map fun must =>
      must && decide (k ≠ id) := by
  refine (mustChange_update _ UserRow.changedPw fun _ => rfl).trans ?_
  unfold mustChange
  rw [Option.map_map]
  refine Option.map_congr fun u hu => ?_
  have hid : u.id = k := (Table.lookup_eq_some.mp hu).2
  by_cases hk : k = id
  · rw [if_pos (decide_eq_true (hid.trans hk)), Function.comp_apply,
      decide_eq_false (not_not_intro hk), Bool.and_false]
    rfl
  · rw [if_neg fun hdec => hk (hid.symm.trans (of_decide_eq_true hdec)), Function.comp_apply,
      decide_eq_true hk, Bool.and_true]

def Keeps (d d' : LoginDb) : Prop :=
  ∀ id, mustChange d id = some true → mustChange d' id ≠ some false

theorem keeps_refl (d : LoginDb) : Keeps d d := by
  intro id h hcleared
  rw [h] at hcleared
  cases hcleared

theorem keeps_flag (p : UserRow → Bool) (hf : ∀ u, (UserRow.flag true u).id = u.id) :
    Keeps d { d with users := d.users.update p (UserRow.flag true) hf } := by
  intro id h hcleared
  obtain ⟨u, hu, hmust⟩ := Option.map_eq_some_iff.mp h
  rw [mustChange_update p _ hf, hu, Option.map_some, Option.some_inj] at hcleared
  split at hcleared
  · cases hcleared
  · rw [hmust] at hcleared
    cases hcleared

theorem keeps_createAccount {ci : String → String} {p : CreateUserParams} {hash : String}
    (h : createAccount ci id p hash d = some d') : Keeps d d' := by
  intro k hk hcleared
  obtain ⟨⟨u, users⟩, hcreate, rfl⟩ := Option.map_eq_some_iff.mp h
  obtain ⟨v, hv, hmust⟩ := Option.map_eq_some_iff.mp hk
  obtain ⟨hmem, hid⟩ := Table.lookup_eq_some.mp hv
  -- the row of the account is still there, and there is one row of each number
  have hold : getUserByID users k = some v :=
    Table.lookup_eq_some.mpr ⟨(Table.mem_insert (createUser_eq_some hcreate).1).mpr
      (.inl hmem), hid⟩
  unfold mustChange at hcleared
  rw [hold, Option.map_some, hmust] at hcleared
  cases hcleared

theorem keeps_deleteAccount : Keeps d (deleteAccount id d) := by
  intro k hk hcleared
  obtain ⟨u, hu, hmust⟩ := Option.map_eq_some_iff.mp hk
  obtain ⟨v, hv, hmust'⟩ := Option.map_eq_some_iff.mp hcleared
  obtain ⟨hmem, hid⟩ := Table.lookup_eq_some.mp hv
  have hsame : v = u :=
    Option.some.inj ((Table.lookup_eq_some.mpr ⟨(Table.mem_delete.mp hmem).1, hid⟩).symm.trans hu)
  rw [hsame, hmust] at hmust'
  cases hmust'

end

/-! ## Steps and runs -/

section

variable {sys : PasswordSystem} {P : LockoutPolicy} {s : PasswordPool sys} {k : ℕ}
  {i : PasswordInput}

theorem mustChange_attemptAct {env : PasswordEnv} {i : AttemptInput} {d : LoginDb} {pc : AttemptPc}
    {next : LoginDb × AttemptPc} (h : attemptAct env P i d pc = some next) (id : UUID) :
    mustChange next.1 id = mustChange d id ∨ ∃ u hash, pc = .rehashing u ∧ i.ok ∧
    i.newHash = some hash ∧
        next.1 = setPasswordHash u.id hash d := by
  revert h
  fun_cases attemptAct env P i d pc with
  | case8 u =>
    rintro ⟨⟩
    exact .inl (mustChange_applyFailure P i u)
  | case9 u hash hnew =>
    rintro ⟨⟩
    by_cases hok : i.ok
    · exact .inr ⟨u, hash, rfl, hok, hnew, if_pos hok⟩
    · exact .inl (by rw [if_neg hok])
  | case11 => rintro ⟨⟩
  | _ =>
    rintro ⟨⟩
    exact .inl rfl

theorem passwordAct_cases {d : LoginDb} {pc : PasswordPc sys.classes}
    {next : LoginDb × PasswordPc sys.classes} (h : passwordAct sys P i d pc = some next) :
    (∃ a next', pc = .attempt a ∧ attemptAct sys.env P i.toAttemptInput d a = some next' ∧
      next.1 = next'.1) ∨
    ((∀ a, pc ≠ .attempt a) ∧ Keeps d next.1) ∨
    ∃ id new by_ hash, pc = .storing id new by_ ∧ i.ok ∧ i.newHash = some hash ∧
      next.1 = setPasswordHash id hash d := by
  revert h
  fun_cases passwordAct sys P i d pc with
  | case1 a =>
    intro h
    obtain ⟨next', hact, rfl⟩ := Option.map_eq_some_iff.mp h
    exact .inl ⟨a, next', rfl, hact, rfl⟩
  | case7 id new by_ hash hnew hok =>
    rintro ⟨⟩
    exact .inr (.inr ⟨id, new, by_, hash, rfl, hok, hnew, rfl⟩)
  | case9 =>
    rintro ⟨⟩
    exact .inr (.inl ⟨fun _ => nofun, keeps_flag _ fun _ => rfl⟩)
  | case11 =>
    rintro ⟨⟩
    refine .inr (.inl ⟨fun _ => nofun, ?_⟩)
    split
    · exact keeps_flag _ fun _ => rfl
    · exact keeps_refl d
  | case12 p hash =>
    rintro ⟨⟩
    refine .inr (.inl ⟨fun _ => nofun, ?_⟩)
    split
    · cases hcreate : createAccount sys.ci i.fresh p hash d with
      | none => exact keeps_refl d
      | some d' => exact keeps_createAccount hcreate
    · exact keeps_refl d
  | case13 =>
    rintro ⟨⟩
    refine .inr (.inl ⟨fun _ => nofun, ?_⟩)
    split
    · exact keeps_deleteAccount
    · exact keeps_refl d
  | case14 | case15 => rintro ⟨⟩
  | _ =>
    rintro ⟨⟩
    exact .inr (.inl ⟨by rintro _ ⟨⟩, keeps_refl d⟩)

theorem hashes_setPasswordHash {d : LoginDb} {id : UUID} {old : String} (h : d.hashes id = some old)
    (hash : String) : (setPasswordHash id hash d).hashes id = some hash := by
  refine (Function.update_self id _ d.hashes).trans ?_
  rw [h, Option.map_some]

theorem rightful_of_not_clears (h : ¬ Clears sys s (.advance k i)) :
    Rightful sys P s (.advance k i) := by
  intro pc next hk hact
  rcases passwordAct_cases hact with ⟨a, next', rfl, hattempt, hnext⟩ | ⟨hother, hkeeps⟩ |
    ⟨id, new, by_, hash, rfl, hok, hnew, hnext⟩
  · have hsame : ∀ id, mustChange next.1 id = mustChange s.store id := by
      intro id
      rw [hnext]
      rcases mustChange_attemptAct hattempt id with hsame | ⟨u, hash, rfl, hok, hnew, hset⟩
      · exact hsame
      have hclear : mustChange s.store u.id ≠ some true :=
        fun hmust => h ⟨hok, by rw [hnew]; rfl, .inl ⟨u, hk, hmust⟩⟩
      rw [hset, mustChange_setPasswordHash]
      cases hmust : mustChange s.store id with
      | none => rfl
      | some must =>
        cases must with
        | false => rfl
        | true =>
          have hne : id ≠ u.id := fun hid => hclear (hid ▸ hmust)
          rw [Option.map_some, decide_eq_true hne, Bool.and_true]
    refine ⟨fun _ => hsame, fun id hmust hcleared => ?_⟩
    rw [hsame, hmust] at hcleared
    cases hcleared
  · refine ⟨fun ⟨a, ha⟩ => absurd ha (hother a), fun id hmust hcleared => ?_⟩
    exact absurd hcleared (hkeeps id hmust)
  · refine ⟨fun hattempt => ?_, fun id' hmust hcleared => ?_⟩
    · obtain ⟨a, ⟨⟩⟩ := hattempt
    · rw [hnext, mustChange_setPasswordHash, hmust, Option.map_some, Bool.true_and,
        Option.some_inj] at hcleared
      have hid : id' = id := not_not.mp (of_decide_eq_false hcleared)
      subst hid
      -- the account has a hash, and the new password is not the one it is of
      have hold : ∃ old, s.store.hashes id' = some old ∧
          verifies sys.kdf new.password old ≠ true := by
        by_contra hnone
        refine h ⟨hok, by rw [hnew]; rfl, .inr ⟨id', new, by_, hk, hmust, fun old hold => ?_⟩⟩
        by_contra hwrong
        exact hnone ⟨old, hold, hwrong⟩
      obtain ⟨old, hold, hwrong⟩ := hold
      refine ⟨new, by_, old, rfl, hold, Bool.eq_false_iff.mpr hwrong, ?_⟩
      rw [hnext, hashes_setPasswordHash hold, hnew]

theorem not_clears_of_rightful (h : Rightful sys P s (.advance k i)) :
    ¬ Clears sys s (.advance k i) := by
  rintro ⟨hok, hnew, hclears⟩
  obtain ⟨hash, hnew⟩ := Option.isSome_iff_exists.mp hnew
  have hcleared : ∀ {id}, mustChange s.store id = some true →
      mustChange (setPasswordHash id hash s.store) id = some false := by
    intro id hmust
    rw [mustChange_setPasswordHash, hmust, Option.map_some, decide_eq_false (not_not_intro rfl),
      Bool.and_false]
  rcases hclears with ⟨u, hk, hmust⟩ | ⟨id, new, by_, hk, hmust, hsame⟩
  · have hact : passwordAct sys P i s.store (.attempt (.rehashing u)) =
        some (setPasswordHash u.id hash s.store, .attempt (.returned (some u.id) (.ok u))) := by
      simp only [passwordAct, attemptAct, hnew, if_pos hok, Option.map_some]
    have hflag := (h _ _ hk hact).1 ⟨_, rfl⟩ u.id
    rw [hcleared hmust, hmust] at hflag
    cases hflag
  · have hact : passwordAct sys P i s.store (.storing id new by_) =
        some (setPasswordHash id hash s.store, by_.stored sys id) := by
      simp only [passwordAct, hnew, if_pos hok]
    obtain ⟨new', by', old, hpc, hold, hwrong, -⟩ := (h _ _ hk hact).2 id hmust (hcleared hmust)
    cases hpc
    rw [hsame old hold] at hwrong
    cases hwrong

end

/-- **A forced change survives** exactly the runs in which no login stores a hash for a flagged
account and no password of a flagged account is replaced by itself: in these no step of
`Authenticate` touches a flag, and a flag is cleared only where a password that the policy has
accepted takes the place of another. -/
theorem flag_cleared_rightfully_iff (sys : PasswordSystem) (P : LockoutPolicy)
    (s : PasswordPool sys) (ms : List PasswordMove) :
    Guarded (passwordStep sys P) (Rightful sys P) s ms ↔
      Guarded (passwordStep sys P) (fun s m => ¬ Clears sys s m) s ms := by
  refine guarded_congr fun s m => ?_
  cases m with
  | begin r => exact iff_of_true trivial not_false
  | advance k i => exact ⟨not_clears_of_rightful, rightful_of_not_clears⟩

/-- Each KDF is the identity. -/
def plainKdf : Kdf where
  verifyArgon2 password parts := .ok (decide (parts[5]? = some password.toList))
  verifyPBKDF2 password parts := .ok (decide (parts[4]? = some password.toList))

def asciiClasses : RuneClasses where
  isUpper := Char.isUpper
  isLower := Char.isLower
  isDigit := Char.isDigit
  isPunct c := "!#%&*,-./:;?@_".toList.contains c
  isSymbol c := "$+<=>^|~".toList.contains c

def fipsSystem : PasswordSystem := ⟨fun s => s, plainKdf, asciiClasses, true⟩

/-- The account 1 has a hash from before the migration. -/
def migrated : LoginDb where
  users := .single ⟨.ofNat 1, "alice", none, "", false, false, false, "local", 0, none⟩
  hashes := Function.update (fun _ => none) (.ofNat 1)
    (some "$argon2id$v=19$m=65536,t=3,p=4$c2FsdA$Correct-Horse-7")

def rightInput : PasswordInput :=
  ⟨⟨0, true, some "$pbkdf2-sha256$i=600000$c2FsdA$Correct-Horse-7"⟩, defaultPolicy, .ofNat 9⟩

/-- The request with so many steps, as call `k`. -/
def answered (r : PasswordRequest) (k n : ℕ) : List PasswordMove :=
  .begin r :: List.replicate n (.advance k rightInput)

def flagAfter (ms : List PasswordMove) : Option (Option Bool) :=
  (exec (passwordStep fipsSystem twoFailures) ⟨migrated, []⟩ ms).map fun s => mustChange s.store
    (.ofNat 1)

/-- The migration flags the account, and the next login with the old password clears the flag; so
does a change to the password that the account has. -/
theorem login_clears_flag : flagAfter (answered .flagNonFIPS 0 1) = some (some true) ∧
      flagAfter (answered .flagNonFIPS 0 1 ++
        answered (.authenticate ⟨"alice", "Correct-Horse-7"⟩) 1 4) =
        some (some false) ∧ flagAfter (answered .flagNonFIPS 0 1 ++
        answered (.changePassword (.ofNat 1) "Correct-Horse-7" "Correct-Horse-7") 1 3) =
          some (some false) := by
  decide +kernel

end Moorgate.Auth
