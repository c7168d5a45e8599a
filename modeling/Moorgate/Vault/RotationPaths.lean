import Moorgate.Vault.Rotation

/-!
# The two ways to rotate: `vault/rotate.go`, `vault/rotator.go`, `store/vault.go`

`rotate` and `rotateOne` store, change and revert alike (`attempt`), and then the scheduled one
keeps the policy: it marks a rotation, also one that had no host, and defers one that failed. The
handler keeps nothing. So from one state they end in one state exactly if what `rotateOne` writes
to the policy is what is there (`rotation_paths_agree_iff`). And `rotateOne` does not ask for an
external provider; its caller does.
-/

namespace Moorgate.Vault

open Framework Models Store Secretbox

/-! ## The policy -/

/-- The columns of `vault_secrets` for automatic rotation. -/
structure RotationPolicy where
  rotationIntervalDays : ℤ
  (lastRotatedAt nextRotationAt : Option Instant)
deriving DecidableEq

/-- Microseconds. -/
def day : Duration := 86400 * 1000000

/-- `CASE WHEN rotation_interval_days > 0 THEN at + … ELSE NULL END`. -/
def RotationPolicy.nextAfter (p : RotationPolicy) (t : Instant) : Option Instant :=
  if 0 < p.rotationIntervalDays then some (t + p.rotationIntervalDays * day) else none

def markVaultRotated (t : Instant) (p : RotationPolicy) : RotationPolicy :=
  { p with lastRotatedAt := some t, nextRotationAt := p.nextAfter t }

def deferVaultRotation (now : Instant) (p : RotationPolicy) : RotationPolicy :=
  { p with nextRotationAt := p.nextAfter now }

/-! ## The two paths -/

/-- The hosts are in the order of `HostsUsingCredential`. -/
structure Credential where
  tables : VaultTables
  policy : RotationPolicy
  hosts : List HostAccount

/-- What the calls return and draw while a rotation runs. -/
structure RotationCalls where
  hostsErr : Option String
  key : List UInt8
  (keyErr sealedErr : Option String)
  useFIPS : Bool
  newPw : List UInt8
  draws : Draws
  newID : UUID
  addErr : Option String
  attempts : List Attempt
  hostErr : String
  revertDraws : Draws
  revertID : UUID
  (revertErr markErr deferErr : Option String)
  now : Instant

inductive RotateFailure where
  | text (msg : String)
  | box (err : BoxError)

section

variable (C : Crypto) (B : Base64) (env : RotationCalls)

def RotationCalls.sealed (id : UUID) (st : Credential) : Except String String :=
  match env.sealedErr, getVaultSecretSealed id st.tables with
  | some err, _ => .error err
  | none, none => .error "no rows in result set"
  | none, some sealed => .ok sealed

def addVersion (err : Option String) (newID id : UUID) (sealed : String) (st : Credential) :
    Except String Credential :=
  match err, addVaultSecretVersion newID id sealed st.tables with
  | some err, _ => .error err
  | none, none => .error "no rows in result set"
  | none, some (_, tables) => .ok { st with tables }

/-- Puts the old value back; what comes of the two calls is ignored. -/
def RotationCalls.revert (id : UUID) (oldPw : List UInt8) (st : Credential) : Credential :=
  match secretboxSeal C B env.useFIPS env.revertDraws env.key oldPw with
  | .error _ => st
  | .ok sealedOld =>
    match addVersion env.revertErr env.revertID id sealedOld st with
    | .error _ | .ok st => st

def rotateOnHost (secret : VaultSecret) (host : HostAccount) (others : List HostAccount)
    (st : Credential) : Credential × Except RotateFailure Unit :=
  match env.keyErr with
  | some err => (st, .error (.text err))
  | none =>
    match env.sealed secret.id st with
    | .error _ => (st, .error (.text "could not load the credential"))
    | .ok sealed =>
      match secretboxOpen C B env.key sealed with
      | .error _ => (st, .error (.text "could not decrypt the credential"))
      | .ok oldPw =>
        match secretboxSeal C B env.useFIPS env.draws env.key env.newPw with
        | .error _ => (st, .error (.text "could not seal the new credential"))
        | .ok sealedNew =>
          match addVersion env.addErr env.newID secret.id sealedNew st with
          | .error _ => (st, .error (.text "could not store the new credential"))
          | .ok st =>
            match changePasswordOnHost oldPw env.newPw host.password env.attempts with
            | none =>
              (env.revert C B secret.id oldPw st,
                .error (.text ("rotation failed on host (credential reverted): " ++ env.hostErr)))
            | some pw => ({ st with hosts := { host with password := pw } :: others }, .ok ())

def rotate (secret : VaultSecret) (st : Credential) : Credential × Except RotateFailure Unit :=
  if secret.type ≠ .password then
    (st, .error (.text "only password credentials can be rotated automatically"))
  else if secret.externalProvider ≠ "" then
    (st, .error
      (.text
        "external-backed credentials are rotated in the external secrets manager, not by Fleet"))
  else
    match env.hostsErr, st.hosts with
    | some _, _ | none, [] =>
      (st, .error (.text "attach this credential to a host before rotating it"))
    | none, host :: others => rotateOnHost C B env secret host others st

/-- `MarkVaultRotated`; an error is logged or ignored. -/
def RotationCalls.mark (st : Credential) : Credential :=
  match env.markErr with
  | some _ => st
  | none => { st with policy := markVaultRotated env.now st.policy }

/-- `DeferVaultRotation`; an error is ignored. -/
def RotationCalls.defer (st : Credential) : Credential :=
  match env.deferErr with
  | some _ => st
  | none => { st with policy := deferVaultRotation env.now st.policy }

def rotateOneOnHost (sec : VaultSecret) (host : HostAccount) (others : List HostAccount)
    (st : Credential) : Credential × Except RotateFailure Unit :=
  match env.keyErr with
  | some err => (st, .error (.text err))
  | none =>
    match env.sealed sec.id st with
    | .error err => (st, .error (.text err))
    | .ok sealed =>
      match secretboxOpen C B env.key sealed with
      | .error err => (st, .error (.box err))
      | .ok oldPw =>
        match secretboxSeal C B env.useFIPS env.draws env.key env.newPw with
        | .error err => (st, .error (.box err))
        | .ok sealedNew =>
          match addVersion env.addErr env.newID sec.id sealedNew st with
          | .error err => (st, .error (.text err))
          | .ok st =>
            match changePasswordOnHost oldPw env.newPw host.password env.attempts with
            | none => (env.defer (env.revert C B sec.id oldPw st), .error (.text env.hostErr))
            | some pw =>
              (env.mark { st with hosts := { host with password := pw } :: others }, .ok ())

def rotateOne (sec : VaultSecret) (st : Credential) : Credential × Except RotateFailure Unit :=
  if sec.type ≠ .password then (st, .error (.text "not a password credential"))
  else
    match env.hostsErr, st.hosts with
    | some err, _ => (st, .error (.text err))
    | none, [] => (env.mark st, .error (.text "no host attached"))
    | none, host :: others => rotateOneOnHost C B env sec host others st

/-! ## What they share -/

inductive Outcome where
  | stopped -- before anything was stored
  | rotated | reverted
deriving DecidableEq

/-- Stores the new password, changes it on the host, and stores the old one again if that fails. -/
def attempt (id : UUID) (host : HostAccount) (others : List HostAccount) (st : Credential) :
    Credential × Outcome :=
  match env.keyErr, env.sealed id st with
  | none, .ok sealed =>
    match secretboxOpen C B env.key sealed, secretboxSeal C B env.useFIPS env.draws env.key
      env.newPw with
    | .ok oldPw, .ok sealedNew =>
      match addVersion env.addErr env.newID id sealedNew st with
      | .error _ => (st, .stopped)
      | .ok st =>
        match changePasswordOnHost oldPw env.newPw host.password env.attempts with
        | none => (env.revert C B id oldPw st, .reverted)
        | some pw => ({ st with hosts := { host with password := pw } :: others }, .rotated)
    | _, _ => (st, .stopped)
  | _, _ => (st, .stopped)

/-- What `rotateOne` does to the policy in the end. -/
def RotationCalls.settle (x : Credential × Outcome) : Credential :=
  match x.2 with
  | .stopped => x.1
  | .rotated => env.mark x.1
  | .reverted => env.defer x.1

end

section

variable {C : Crypto} {B : Base64} {env : RotationCalls} {sec : VaultSecret} {st : Credential}
  {host : HostAccount} {others : List HostAccount}

/-- Both make the attempt, and one of them settles the policy. -/
structure Shares (env : RotationCalls) (a : Credential × Outcome)
    (x y : Credential × Except RotateFailure Unit) : Prop where
  handler : x.1 = a.1
  handler_ok : x.2 = .ok () ↔ a.2 = .rotated
  scheduled : y.1 = env.settle a
  scheduled_ok : y.2 = .ok () ↔ a.2 = .rotated

theorem shares_of_error {a : Credential × Outcome} {y : Credential} {f g : RotateFailure}
    (ha : a.2 ≠ .rotated) (hy : y = env.settle a) : Shares env a (a.1, .error f) (y, .error g) :=
  ⟨rfl, iff_of_false nofun ha, hy, iff_of_false nofun ha⟩

theorem onHost_shares (C : Crypto) (B : Base64) (env : RotationCalls) (sec : VaultSecret)
    (host : HostAccount) (others : List HostAccount) (st : Credential) :
    Shares env (attempt C B env sec.id host others st) (rotateOnHost C B env sec host others st)
      (rotateOneOnHost C B env sec host others st) := by
  fun_cases rotateOnHost C B env sec host others st
  all_goals simp only [attempt, rotateOneOnHost, *]
  case case7 => exact ⟨rfl, iff_of_true rfl rfl, rfl, iff_of_true rfl rfl⟩
  all_goals exact shares_of_error nofun rfl

/-! ## The attempt -/

def Credential.version (id : UUID) (st : Credential) : Option ℕ :=
  (st.tables.secrets.lookup id).map VaultSecret.version

theorem addVersion_eq_ok {err : Option String} {newID id : UUID} {sealed : String}
    {st' : Credential} (h : addVersion err newID id sealed st = .ok st') :
    st'.policy = st.policy ∧ ∃ n, st.version id = some n ∧ st'.version id = some (n + 1) := by
  unfold addVersion at h
  split at h
  · cases h
  · cases h
  rename_i tables hadd
  cases h
  obtain ⟨s, hs, hs', -, -⟩ := addVaultSecretVersion_eq_some hadd
  refine ⟨rfl, s.version, ?_, ?_⟩
  · rw [Credential.version, hs]
    rfl
  · rw [Credential.version, hs']
    rfl

theorem revert_facts (C : Crypto) (B : Base64) (env : RotationCalls) {id : UUID}
    {oldPw : List UInt8} {n : ℕ} (hn : st.version id = some n) :
    (env.revert C B id oldPw st).policy = st.policy ∧ ∃ m, n ≤ m ∧
    (env.revert C B id oldPw st).version id = some m := by
  unfold RotationCalls.revert
  split
  · exact ⟨rfl, n, le_rfl, hn⟩
  split
  · exact ⟨rfl, n, le_rfl, hn⟩
  rename_i st' hadd
  obtain ⟨hpolicy, k, hk, hk'⟩ := addVersion_eq_ok hadd
  cases Option.some.inj (hn.symm.trans hk)
  exact ⟨hpolicy, n + 1, Nat.le_succ n, hk'⟩

theorem attempt_cases (C : Crypto) (B : Base64) (env : RotationCalls) (id : UUID)
    (host : HostAccount) (others : List HostAccount) (st : Credential) :
    attempt C B env id host others st = (st, .stopped) ∨
      ((attempt C B env id host others st).2 ≠ .stopped ∧
        (attempt C B env id host others st).1.policy = st.policy ∧
        (attempt C B env id host others st).1.version id ≠ st.version id) := by
  fun_cases attempt C B env id host others st with
  | case2 sealed _ _ oldPw sealedNew _ _ st' hadd =>
    obtain ⟨hpolicy, n, hn, hn'⟩ := addVersion_eq_ok hadd
    obtain ⟨hpolicy', m, hle, hm⟩ := revert_facts C B env hn'
    refine .inr ⟨by rintro ⟨⟩, hpolicy'.trans hpolicy, fun heq => ?_⟩
    have hmn : m = n := Option.some.inj (hm.symm.trans (heq.trans hn))
    omega
  | case3 sealed _ _ oldPw sealedNew _ _ st' hadd =>
    obtain ⟨hpolicy, n, hn, hn'⟩ := addVersion_eq_ok hadd
    refine .inr ⟨by rintro ⟨⟩, hpolicy, fun heq => ?_⟩
    have hmn : n + 1 = n := Option.some.inj (hn'.symm.trans (heq.trans hn))
    omega
  | _ => exact .inl rfl

end

/-! ## Agreement -/

section

variable (C : Crypto) (B : Base64) (env : RotationCalls)

def plaintexts (id : UUID) (st : Credential) : List (Option (List UInt8)) :=
  (st.tables.versions.rows.filter fun v => decide (v.secretId = id)).map fun v =>
    (secretboxOpen C B env.key v.sealed).toOption

structure SameRow (id : UUID) (a b : Credential) : Prop where
  version : a.version id = b.version id
  lastRotatedAt : a.policy.lastRotatedAt = b.policy.lastRotatedAt
  nextRotationAt : a.policy.nextRotationAt = b.policy.nextRotationAt
  plaintexts : plaintexts C B env id a = plaintexts C B env id b

/-- If there is a policy, the next rotation is one interval after this one. -/
def Rescheduled (p : RotationPolicy) : Prop :=
  0 < p.rotationIntervalDays → p.nextRotationAt = some (env.now + p.rotationIntervalDays * day)

structure PathsAgree (sec : VaultSecret) (st : Credential) : Prop where
  same : SameRow C B env sec.id (rotate C B env sec st).1 (rotateOne C B env sec st).1
  rotate : (rotate C B env sec st).2 = .ok () → Rescheduled env (rotate C B env sec st).1.policy
  rotateOne : (rotateOne C B env sec st).2 = .ok () →
    Rescheduled env (rotateOne C B env sec st).1.policy

/-- The policy is as if it had just been marked. -/
def Marked (p : RotationPolicy) : Prop :=
  p.lastRotatedAt = some env.now ∧ p.nextRotationAt = p.nextAfter env.now

/-- What `rotateOne` writes to the policy is there already. -/
def Coincide (sec : VaultSecret) (st : Credential) : Prop :=
  sec.type = .password → env.hostsErr = none →
    match st.hosts with
    | [] => env.markErr = none → Marked env st.policy
    | host :: others =>
      match (attempt C B env sec.id host others st).2 with
      | .stopped => True
      | .rotated =>
        sec.externalProvider = "" ∧ (env.markErr = none → Marked env st.policy) ∧
          Rescheduled env st.policy
      | .reverted =>
        sec.externalProvider = "" ∧
          (env.deferErr = none → st.policy.nextRotationAt = st.policy.nextAfter env.now)

variable {C B env} {sec : VaultSecret} {st : Credential} {id : UUID}

theorem SameRow.refl : SameRow C B env id st st := ⟨rfl, rfl, rfl, rfl⟩

theorem sameRow_mark :
    SameRow C B env id st (env.mark st) ↔ (env.markErr = none → Marked env st.policy) := by
  unfold RotationCalls.mark
  split
  · rename_i err herr
    rw [herr]
    exact iff_of_true .refl nofun
  · rename_i herr
    rw [herr]
    constructor
    · intro h _
      exact ⟨h.lastRotatedAt, h.nextRotationAt⟩
    · intro h
      obtain ⟨hlast, hnext⟩ := h rfl
      exact ⟨rfl, hlast, hnext, rfl⟩

theorem sameRow_defer : SameRow C B env id st (env.defer st) ↔
      (env.deferErr = none → st.policy.nextRotationAt = st.policy.nextAfter env.now) := by
  unfold RotationCalls.defer
  split
  · rename_i err herr
    rw [herr]
    exact iff_of_true .refl nofun
  · rename_i herr
    rw [herr]
    constructor
    · intro h _
      exact h.nextRotationAt
    · intro h
      exact ⟨rfl, rfl, h rfl, rfl⟩

theorem rescheduled_mark : Rescheduled env st.policy → Rescheduled env (env.mark st).policy := by
  unfold RotationCalls.mark
  split
  · exact id
  · intro _ hdays
    exact if_pos hdays

theorem version_settle (x : Credential × Outcome) : (env.settle x).version id = x.1.version id := by
  obtain ⟨st, o⟩ := x
  cases o with
  | stopped => rfl
  | rotated =>
    show (env.mark st).version id = st.version id
    unfold RotationCalls.mark
    split <;> rfl
  | reverted =>
    show (env.defer st).version id = st.version id
    unfold RotationCalls.defer
    split <;> rfl

/-- Where both give up, only what `rotateOne` writes can differ. -/
theorem pathsAgree_of_errors {f g : RotateFailure} {a b : Credential}
    (hrotate : rotate C B env sec st = (a, .error f))
    (hone : rotateOne C B env sec st = (b, .error g)) :
    PathsAgree C B env sec st ↔ SameRow C B env sec.id a b := by
  constructor
  · intro h
    have hsame := h.same
    rwa [hrotate, hone] at hsame
  · intro h
    refine ⟨by rwa [hrotate, hone], fun hok => ?_, fun hok => ?_⟩
    · rw [hrotate] at hok
      cases hok
    · rw [hone] at hok
      cases hok

theorem rotate_stops (C : Crypto) (B : Base64) (env : RotationCalls) (sec : VaultSecret)
    (st : Credential) (h : sec.externalProvider ≠ "" ∨ env.hostsErr ≠ none ∨ st.hosts = []) :
    ∃ f, rotate C B env sec st = (st, .error f) := by
  fun_cases rotate C B env sec st with
  | case5 _ hext host others herr hhosts =>
    rw [herr, hhosts] at h
    rcases h with h | h | h
    · exact absurd h hext
    · exact absurd rfl h
    · cases h
  | _ => exact ⟨_, rfl⟩

theorem pathsAgree_of_no_host (htype : sec.type = .password) (herr : env.hostsErr = none)
    (hhosts : st.hosts = []) :
    PathsAgree C B env sec st ↔ (env.markErr = none → Marked env st.policy) := by
  obtain ⟨f, hrotate⟩ := rotate_stops C B env sec st (.inr (.inr hhosts))
  have hone : rotateOne C B env sec st = (env.mark st, .error (.text "no host attached")) := by
    unfold rotateOne
    rw [if_neg (not_not_intro htype), herr, hhosts]
  rw [pathsAgree_of_errors hrotate hone, sameRow_mark]

variable {host : HostAccount} {others : List HostAccount} (htype : sec.type = .password)
  (herr : env.hostsErr = none) (hhosts : st.hosts = host :: others)

include htype herr hhosts

theorem rotate_onHost
    (hext : sec.externalProvider = "") :
    rotate C B env sec st = rotateOnHost C B env sec host others st := by
  unfold rotate
  rw [if_neg (not_not_intro htype), if_neg (not_not_intro hext), herr, hhosts]

theorem rotateOne_onHost :
    rotateOne C B env sec st = rotateOneOnHost C B env sec host others st := by
  unfold rotateOne
  rw [if_neg (not_not_intro htype), herr, hhosts]

theorem pathsAgree_of_stopped
    (hstop : attempt C B env sec.id host others st = (st, .stopped)) :
    PathsAgree C B env sec st := by
  have hshares := onHost_shares C B env sec host others st
  rw [hstop, ← rotateOne_onHost htype herr hhosts] at hshares
  have hone : (rotateOne C B env sec st).2 ≠ .ok () :=
    fun hok => nomatch hshares.scheduled_ok.mp hok
  have hrotate : (rotate C B env sec st).1 = st ∧ (rotate C B env sec st).2 ≠ .ok () := by
    by_cases hext : sec.externalProvider = ""
    · rw [← rotate_onHost htype herr hhosts hext] at hshares
      exact ⟨hshares.handler, fun hok => nomatch hshares.handler_ok.mp hok⟩
    · obtain ⟨f, hf⟩ := rotate_stops C B env sec st (.inl hext)
      rw [hf]
      exact ⟨rfl, nofun⟩
  refine ⟨?_, fun hok => absurd hok hrotate.2, fun hok => absurd hok hone⟩
  rw [hrotate.1, hshares.scheduled]
  exact .refl

theorem pathsAgree_onHost : PathsAgree C B env sec st ↔
      match (attempt C B env sec.id host others st).2 with
      | .stopped => True
      | .rotated =>
        sec.externalProvider = "" ∧ (env.markErr = none → Marked env st.policy) ∧
          Rescheduled env st.policy
      | .reverted =>
        sec.externalProvider = "" ∧
          (env.deferErr = none → st.policy.nextRotationAt = st.policy.nextAfter env.now) := by
  have hshares := onHost_shares C B env sec host others st
  have hcases := attempt_cases C B env sec.id host others st
  rw [← rotateOne_onHost htype herr hhosts] at hshares
  cases hattempt : attempt C B env sec.id host others st with
  | mk a o =>
  rw [hattempt] at hshares hcases
  rcases hcases with hstop | ⟨hne, hpolicy, hversion⟩
  · cases hstop
    exact iff_of_true (pathsAgree_of_stopped htype herr hhosts hattempt) trivial
  · by_cases hext : sec.externalProvider = ""
    · rw [← rotate_onHost htype herr hhosts hext] at hshares
      have hrotate : (rotate C B env sec st).1 = a := hshares.handler
      cases o with
      | stopped => exact absurd rfl hne
      | rotated =>
        have hone : (rotateOne C B env sec st).1 = env.mark a := hshares.scheduled
        rw [← hpolicy]
        constructor
        · intro h
          have hsame := h.same
          have hresched := h.rotate (hshares.handler_ok.mpr rfl)
          rw [hrotate] at hsame hresched
          rw [hone] at hsame
          exact ⟨hext, sameRow_mark.mp hsame, hresched⟩
        · rintro ⟨-, hmarked, hresched⟩
          refine ⟨?_, fun _ => ?_, fun _ => ?_⟩
          · rw [hrotate, hone]
            exact sameRow_mark.mpr hmarked
          · rw [hrotate]
            exact hresched
          · rw [hone]
            exact rescheduled_mark hresched
      | reverted =>
        have hone : (rotateOne C B env sec st).1 = env.defer a := hshares.scheduled
        rw [← hpolicy]
        constructor
        · intro h
          have hsame := h.same
          rw [hrotate, hone] at hsame
          exact ⟨hext, sameRow_defer.mp hsame⟩
        · rintro ⟨-, hdeferred⟩
          refine ⟨?_, fun hok => ?_, fun hok => ?_⟩
          · rw [hrotate, hone]
            exact sameRow_defer.mpr hdeferred
          · cases hshares.handler_ok.mp hok
          · cases hshares.scheduled_ok.mp hok
    · -- the handler has not touched the credential, `rotateOne` has added a version
      refine iff_of_false (fun h => ?_) (fun h => ?_)
      · obtain ⟨f, hf⟩ := rotate_stops C B env sec st (.inl hext)
        have hsame := h.same.version
        rw [hf, hshares.scheduled, version_settle] at hsame
        exact hversion hsame.symm
      · cases o with
        | stopped => exact hne rfl
        | rotated | reverted => exact hext h.1

end

/-- **The two rotation paths agree** exactly if what `rotateOne` writes to the policy is there
already, and it does not rotate an external credential. -/
theorem rotation_paths_agree_iff (C : Crypto) (B : Base64) (env : RotationCalls) (sec : VaultSecret)
    (st : Credential) : PathsAgree C B env sec st ↔ Coincide C B env sec st := by
  unfold Coincide
  by_cases htype : sec.type = .password
  · cases herr : env.hostsErr with
    | some err =>
      have hfail : env.hostsErr ≠ none := by
        rw [herr]
        exact nofun
      obtain ⟨f, hrotate⟩ := rotate_stops C B env sec st (.inr (.inl hfail))
      have hone : rotateOne C B env sec st = (st, .error (.text err)) := by
        unfold rotateOne
        rw [if_neg (not_not_intro htype), herr]
      rw [pathsAgree_of_errors hrotate hone]
      exact iff_of_true .refl fun _ h => nomatch h
    | none =>
      cases hhosts : st.hosts with
      | nil =>
        rw [pathsAgree_of_no_host htype herr hhosts]
        exact ⟨fun h _ _ => h, fun h => h htype rfl⟩
      | cons host others =>
        rw [pathsAgree_onHost htype herr hhosts]
        exact ⟨fun h _ _ => h, fun h => h htype rfl⟩
  · have hrotate : rotate C B env sec st =
        (st, .error (.text "only password credentials can be rotated automatically")) :=
        if_pos htype
    have hone : rotateOne C B env sec st = (st, .error (.text "not a password credential")) :=
      if_pos htype
    rw [pathsAgree_of_errors hrotate hone]
    exact iff_of_true .refl fun h => absurd h htype

def dueInTen : Credential where
  tables := (passwordOn []).tables
  policy := ⟨30, none, some (10 * day)⟩
  hosts := [⟨⟨1⟩, [0]⟩]

def smooth : RotationCalls where
  hostsErr := none
  key := [1]
  keyErr := none
  sealedErr := none
  useFIPS := false
  newPw := [5]
  draws := drawn
  newID := ⟨2⟩
  addErr := none
  attempts := [⟨true, true⟩]
  hostErr := ""
  revertDraws := drawn
  revertID := ⟨3⟩
  revertErr := none
  markErr := none
  deferErr := none
  now := 0

/-- Both rotate the password. After the handler the next rotation is still due in ten days and there
was no last one, after `rotateOne` it is due in thirty. -/
theorem rotate_leaves_schedule :
    (rotate freeCrypto letterBase64 smooth ⟨⟨9⟩, .password, "root", "", 1⟩ dueInTen).1.policy =
        ⟨30, none, some (10 * day)⟩ ∧
      (rotateOne freeCrypto letterBase64 smooth ⟨⟨9⟩, .password, "root", "", 1⟩ dueInTen).1.policy =
        ⟨30, some 0, some (30 * day)⟩ ∧
      ¬ PathsAgree freeCrypto letterBase64 smooth ⟨⟨9⟩, .password, "root", "", 1⟩ dueInTen := by
  exact ⟨by decide +kernel, by decide +kernel,
    fun h => absurd h.same.lastRotatedAt (by decide +kernel)⟩

end Moorgate.Vault
