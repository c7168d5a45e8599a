import Moorgate.Framework.Base.Calls
import Moorgate.Secretbox.Envelope
import Moorgate.Store.Vault

/-!
# Rotation of a vaulted password: `vault/rotate.go`, `vault/rotator.go`

A rotation reads the current password, stores a new one as the current version, changes it on the
host with the old one, and stores the old one again when that fails. It runs on demand (`rotate`)
and on a schedule (`rotateOne`), with no lock between the two, and it changes the first of the
hosts that use the credential.

The vault and the hosts agree at the end of the runs that meet `Undisturbed`: a rotation reads the
current version while no other is under way, a password is changed on a host only if it is the only
one, and the old version is stored again when it has to be.
-/

namespace Moorgate.Vault

open Framework Models Store Secretbox

/-- A host that uses the credential, and the password its account has. -/
structure HostAccount where
  id : UUID
  password : List UInt8
deriving DecidableEq

/-- What happens on one address of a host once the login has succeeded. -/
structure Attempt where
  (newSession chpasswd : Bool)

/-- The password the host has afterwards; `none` when it was not changed. A dial
succeeds iff it presents the current password. -/
def changePasswordOnHost (oldPw newPw current : List UInt8) : List Attempt → Option (List UInt8)
  | [] => none
  | a :: rest =>
    if oldPw ≠ current then changePasswordOnHost oldPw newPw current rest
    else if a.newSession = false then changePasswordOnHost oldPw newPw current rest
    else if a.chpasswd then some newPw
    else none

theorem changePasswordOnHost_eq_some {oldPw newPw current pw : List UInt8} {attempts : List Attempt}
    (h : changePasswordOnHost oldPw newPw current attempts = some pw) : pw = newPw := by
  induction attempts with
  | nil => cases h
  | cons a rest ih =>
    rw [changePasswordOnHost] at h
    split at h
    · exact ih h
    split at h
    · exact ih h
    · split at h
      · exact (Option.some.inj h).symm
      · cases h

inductive RotateKind where
  | rotate (userID : UUID)
  | rotateOne

inductive RotateError where
  | notFound -- "credential not found"
  | notPassword -- "only password credentials can be rotated automatically"
  -- "external-backed credentials are rotated in the external secrets manager, not by Fleet"
  | external
  | noHost -- "attach this credential to a host before rotating it"
  | load -- "could not load the credential"
  | decrypt (err : BoxError)
  | sealNew (err : BoxError)
  | store -- "could not store the new credential"
  | hostUnchanged -- "rotation failed on host (credential reverted)"
deriving DecidableEq

inductive RotatePc where
  | loading (kind : RotateKind) -- `GetVaultSecret`, `HostsUsingCredential`
  | reading -- `GetVaultSecretSealed`
  | adding (oldPw newPw : List UInt8) (sealed : String) -- `AddVaultSecretVersion`
  | changing (oldPw newPw : List UInt8) -- the host
  | reverting (oldPw : List UInt8) -- `AddVaultSecretVersion` of the old value
  | returned (result : Except RotateError Unit)

structure RotateInput where
  useFIPS : Bool
  draws : Draws
  newPw : List UInt8
  newID : UUID
  attempts : List Attempt

/-- The hosts in the order of `HostsUsingCredential`. -/
structure RotationStore where
  tables : VaultTables
  hosts : List HostAccount

def rotatable (kind : RotateKind) (sec : VaultSecret) (hosts : List HostAccount) :
    Option RotateError :=
  if sec.type ≠ .password then some .notPassword
  else
    match kind with
    | .rotate _ =>
      if sec.externalProvider ≠ "" then some .external
      else if hosts = [] then some .noHost
      else none
    | .rotateOne => if hosts = [] then some .noHost else none

def rotateAct (C : Crypto) (B : Base64) (key : List UInt8) (credID : UUID) (i : RotateInput)
    (st : RotationStore) : RotatePc → Option (RotationStore × RotatePc)
  | .loading kind =>
    match st.tables.secrets.lookup credID with
    | none => some (st, .returned (.error .notFound))
    | some sec =>
      match rotatable kind sec st.hosts with
      | some err => some (st, .returned (.error err))
      | none => some (st, .reading)
  | .reading =>
    match getVaultSecretSealed credID st.tables with
    | none => some (st, .returned (.error .load))
    | some sealed =>
      match secretboxOpen C B key sealed with
      | .error err => some (st, .returned (.error (.decrypt err)))
      | .ok oldPw =>
        match secretboxSeal C B i.useFIPS i.draws key i.newPw with
        | .error err => some (st, .returned (.error (.sealNew err)))
        | .ok sealedNew => some (st, .adding oldPw i.newPw sealedNew)
  | .adding oldPw newPw sealedNew =>
    match addVaultSecretVersion i.newID credID sealedNew st.tables with
    | none => some (st, .returned (.error .store))
    | some (_, tables) => some ({ st with tables }, .changing oldPw newPw)
  | .changing oldPw newPw =>
    match st.hosts with
    | [] => some (st, .reverting oldPw)
    | host :: others =>
      match changePasswordOnHost oldPw newPw host.password i.attempts with
      | none => some (st, .reverting oldPw)
      | some pw =>
        some ({ st with hosts := { host with password := pw } :: others }, .returned (.ok ()))
  | .reverting oldPw =>
    -- what comes of the two calls is ignored
    match secretboxSeal C B i.useFIPS i.draws key oldPw with
    | .error _ => some (st, .returned (.error .hostUnchanged))
    | .ok sealedOld =>
      match addVaultSecretVersion i.newID credID sealedOld st.tables with
      | none => some (st, .returned (.error .hostUnchanged))
      | some (_, tables) => some ({ st with tables }, .returned (.error .hostUnchanged))
  | .returned _ => none

abbrev RotatePool := Pool RotationStore RotatePc
abbrev RotateMove := Move RotateKind RotateInput

def rotateStep (C : Crypto) (B : Base64) (key : List UInt8) (credID : UUID) :
    RotatePool → RotateMove → Option RotatePool :=
  poolStep RotatePc.loading (rotateAct C B key credID)

def RotatePc.underWay : RotatePc → Bool
  | .adding _ _ _ | .changing _ _ | .reverting _ => true
  | _ => false

def RotatePc.finished : RotatePc → Bool
  | .returned _ => true
  | _ => false

section

variable (C : Crypto) (B : Base64) (key : List UInt8) (credID : UUID)

def vaultPassword (t : VaultTables) : Option (List UInt8) :=
  (getVaultSecretSealed credID t).bind fun sealed => (secretboxOpen C B key sealed).toOption

def OnAllHosts (st : RotationStore) (pw : List UInt8) : Prop :=
  ∀ host ∈ st.hosts, host.password = pw

def Agree (st : RotationStore) : Prop :=
  ∃ pw, vaultPassword C B key credID st.tables = some pw ∧ OnAllHosts st pw

/-- The statement finds what it needs to leave the vault and the host in
agreement. -/
def RotatePc.undisturbed (i : RotateInput) (s : RotatePool) : RotatePc → Prop
  | .reading => ∀ q ∈ s.calls, q.underWay = false
  | .changing oldPw newPw => ∀ host ∈ s.store.hosts.head?,
      (changePasswordOnHost oldPw newPw host.password i.attempts).isSome → s.store.hosts.length = 1
  | .reverting oldPw => ∃ sealed ∈ (secretboxSeal C B i.useFIPS i.draws key oldPw).toOption,
      (addVaultSecretVersion i.newID credID sealed s.store.tables).isSome
  | _ => True

instance (i : RotateInput) (s : RotatePool) (pc : RotatePc) :
    Decidable (RotatePc.undisturbed C B key credID i s pc) := by
  unfold RotatePc.undisturbed
  split <;> infer_instance

def Undisturbed (s : RotatePool) : RotateMove → Prop
  | .begin _ => True
  | .advance c i => ∀ pc ∈ s.call c, pc.undisturbed C B key credID i s

instance (s : RotatePool) (m : RotateMove) : Decidable (Undisturbed C B key credID s m) := by
  unfold Undisturbed
  split <;> infer_instance

/-- What is known while the call is under way. -/
def RotatePc.sound (st : RotationStore) : RotatePc → Prop
  | .adding oldPw newPw sealed => vaultPassword C B key credID st.tables = some oldPw ∧
      OnAllHosts st oldPw ∧ (Stored.text sealed).sealedAs C B key newPw
  | .changing oldPw newPw => vaultPassword C B key credID st.tables = some newPw ∧
      OnAllHosts st oldPw
  | .reverting oldPw => OnAllHosts st oldPw
  | _ => True

structure InStep (s : RotatePool) : Prop where
  alone : ∀ {c d p q}, c ≠ d → s.call c = some p → s.call d = some q → p.underWay →
    q.underWay = false
  sound : ∀ q ∈ s.calls, q.sound C B key credID s.store
  agree : (∀ q ∈ s.calls, q.underWay = false) → Agree C B key credID s.store

variable {C B key credID}

variable {sealed : String} {t : VaultTables} {pw : List UInt8}

theorem vaultPassword_of_sealed (hcurrent : getVaultSecretSealed credID t = some sealed)
    (hsealed : (Stored.text sealed).sealedAs C B key pw) :
    vaultPassword C B key credID t = some pw := by
  have hopen : secretboxOpen C B key sealed = .ok pw := hsealed.opens
  rw [vaultPassword, hcurrent, Option.bind_some, hopen]
  rfl

theorem vaultPassword_add {newID : UUID} {t' : VaultTables} {n : ℕ}
    (h : addVaultSecretVersion newID credID sealed t = some (n, t'))
    (hsealed : (Stored.text sealed).sealedAs C B key pw) :
    vaultPassword C B key credID t' = some pw :=
  vaultPassword_of_sealed (getVaultSecretSealed_add h) hsealed

variable {st : RotationStore} {pc : RotatePc}

theorem RotatePc.sound_of_not_underWay (h : pc.underWay = false) : pc.sound C B key credID st := by
  cases pc with
  | adding oldPw newPw sealed | changing oldPw newPw | reverting oldPw => cases h
  | loading kind | reading | returned r => exact trivial

variable {i : RotateInput} {s : RotatePool} {pc' : RotatePc}

theorem rotateAct_before (hidle : pc.underWay = false) (hdist : pc.undisturbed C B key credID i s)
    (hagree : (∀ q ∈ s.calls, q.underWay = false) → Agree C B key credID s.store)
    (hact : rotateAct C B key credID i s.store pc = some (st, pc')) :
    st = s.store ∧ pc'.sound C B key credID st ∧
    (pc'.underWay → ∀ q ∈ s.calls, q.underWay = false) := by
  revert hact
  fun_cases rotateAct C B key credID i s.store pc with
  | case7 sealed hsealed oldPw hopen sealedNew hseal =>
    rintro ⟨⟩
    obtain ⟨pw, hvault, hhosts⟩ := hagree hdist
    have hcur : vaultPassword C B key credID s.store.tables = some oldPw := by
      rw [vaultPassword, hsealed, Option.bind_some, hopen]
      rfl
    obtain rfl : oldPw = pw := Option.some.inj (hcur.symm.trans hvault)
    exact ⟨rfl, ⟨hcur, hhosts, sealedAs_of_secretboxSeal hseal⟩, fun _ => hdist⟩
  | case1 | case2 | case3 | case4 | case5 | case6 =>
    rintro ⟨⟩
    exact ⟨rfl, trivial, fun h => absurd h Bool.false_ne_true⟩
  | case16 => exact nofun
  | _ => cases hidle

/-- A call that is under way stays so with what is known of it, or finishes in
agreement. -/
theorem rotateAct_underWay (hmid : pc.underWay) (hdist : pc.undisturbed C B key credID i s)
    (hsound : pc.sound C B key credID s.store)
    (hact : rotateAct C B key credID i s.store pc = some (st, pc')) :
    pc'.sound C B key credID st ∧ (pc'.underWay = false → Agree C B key credID st) := by
  revert hact
  fun_cases rotateAct C B key credID i s.store pc with
  | case8 oldPw =>
    obtain ⟨hvault, hhosts, -⟩ := hsound
    rintro ⟨⟩
    exact ⟨trivial, fun _ => ⟨oldPw, hvault, hhosts⟩⟩
  | case9 oldPw newPw sealed n tables hadd =>
    obtain ⟨-, hhosts, hsealed⟩ := hsound
    rintro ⟨⟩
    exact ⟨⟨vaultPassword_add hadd hsealed, hhosts⟩, nofun⟩
  | case10 | case11 =>
    rintro ⟨⟩
    exact ⟨hsound.2, nofun⟩
  | case12 oldPw newPw host others hlist pw hchange =>
    obtain ⟨hvault, hhosts⟩ := hsound
    rintro ⟨⟩
    refine ⟨trivial, fun _ => ⟨newPw, hvault, ?_⟩⟩
    obtain rfl := changePasswordOnHost_eq_some hchange
    have hone : s.store.hosts.length = 1 := hdist host (by rw [hlist]; rfl) (by rw [hchange]; rfl)
    have hothers : others = [] := by
      rw [hlist, List.length_cons] at hone
      exact List.length_eq_zero_iff.mp (by omega)
    intro h hh
    rw [hothers] at hh
    rw [List.mem_singleton.mp hh]
  | case13 oldPw err hseal =>
    obtain ⟨sealed, hsealed, -⟩ := hdist
    rw [hseal] at hsealed
    cases hsealed
  | case14 oldPw sealedOld hseal hadd =>
    obtain ⟨sealed, hsealed, hadd'⟩ := hdist
    rw [hseal] at hsealed
    cases hsealed
    rw [hadd] at hadd'
    cases hadd'
  | case15 oldPw sealedOld hseal n tables hadd =>
    rintro ⟨⟩
    exact ⟨trivial,
      fun _ => ⟨oldPw, vaultPassword_add hadd (sealedAs_of_secretboxSeal hseal), hsound⟩⟩
  | _ => cases hmid

theorem rotateStep_inStep {s' : RotatePool} {m : RotateMove} (hi : InStep C B key credID s)
    (hg : Undisturbed C B key credID s m) (hstep : rotateStep C B key credID s m = some s') :
    InStep C B key credID s' := by
  have hsymm {p q : RotatePc} (h : p.underWay → q.underWay = false) :
      q.underWay → p.underWay = false := by
    intro hq
    by_contra hp
    exact absurd (hq.symm.trans (h (Bool.of_not_eq_false hp))) (by decide)
  rcases poolStep_cases hstep with ⟨kind, rfl, rfl⟩ | ⟨c, i, pc, st, pc', rfl, hc, hact, rfl⟩
  · constructor
    · exact Pool.pair_enter hsymm hi.alone fun q _ hmid => (nomatch hmid)
    · exact Pool.forall_enter hi.sound trivial
    · intro hall
      exact hi.agree fun q hq => hall q (List.mem_append_left _ hq)
  have hdist := hg pc hc
  have hmem := Pool.mem_of_call hc
  cases hway : pc.underWay with
  | false =>
    obtain ⟨rfl, hnew, halone⟩ := rotateAct_before hway hdist hi.agree hact
    constructor
    · exact Pool.pair_put hsymm hi.alone fun _ hq hmid => halone hmid _ (Pool.mem_of_call hq)
    · exact Pool.forall_put hi.sound hnew
    intro hall
    apply hi.agree
    intro q hq
    rcases Pool.mem_put_of_mem hc hq s.store pc' with rfl | hq'
    · exact hway
    · exact hall q hq'
  | true =>
    obtain ⟨hnew, hagree⟩ := rotateAct_underWay hway hdist (hi.sound pc hmem) hact
    have hothers {d : ℕ} {q : RotatePc} (hne : d ≠ c) (hq : s.call d = some q) :
        q.underWay = false :=
      hi.alone hne.symm hc hq hway
    constructor
    · exact Pool.pair_put hsymm hi.alone fun hne hq _ => hothers hne hq
    · -- the store has changed, but no other call relies on it
      intro q hq
      obtain ⟨d, hd⟩ := List.mem_iff_getElem?.mp hq
      rcases Pool.call_put hd with ⟨-, rfl⟩ | ⟨hne, hq'⟩
      · exact hnew
      · exact RotatePc.sound_of_not_underWay (hothers hne hq')
    · intro hall
      apply hagree
      apply hall
      exact List.mem_set (List.getElem?_eq_some_iff.mp hc).1 pc'

end

/-- **The vault and the hosts agree after rotation** in the undisturbed runs: once
every rotation has finished, the current version of the vault is the password of
every host that uses the credential. -/
theorem vault_agrees_after_rotations (C : Crypto) (B : Base64) (key : List UInt8) (credID : UUID)
    (st : RotationStore) (s : RotatePool) (moves : List RotateMove)
    (hstart : Agree C B key credID st)
    (hrun : exec (rotateStep C B key credID) ⟨st, []⟩ moves = some s)
    (hg : Guarded (rotateStep C B key credID) (Undisturbed C B key credID) ⟨st, []⟩ moves)
    (hdone : ∀ q ∈ s.calls, q.finished) : Agree C B key credID s.store := by
  have hinit : InStep C B key credID ⟨st, []⟩ :=
    ⟨fun _ hp => (nomatch hp), fun _ h => (nomatch h), fun _ => hstart⟩
  have hi : InStep C B key credID s := exec_invariant rotateStep_inStep hg hrun hinit
  apply hi.agree
  intro q hq
  have hfin := hdone q hq
  cases q with
  | returned r => rfl
  | loading kind | reading | adding oldPw newPw sealed | changing oldPw newPw | reverting oldPw =>
    cases hfin

def passwordOn (hosts : List UUID) : RotationStore where
  tables :=
    { secrets := ⟨[⟨⟨9⟩, .password, "root", "", 1⟩], by decide⟩
      versions := ⟨[⟨⟨1⟩, ⟨9⟩, 1, letterBase64.encodeToString
        (magic ++ (zeros 16).1 ++ (zeros 12).1 ++ freeAead.encrypt (tagKey 2 [1]) (zeros 12) [0])⟩],
        by decide⟩ }
  hosts := hosts.map fun id => ⟨id, [0]⟩

theorem passwordOn_agree (hosts : List UUID) :
    Agree freeCrypto letterBase64 [1] ⟨9⟩ (passwordOn hosts) := by
  have hsealed : (Stored.text (letterBase64.encodeToString (magic ++ (zeros 16).1 ++ (zeros 12).1 ++
      freeAead.encrypt (tagKey 2 [1]) (zeros 12) [0]))).sealedAs freeCrypto letterBase64 [1] [0] :=
    ⟨_, letterBase64.decode_encode _, .v2 (zeros 16) (zeros 12)⟩
  have hcurrent (sealed : String) : getVaultSecretSealed ⟨9⟩ ⟨⟨[⟨⟨9⟩, .password, "root", "", 1⟩],
      by decide⟩, ⟨[⟨⟨1⟩, ⟨9⟩, 1, sealed⟩], List.nodup_singleton _⟩⟩ = some sealed := by
    rfl
  refine ⟨[0], ?_, ?_⟩
  · exact vaultPassword_of_sealed (hcurrent _) hsealed
  · intro host hhost
    obtain ⟨id, -, rfl⟩ := List.mem_map.mp hhost
    rfl

def rotateMove (c : ℕ) (pw : UInt8) (newID : UUID) (chpasswd : Bool) : RotateMove :=
  .advance c ⟨false, drawn, [pw], newID, [⟨true, chpasswd⟩]⟩

/-- A rotation, and one after it that fails on the host. -/
def rotationsInTurn : List RotateMove :=
  (.begin .rotateOne :: List.replicate 4 (rotateMove 0 5 ⟨2⟩ true)) ++
  (.begin (.rotate ⟨7⟩) :: List.replicate 4 (rotateMove 1 6 ⟨3⟩ false)) ++ [rotateMove 1 6 ⟨4⟩ true]

theorem vault_agrees_after_rotations_in_turn : ∃ s,
    exec (rotateStep freeCrypto letterBase64 [1] ⟨9⟩) ⟨passwordOn [⟨1⟩],
      []⟩ rotationsInTurn = some s ∧
    s.store.hosts = [⟨⟨1⟩, [5]⟩] ∧ Agree freeCrypto letterBase64 [1] ⟨9⟩ s.store := by
  refine exists_of_view (fun s => (s.store.hosts, s.calls.map RotatePc.finished))
    ([⟨⟨1⟩, [5]⟩], [true, true]) (by decide +kernel) fun s hs hfacts => ?_
  obtain ⟨hhosts, hfinished⟩ := Prod.mk.inj hfacts
  refine ⟨hhosts, ?_⟩
  refine vault_agrees_after_rotations freeCrypto letterBase64 [1] ⟨9⟩ (passwordOn [⟨1⟩]) s
    rotationsInTurn (passwordOn_agree _) hs (by decide +kernel) ?_
  intro q hq
  have hmem : q.finished ∈ s.calls.map RotatePc.finished := List.mem_map.mpr ⟨q, hq, rfl⟩
  rw [hfinished] at hmem
  simpa using hmem

/-- One rotation of a credential that two hosts use; and two rotations on one
host that both read the current version before either stores a new one. All have
finished, and the vault and the hosts differ. -/
theorem rotation_leaves_vault_and_host_apart :
    (∃ s, exec (rotateStep freeCrypto letterBase64 [1] ⟨9⟩) ⟨passwordOn [⟨1⟩, ⟨2⟩], []⟩
        (.begin .rotateOne :: List.replicate 4 (rotateMove 0 5 ⟨2⟩ true)) = some s ∧
      s.calls.map RotatePc.finished = [true] ∧
      vaultPassword freeCrypto letterBase64 [1] ⟨9⟩ s.store.tables = some [5] ∧
      s.store.hosts = [⟨⟨1⟩, [5]⟩, ⟨⟨2⟩, [0]⟩]) ∧
    (∃ s, exec (rotateStep freeCrypto letterBase64 [1] ⟨9⟩) ⟨passwordOn [⟨1⟩], []⟩
        [.begin .rotateOne, .begin (.rotate ⟨7⟩), rotateMove 0 5 ⟨2⟩ true, rotateMove 1 6 ⟨3⟩ true,
          rotateMove 0 5 ⟨2⟩ true, rotateMove 1 6 ⟨3⟩ true, rotateMove 0 5 ⟨2⟩ true,
          rotateMove 1 6 ⟨3⟩ true, rotateMove 0 5 ⟨2⟩ true, rotateMove 1 6 ⟨3⟩ true,
          rotateMove 1 6 ⟨4⟩ true] = some s ∧ s.calls.map RotatePc.finished = [true, true] ∧
      vaultPassword freeCrypto letterBase64 [1] ⟨9⟩ s.store.tables = some [0] ∧
      s.store.hosts = [⟨⟨1⟩, [5]⟩]) := by
  constructor
  all_goals exact exists_of_any (by decide +kernel)

end Moorgate.Vault
