import Moorgate.Identity.Renewal

/-!
# The tier of a host credential: `EnsureHostCredential` and `LoginTier`

A connection asks for the principals of its tier and presents the credential that the vault has
for its session and host. `EnsureHostCredential` looks at the age of that credential only. So it
has the principals that are asked for unless a call meets a credential of another tier that is
still fresh (`Reuses`).
-/

namespace Moorgate.Identity

open Framework Models Store

/-- The account on the host and the principals for it; no principals stand for the default. -/
def loginTier (hostSudo : Bool) (sshUser username : String) : String × List String :=
  if hostSudo then (sshUser, []) else (sshUser ++ "-login",
    [principalGlobalLogin, principalUser username])

structure EnsureCall where
  now : Instant
  signs : Bool
  (sessionID userID : UUID)
  hostID : HostID
  (username hostname : String)
  principals : List String

namespace EnsureCall

variable (icfg : IssuerConfig) (c : EnsureCall) (s : IdentityState)

def request : IssueRequest :=
  hostRequest c.sessionID c.userID c.hostID c.username c.hostname c.principals

def asked : List String :=
  scopeForHost (if c.principals = [] then [principalGlobal, principalUser c.username]
    else c.principals) c.hostID

def run : Option ℕ × IdentityState :=
  ensureHostCredential icfg c.now c.signs c.sessionID c.userID c.hostID c.username c.hostname
    c.principals s

def held : Option Credential := s.vault.getHost c.sessionID c.hostID

end EnsureCall

def ensureStep (icfg : IssuerConfig) (s : IdentityState) (c : EnsureCall) : Option IdentityState :=
  some (c.run icfg s).2

/-- Right after the call, if it succeeds, the vault has the credential that was asked for. -/
def AsAsked (icfg : IssuerConfig) (s : IdentityState) (c : EnsureCall) : Prop :=
  ∀ serial, (c.run icfg s).1 = some serial →
    ∃ cred, c.held (c.run icfg s).2 = some cred ∧ cred.serial = serial ∧
    cred.sessionID = c.sessionID ∧
      cred.hostID = c.hostID ∧ ∀ p, p ∈ cred.principals ↔ p ∈ c.asked

/-- The call meets a fresh credential with other principals. -/
def Reuses (icfg : IssuerConfig) (s : IdentityState) (c : EnsureCall) : Prop :=
  ∃ cred, c.held s = some cred ∧ icfg.certRenewBefore < cred.expiresAt - c.now ∧
    ¬ ∀ p, p ∈ cred.principals ↔ p ∈ c.asked

section

variable {icfg : IssuerConfig} {c : EnsureCall} {s s' : IdentityState}

theorem EnsureCall.run_cases (icfg : IssuerConfig) (c : EnsureCall) (s : IdentityState) :
    (∃ cred, c.held s = some cred ∧ icfg.certRenewBefore < cred.expiresAt - c.now ∧
      c.run icfg s = (some cred.serial, s)) ∨
    (∀ cred, c.held s = some cred → ¬ icfg.certRenewBefore < cred.expiresAt - c.now) ∧
      c.run icfg s = ((issue icfg c.now c.signs c.request s).1.map Credential.serial,
        (issue icfg c.now c.signs c.request s).2) := by
  unfold run ensureHostCredential
  cases hheld : s.vault.getHost c.sessionID c.hostID with
  | none =>
    refine .inr ⟨fun cred h => ?_, rfl⟩
    cases hheld.symm.trans h
  | some cred =>
    by_cases hfresh : icfg.certRenewBefore < cred.expiresAt - c.now
    · exact .inl ⟨cred, hheld, hfresh, if_pos hfresh⟩
    · refine .inr ⟨fun cred' h => ?_, if_neg hfresh⟩
      cases hheld.symm.trans h
      exact hfresh

theorem held_put (cred : Credential) (v : Vault) (db : CertDb)
    (hsession : cred.sessionID = c.sessionID) (hhost : cred.hostID = c.hostID) :
    c.held ⟨v.put cred, db⟩ = some cred := by
  unfold EnsureCall.held Vault.getHost Vault.put
  rw [Table.lookup_upsert, if_pos (by rw [hsession, hhost])]

theorem asAsked_iff : AsAsked icfg s c ↔ ¬ Reuses icfg s c := by
  rcases c.run_cases icfg s with ⟨cred, hheld, hfresh, hrun⟩ | ⟨hstale, hrun⟩
  · unfold AsAsked
    rw [hrun]
    have hkey := (Table.lookup_eq_some.mp hheld).2
    constructor
    · rintro hasked ⟨cred', hheld', -, hother⟩
      cases hheld.symm.trans hheld'
      obtain ⟨cred', hsame, -, -, -, hset⟩ := hasked cred.serial rfl
      cases hheld.symm.trans hsame
      exact hother hset
    · intro hno serial hserial
      cases hserial
      refine ⟨cred, hheld, rfl, congrArg Prod.fst hkey, congrArg Prod.snd hkey, ?_⟩
      by_contra hother
      exact hno ⟨cred, hheld, hfresh, hother⟩
  · refine iff_of_true ?_ fun ⟨cred, hheld, hfresh, _⟩ => hstale cred hheld hfresh
    unfold AsAsked
    rw [hrun]
    rcases issue_cases icfg c.now c.signs c.request s with hfail | ⟨certs, -, hissue⟩
    · rw [hfail]
      nofun
    · rw [hissue]
      rintro serial ⟨⟩
      exact ⟨_, held_put _ _ _ rfl rfl, rfl, rfl, rfl, fun _ => Iff.rfl⟩

end

/-! ## The two tiers -/

section

variable {hostID : UUID} {ps : List String} {p : String}

theorem mem_dedupePrincipals : p ∈ dedupePrincipals ps ↔ p ∈ ps ∧ p ≠ "" := by
  have hfold : ∀ out : List String,
      p ∈ ps.foldl (fun out p => if p = "" ∨ p ∈ out then out else out ++ [p]) out ↔ p ∈ out ∨
      (p ∈ ps ∧ p ≠ "") := by
    induction ps with
    | nil => simp
    | cons q ps ih =>
      intro out
      rw [List.foldl_cons, ih]
      split <;> grind
  simpa [dedupePrincipals] using hfold []

theorem mem_scopeForHost : p ∈ scopeForHost ps hostID ↔ p ≠ "" ∧ (p ∈ ps ∨
    (principalGlobal ∈ ps ∧ p = principalHost hostID) ∨
    (principalGlobalLogin ∈ ps ∧ p = principalHostLogin hostID)) := by
  have hne : principalGlobalLogin ≠ principalGlobal := by decide
  rw [scopeForHost, mem_dedupePrincipals, List.mem_flatMap, and_comm]
  refine and_congr_right fun _ => ?_
  constructor
  · rintro ⟨q, hq, hp⟩
    split at hp
    · next hglobal => grind
    · split at hp <;> grind
  · rintro (hp | ⟨hmem, rfl⟩ | ⟨hmem, rfl⟩)
    · refine ⟨p, hp, ?_⟩
      split
      · exact List.mem_cons_self
      · split <;> exact List.mem_cons_self
    · exact ⟨principalGlobal, hmem, by simp⟩
    · exact ⟨principalGlobalLogin, hmem, by simp [hne]⟩

def tierCall (hostSudo : Bool) (sshUser : String) (c : EnsureCall) : EnsureCall :=
  { c with principals := (loginTier hostSudo sshUser c.username).2 }

theorem global_mem_asked_iff (hostSudo : Bool) (sshUser : String) (c : EnsureCall) :
    principalGlobal ∈ (tierCall hostSudo sshUser c).asked ↔ hostSudo := by
  have hne : principalGlobal ≠ "" := by decide
  unfold EnsureCall.asked tierCall loginTier
  rw [mem_scopeForHost, and_iff_right hne]
  cases hostSudo with
  | true => simp
  | false =>
    have huser : principalGlobal ≠ principalUser c.username := by
      intro h
      have hhead := congrArg (fun s => s.toList.head?) h
      simp [principalGlobal, principalUser] at hhead
    have hlogin : ∀ id, principalGlobal ≠ principalHostLogin id := by
      intro id h
      have hlen := congrArg String.length h
      have hshort : principalGlobal.length = 5 := rfl
      have hlong : "fleet-login-h-".length = 14 := rfl
      rw [principalHostLogin, String.length_append] at hlen
      omega
    have hglobal : principalGlobal ≠ principalGlobalLogin := by decide
    simp [huser, hlogin, hglobal]

end

/-- **A credential is the one that was asked for** exactly in the sequences of calls in which none
meets a fresh credential with other principals. -/
theorem tier_as_asked_iff (icfg : IssuerConfig) (calls : List EnsureCall) (s : IdentityState) :
    Guarded (ensureStep icfg) (AsAsked icfg) s calls ↔
      Guarded (ensureStep icfg) (fun s c => ¬ Reuses icfg s c) s calls :=
  guarded_congr fun _ _ => asAsked_iff

def hourlyCerts : IssuerConfig := ⟨hour, 5 * minute, none⟩

def connectAt (now : Instant) (hostSudo : Bool) : EnsureCall :=
  tierCall hostSudo "fleet" ⟨now, true, ⟨1⟩, ⟨2⟩, sampleHost, "alice", "db", []⟩

/-- The permission is withdrawn between two connections, which are ten minutes apart: the second
one presents the privileged certificate. -/
theorem tier_not_as_asked :
    ∃ s, exec (ensureStep hourlyCerts) ⟨.empty, .empty⟩ [connectAt 0 true] = some s ∧
    ((connectAt (10 * minute) false).run hourlyCerts s).1 = some 1 ∧
    (∃ cred,
      (connectAt (10 * minute) false).held ((connectAt (10 * minute) false).run hourlyCerts s).2 =
        some cred ∧
      principalGlobal ∈ cred.principals) ∧
    principalGlobal ∉ (connectAt (10 * minute) false).asked ∧
    ¬ AsAsked hourlyCerts s (connectAt (10 * minute) false) := by
  have hglobal : principalGlobal ∉ (connectAt (10 * minute) false).asked := fun h =>
    absurd ((global_mem_asked_iff _ _ _).mp h) (by decide)
  obtain ⟨cred, hheld, hmem⟩ : ∃ cred, (connectAt (10 * minute) false).held
      ((connectAt (10 * minute) false).run hourlyCerts ((connectAt 0 true).run hourlyCerts ⟨.empty,
      .empty⟩).2).2 =
        some cred ∧ principalGlobal ∈ cred.principals :=
    ⟨_, rfl, (global_mem_asked_iff true "fleet" (connectAt 0 true)).mpr rfl⟩
  refine ⟨_, rfl, rfl, ⟨cred, hheld, hmem⟩, hglobal, fun hasked => ?_⟩
  obtain ⟨cred', hheld', -, -, -, hset⟩ := hasked 1 rfl
  cases hheld.symm.trans hheld'
  exact hglobal ((hset _).mp hmem)

end Moorgate.Identity
