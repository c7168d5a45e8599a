import Moorgate.Identity.Vault
import Moorgate.Store.Certs

/-!
# Issuing identities: `identity/issuer.go` and `principals`

A credential is issued in three steps: a serial from the sequence, the
certificate row, the entry in the vault. `issue` is the three of them as one
piece; the statements are also used one at a time where calls interleave.
-/

namespace Moorgate.Identity

open Framework Models Store

/-- The configuration the issuer reads, and the instance that writes the rows
(`none` for the nil id, see `ownerArg`). -/
structure IssuerConfig where
  (userCertTTL certRenewBefore : Duration)
  instanceID : Option UUID

/-! ## Principals -/

def principalGlobal : String := "fleet"
def principalGlobalLogin : String := "fleet-login"
def principalHost (id : UUID) : String := "fleet-h-" ++ id.string
def principalHostLogin (id : UUID) : String := "fleet-login-h-" ++ id.string
def principalUser (name : String) : String := "user:" ++ name

def dedupePrincipals (ps : List String) : List String :=
  ps.foldl (fun out p => if p = "" ∨ p ∈ out then out else out ++ [p]) []

/-- Adds the host-scoped counterpart of each fleet-wide principal. -/
def scopeForHost (ps : List String) (hostID : UUID) : List String :=
  dedupePrincipals (ps.flatMap fun p =>
    if p = principalGlobal then [p, principalHost hostID]
    else if p = principalGlobalLogin then [p, principalHostLogin hostID]
    else [p])

/-! ## What is issued -/

structure IssueRequest where
  (sessionID hostID userID : UUID)
  username : String
  principals : List String
  keyID : String
deriving DecidableEq

def shortID (id : UUID) : String := String.ofList (id.string.toList.take 8)

def sessionRequest (sessionID userID : UUID) (username : String) (principals : List String) :
    IssueRequest where
  sessionID := sessionID
  hostID := sessionScope
  userID := userID
  username := username
  principals := if principals = [] then [principalUser username] else principals
  keyID := username ++ "/" ++ shortID sessionID

def hostRequest (sessionID userID hostID : UUID) (username hostname : String)
    (principals : List String) : IssueRequest where
  sessionID := sessionID
  hostID := hostID
  userID := userID
  username := username
  principals := scopeForHost
    (if principals = [] then [principalGlobal, principalUser username] else principals) hostID
  keyID := username ++ "/host:" ++ (if hostname = "" then shortID hostID else hostname)

/-- `ValidBefore`: the end of the lifetime in whole seconds. -/
def validBefore (icfg : IssuerConfig) (now : Instant) : Instant :=
  (now + icfg.userCertTTL) / second * second

def certRow (icfg : IssuerConfig) (now : Instant) (serial : ℕ) (req : IssueRequest) : Cert where
  serial := serial
  kind := .user
  userId := some req.userID
  sessionId := some req.sessionID
  hostId := if req.hostID = sessionScope then none else some req.hostID
  instanceId := icfg.instanceID
  keyId := req.keyID ++ "/" ++ toString serial
  principals := req.principals
  issuedAt := now
  expiresAt := validBefore icfg now
  revokedAt := none
  revokeReason := ""

def credentialOf (icfg : IssuerConfig) (now : Instant) (serial : ℕ) (req : IssueRequest) :
    Credential where
  sessionID := req.sessionID
  hostID := req.hostID
  userID := req.userID
  username := req.username
  serial := serial
  principals := req.principals
  expiresAt := validBefore icfg now

/-- The vault of the instance and the certificate tables. -/
structure IdentityState where
  vault : Vault
  db : CertDb

/-- `issue` as one piece. `signs` is false when the certificate cannot be
signed, which happens after the serial is taken. -/
def issue (icfg : IssuerConfig) (now : Instant) (signs : Bool) (req : IssueRequest)
    (s : IdentityState) : Option Credential × IdentityState :=
  let (serial, db) := nextCertSerial s.db
  if signs then
    match insertCertificate (certRow icfg now serial req) db with
    | none => (none, { s with db })
    | some db' =>
      let cred := credentialOf icfg now serial req
      (some cred, ⟨s.vault.put cred, db'⟩)
  else (none, { s with db })

theorem issue_cases (icfg : IssuerConfig) (now : Instant) (signs : Bool) (req : IssueRequest)
    (s : IdentityState) :
    issue icfg now signs req s = (none, { s with db := (nextCertSerial s.db).2 }) ∨
    ∃ certs, s.db.certs.insert (certRow icfg now (s.db.lastSerial + 1) req) = some certs ∧
      issue icfg now signs req s = (some (credentialOf icfg now (s.db.lastSerial + 1) req),
        ⟨s.vault.put (credentialOf icfg now (s.db.lastSerial + 1) req),
          ⟨certs, s.db.revocations, s.db.lastSerial + 1⟩⟩) := by
  unfold issue insertCertificate nextCertSerial
  by_cases hs : signs
  · dsimp only
    rw [if_pos hs]
    cases hins : s.db.certs.insert (certRow icfg now (s.db.lastSerial + 1) req) with
    | none => exact .inl rfl
    | some certs => exact .inr ⟨certs, rfl, rfl⟩
  · dsimp only
    rw [if_neg hs]
    exact .inl rfl

end Moorgate.Identity
