import Mathlib.Data.Bool.AllAny
import Moorgate.Admin.Guards
import Moorgate.Federation.Trust
import Moorgate.Framework.Base.RequestLine

/-!
# Streams of the hub on a site: `federation/siteingress.go`

The hub opens a stream on the link of a site and writes a frame, one line of JSON, and a body.
`serveHubStream` dispatches on the kind of the frame. A request (`http`, `sftp`) and a terminal
(`ws`) are verified first.

Nothing recovers from a panic here, and there are two places for one (`hub_stream_survived_iff`):
the buffer of the body is made with the length that the frame declares, before anything is
verified, and `httptest.NewRequest` panics on a request line that it cannot read.
-/

namespace Moorgate.Federation

open Framework Models Auth

/-! ## Frames -/

inductive FrameKind where
  | http | sftp | ws | hubkey
  | other (kind : String)
deriving DecidableEq

/-- A missing header is empty. -/
structure Frame where
  kind : FrameKind
  (method path query : ByteString)
  header : String → ByteString
  bodyLen : ℤ
  (serviceToken actorAssertion : ByteString)

/-- What the other side reads of a frame that was written: JSON has texts only. -/
def Frame.wire (f : Frame) : Frame :=
  { f with
    method := toText f.method
    path := toText f.path
    query := toText f.query
    header := fun name => toText (f.header name)
    serviceToken := toText f.serviceToken
    actorAssertion := toText f.actorAssertion }

/-- `ReadFrame`: the line, decoded, and what follows it. -/
def readFrame (decode : ByteString → Option Frame) (stream : ByteString) :
    Option (Frame × ByteString) :=
  let line := stream.takeWhile fun b => decide (b ≠ 0x0A)
  if stream = [] then none else (decode line).map fun f => (f, stream.drop (line.length + 1))

/-! ## Tokens -/

structure ServiceClaims where
  (hubID siteID : String)
deriving DecidableEq

structure AssertionClaims where
  (siteID hubUserID hubUsername : String)
  permissions : List String
  superAdmin : Bool
  actionRef : ByteString
  (requestDigest nonce : String)
deriving DecidableEq

/-- What is not of this repository: the encodings, the parser of signed tokens, with the key and
the time, the decoder of a `hubkey` message, and the library of requests. -/
structure FederationLib extends Encodings where
  service : ByteString → List UInt8 → Instant → Option ServiceClaims
  assertion : ByteString → List UInt8 → Instant → Option AssertionClaims
  hubKeyMsg : ByteString → Option HubKeyMsg
  idString : UUID → String
  http : GoHttp

def FederationLib.digest (L : FederationLib) (l : ByteString) : String := L.rawEncode (L.sha256 l)

def publicFromBytes (pub : List UInt8) : Option (List UInt8) :=
  if pub.length = publicKeySize then some pub else none

section

variable (L : FederationLib)

def parseAssertion (token : ByteString) (pub : List UInt8) (now : Instant) :
    Option AssertionClaims :=
  (L.assertion token pub now).filter fun c => decide (c.hubUserID ≠ "" ∧ c.nonce ≠ "")

def requestDigest (method path body : ByteString) : String :=
  L.digest (method ++ 0x0A :: (path ++ 0x0A :: body))

/-! ## Verification -/

structure Nonce where
  nonce : String
  expiresAt : Instant
deriving DecidableEq

structure ShadowUser where
  (hubUserID id : UUID)
  hubUsername : String
deriving DecidableEq

/-- The tables of the site that a verification uses. -/
structure SiteTables where
  hub : Option FederationHub
  nonces : Table Nonce.nonce
  shadows : Table ShadowUser.hubUserID

def useNonce (nonce : String) (expiresAt : Instant) (t : SiteTables) : Option SiteTables :=
  (t.nonces.insert ⟨nonce, expiresAt⟩).map fun nonces => { t with nonces }

def upsertShadowUser (newID hubUserID : UUID) (hubUsername : String) (t : SiteTables) :
    UUID × SiteTables :=
  let id := ((t.shadows.lookup hubUserID).map ShadowUser.id).getD newID
  (id, { t with shadows := t.shadows.upsert ⟨hubUserID, id, hubUsername⟩ })

/-- Which of the store calls succeed, the time, and the id that the database would draw. -/
structure VerifyInput where
  (readsHub writesHub usesNonce writesShadow : Bool)
  now : Instant
  newID : UUID

/-- The permissions that are asserted; `*` makes a super administrator. -/
def assertedPrincipal (claims : AssertionClaims) (shadowID : UUID) : Principal where
  userID := shadowID
  sessionID := .nil
  username := "hub:" ++ claims.hubUsername
  isSuperAdmin := claims.superAdmin || decide ("*" ∈ claims.permissions)
  permissions := claims.permissions.filter fun p => decide (p ≠ "*")
  mustChangePw := false
  tenantID := .nil

def checkedClaims (now : Instant) (hub : FederationHub) (f : Frame) (body : ByteString) :
    Option AssertionClaims :=
  if hub.managedMode then
    match publicFromBytes hub.hubPublicKey with
    | none => none
    | some pub =>
      match L.service f.serviceToken pub now, parseAssertion L f.actorAssertion pub now with
      | some svc, some claims =>
        if svc.siteID = L.idString hub.siteID ∧ claims.siteID = L.idString hub.siteID ∧
            claims.requestDigest = requestDigest L f.method f.path body then some claims
        else none
      | _, _ => none
  else none

/-- `verifyAssertion`: the claims and the principal, and the tables as they are left. -/
def verifyAssertion (i : VerifyInput) (t : SiteTables) (f : Frame) (body : ByteString) :
    Option (AssertionClaims × Principal) × SiteTables :=
  match if i.readsHub then t.hub else none with
  | none => (none, t)
  | some hub =>
    match checkedClaims L i.now hub f body with
    | none => (none, t)
    | some claims =>
      match if i.usesNonce then useNonce claims.nonce (i.now + 2 * minute) t else none with
      | none => (none, t)
      | some t' =>
        if i.writesShadow then
          let (shadowID, t'') := upsertShadowUser i.newID ((L.parseID claims.hubUserID).getD .nil)
            claims.hubUsername t'
          (some (claims, assertedPrincipal claims shadowID), t'')
        else (none, t')

/-! ## Requests and terminals -/

/-- The request that the router of the site gets. -/
structure SiteRequest where
  method : List Char
  url : UrlPath
  rawQuery : List Char
  (contentType body : ByteString)
deriving DecidableEq

/-- How a stream ends on the site. -/
inductive Served where
  | refused (status : ℕ) (error : String)
  | dispatched (claims : AssertionClaims) (p : Principal) (req : SiteRequest)
  | closed (error : String)
  | terminal (claims : AssertionClaims) (p : Principal) (host : UUID)
  | hubKey | drained | panicked
deriving DecidableEq

def Frame.target (f : Frame) : ByteString :=
  if f.query = [] then f.path else f.path ++ 0x3F :: f.query

def serveHubHTTP (ready : Bool) (i : VerifyInput) (t : SiteTables) (f : Frame) (rest : ByteString) :
    Served × SiteTables :=
  if ready = false then (.refused 503 "site handler not ready", t)
  else if f.bodyLen < 0 then (.panicked, t) -- make([]byte, f.BodyLen)
  else if (rest.length : ℤ) < f.bodyLen then (.refused 400 "short body", t)
  else
    let body := rest.take f.bodyLen.toNat
    match verifyAssertion L i t f body with
    | (none, t') => (.refused 401 "federation authorization failed", t')
    | (some (claims, p), t') =>
      match newRequest L.http (chars f.method) (chars f.target) with
      | none => (.panicked, t')
      | some (method, url, rawQuery) =>
        (.dispatched claims p ⟨method, url, rawQuery, f.header "Content-Type", body⟩, t')

/-- `resolveHost`: the id behind the last slash, if there is a host with it. -/
def resolveHost (hosts : UUID → Bool) (path : ByteString) : Option UUID :=
  if 0x2F ∈ path then
    let id := String.ofList (chars (path.reverse.takeWhile fun b => decide (b ≠ 0x2F)).reverse)
    (L.parseID id).filter hosts
  else none

/-- What the site has besides its tables: a router, a gateway, and hosts that can be read. -/
structure SiteParts where
  (ready gateway : Bool)
  hosts : UUID → Bool

def serveHubWS (parts : SiteParts) (i : VerifyInput) (t : SiteTables) (f : Frame) :
    Served × SiteTables :=
  match verifyAssertion L i t f [] with
  | (none, t') => (.closed "federation authorization failed", t')
  | (some (claims, p), t') =>
    match resolveHost L parts.hosts f.path with
    | none => (.closed "host not found", t')
    | some host =>
      (if parts.gateway then .terminal claims p host else .closed "site gateway unavailable", t')

def applyHubKey (i : VerifyInput) (t : SiteTables) (body : ByteString) : SiteTables :=
  match (L.hubKeyMsg body).bind (hubKeyOf L.toEncodings), i.writesHub with
  | some (pub, fp), true =>
    { t with hub := t.hub.map fun h => { h with hubPublicKey := pub, hubFingerprint := fp } }
  | _, _ => t

def serveHubStream (parts : SiteParts) (i : VerifyInput) (t : SiteTables) (f : Frame)
    (rest : ByteString) : Served × SiteTables :=
  match f.kind with
  | .http | .sftp => serveHubHTTP L parts.ready i t f rest
  | .ws => serveHubWS L parts i t f
  | .hubkey => (.hubKey, applyHubKey L i t rest)
  | .other _ => (.drained, t)

def acceptHubStream (decode : ByteString → Option Frame) (parts : SiteParts) (i : VerifyInput)
    (t : SiteTables) (stream : ByteString) : Served × SiteTables :=
  match readFrame decode stream with
  | none => (.drained, t)
  | some (f, rest) => serveHubStream L parts i t f rest

end

/-! ## How a stream can end -/

section

/-- The ends of `serveHubHTTP`, in the order of its checks. -/
inductive HttpOutcome (L : FederationLib) (ready : Bool) (i : VerifyInput) (t : SiteTables)
    (f : Frame) (rest : ByteString) : Served → SiteTables → Prop where
  | notReady (hready : ready = false) :
      HttpOutcome L ready i t f rest (.refused 503 "site handler not ready") t
  | negative (hready : ready) (hneg : f.bodyLen < 0) : HttpOutcome L ready i t f rest .panicked t
  | short (hpos : 0 ≤ f.bodyLen) (hshort : (rest.length : ℤ) < f.bodyLen) :
      HttpOutcome L ready i t f rest (.refused 400 "short body") t
  | unverified {t' : SiteTables} (hpos : 0 ≤ f.bodyLen)
      (hverify : verifyAssertion L i t f (rest.take f.bodyLen.toNat) = (none, t')) :
      HttpOutcome L ready i t f rest (.refused 401 "federation authorization failed") t'
  | malformed {claims : AssertionClaims} {p : Principal} {t' : SiteTables} (hready : ready)
      (hpos : 0 ≤ f.bodyLen) (hlen : f.bodyLen ≤ rest.length)
      (hverify : verifyAssertion L i t f (rest.take f.bodyLen.toNat) = (some (claims, p), t'))
      (hnew : newRequest L.http (chars f.method) (chars f.target) = none) :
      HttpOutcome L ready i t f rest .panicked t'
  | dispatched {claims : AssertionClaims} {p : Principal} {t' : SiteTables} {req : SiteRequest}
      (hpos : 0 ≤ f.bodyLen) (hlen : f.bodyLen ≤ rest.length)
      (hverify : verifyAssertion L i t f (rest.take f.bodyLen.toNat) = (some (claims, p), t'))
      (hnew : newRequest L.http (chars f.method) (chars f.target) =
        some (req.method, req.url, req.rawQuery))
      (htype : req.contentType = f.header "Content-Type")
      (hbody : req.body = rest.take f.bodyLen.toNat) :
      HttpOutcome L ready i t f rest (.dispatched claims p req) t'

/-- The ends of `serveHubWS`. -/
inductive WsOutcome (L : FederationLib) (parts : SiteParts) (i : VerifyInput) (t : SiteTables)
    (f : Frame) : Served → SiteTables → Prop where
  | unverified {t' : SiteTables} (hverify : verifyAssertion L i t f [] = (none, t')) :
      WsOutcome L parts i t f (.closed "federation authorization failed") t'
  | closed {claims : AssertionClaims} {p : Principal} {t' : SiteTables} (error : String)
      (hverify : verifyAssertion L i t f [] = (some (claims, p), t')) : WsOutcome L parts i t f
      (.closed error) t'
  | terminal {claims : AssertionClaims} {p : Principal} {t' : SiteTables} {host : UUID}
      (hverify : verifyAssertion L i t f [] = (some (claims, p), t')) :
      WsOutcome L parts i t f (.terminal claims p host) t'

variable {L : FederationLib} {parts : SiteParts} {ready : Bool} {i : VerifyInput}
  {t t' : SiteTables} {f : Frame} {body rest : ByteString} {served : Served}

/-- A verification leaves the tables as they are; or it uses the nonce of the claims, and then has
the principal of the claims or fails at the user. -/
theorem verifyAssertion_cases : verifyAssertion L i t f body = (none, t) ∨
    ∃ hub claims nonces, checkedClaims L i.now hub f body = some claims ∧
      t.nonces.insert ⟨claims.nonce, i.now + 2 * minute⟩ = some nonces ∧
      (verifyAssertion L i t f body = (none, { t with nonces }) ∨ ∃ shadowID t',
        t'.nonces = nonces ∧
          verifyAssertion L i t f body =
            (some (claims, assertedPrincipal claims shadowID), t')) := by
  unfold verifyAssertion
  split
  · exact .inl rfl
  rename_i hub _
  split
  · exact .inl rfl
  rename_i claims hchecked
  cases i.usesNonce with
  | false => exact .inl rfl
  | true =>
    cases hinsert : t.nonces.insert ⟨claims.nonce, i.now + 2 * minute⟩ with
    | none =>
      left
      rw [if_pos rfl, useNonce, hinsert]
      rfl
    | some nonces =>
      refine .inr ⟨hub, claims, nonces, hchecked, hinsert, ?_⟩
      rw [if_pos rfl, useNonce, hinsert]
      cases i.writesShadow with
      | false => exact .inl rfl
      | true => exact .inr ⟨_, _, rfl, rfl⟩

theorem httpOutcome (h : serveHubHTTP L ready i t f rest = (served, t')) :
    HttpOutcome L ready i t f rest served t' := by
  revert h
  fun_cases serveHubHTTP L ready i t f rest with
  | case1 hready =>
    rintro ⟨⟩
    exact .notReady hready
  | case2 hready hneg =>
    rintro ⟨⟩
    exact .negative (Bool.eq_true_of_not_eq_false hready) hneg
  | case3 _ hneg hshort =>
    rintro ⟨⟩
    exact .short (not_lt.mp hneg) hshort
  | case4 _ hneg _ _ t₁ hverify =>
    rintro ⟨⟩
    exact .unverified (not_lt.mp hneg) hverify
  | case5 hready hneg hshort _ claims p t₁ hverify hnew =>
    rintro ⟨⟩
    exact .malformed (Bool.eq_true_of_not_eq_false hready) (not_lt.mp hneg) (not_lt.mp hshort)
      hverify hnew
  | case6 _ hneg hshort _ claims p t₁ hverify _ _ _ hnew =>
    rintro ⟨⟩
    exact .dispatched (not_lt.mp hneg) (not_lt.mp hshort) hverify hnew rfl rfl

theorem wsOutcome (h : serveHubWS L parts i t f = (served, t')) :
    WsOutcome L parts i t f served t' := by
  unfold serveHubWS at h
  rcases hverify : verifyAssertion L i t f [] with ⟨_ | ⟨claims, p⟩, t''⟩
  · rw [hverify] at h
    cases h
    exact .unverified hverify
  · rw [hverify] at h
    dsimp only at h
    split at h
    · cases h
      exact .closed _ hverify
    · cases hgateway : parts.gateway with
      | false =>
        rw [hgateway] at h
        cases h
        exact .closed _ hverify
      | true =>
        rw [hgateway] at h
        cases h
        exact .terminal hverify

theorem dispatched_of_verified {claims : AssertionClaims} {p : Principal}
    {line : List Char × UrlPath × List Char} (hpos : 0 ≤ f.bodyLen) (hlen : f.bodyLen ≤ rest.length)
    (hverify : verifyAssertion L i t f (rest.take f.bodyLen.toNat) = (some (claims, p), t'))
    (hnew : newRequest L.http (chars f.method) (chars f.target) = some line) :
    serveHubHTTP L true i t f rest =
      (.dispatched claims p ⟨line.1, line.2.1, line.2.2, f.header "Content-Type",
        rest.take f.bodyLen.toNat⟩, t') := by
  unfold serveHubHTTP
  rw [if_neg Bool.noConfusion, if_neg (not_lt.mpr hpos), if_neg (not_lt.mpr hlen)]
  simp only [hverify, hnew]

end

/-! ## What crashes a site -/

section

variable {L : FederationLib} {parts : SiteParts} {i : VerifyInput} {t : SiteTables} {f : Frame}
  {rest : ByteString}

def WellFormedLine (G : GoHttp) (method target : List Char) : Prop :=
  '\n' ∉ method ∧ '\n' ∉ target ∧ (newRequest G method target).isSome

/-- The frame is for a request and declares a length that no buffer has; or it is verified and
its request line is not well formed. -/
def Crashes (L : FederationLib) (parts : SiteParts) (i : VerifyInput) (t : SiteTables) (f : Frame)
    (rest : ByteString) : Prop :=
  (f.kind = .http ∨ f.kind = .sftp) ∧ parts.ready ∧
    (f.bodyLen < 0 ∨
      (0 ≤ f.bodyLen ∧ f.bodyLen ≤ rest.length ∧
        (verifyAssertion L i t f (rest.take f.bodyLen.toNat)).1.isSome ∧
        ¬ WellFormedLine L.http (chars f.method) (chars f.target)))

theorem wellFormedLine_iff {G : GoHttp} (hG : ∀ m u, G.lines m u = none)
    {method target : List Char} :
    WellFormedLine G method target ↔ (newRequest G method target).isSome := by
  refine ⟨fun h => h.2.2, fun h => ?_⟩
  by_cases hline : '\n' ∈ method ∨ '\n' ∈ target
  · unfold newRequest at h
    rw [if_pos hline, hG] at h
    cases h
  · rw [not_or] at hline
    exact ⟨hline.1, hline.2, h⟩

theorem serveHubHTTP_panicked_iff (hlines : ∀ m u, L.http.lines m u = none) :
    (serveHubHTTP L parts.ready i t f rest).1 = .panicked ↔ parts.ready ∧ (f.bodyLen < 0 ∨
        (0 ≤ f.bodyLen ∧ f.bodyLen ≤ rest.length ∧
          (verifyAssertion L i t f (rest.take f.bodyLen.toNat)).1.isSome ∧
          ¬ WellFormedLine L.http (chars f.method) (chars f.target))) := by
  rw [wellFormedLine_iff hlines]
  rcases hserve : serveHubHTTP L parts.ready i t f rest with ⟨served, t'⟩
  cases httpOutcome hserve with
  | notReady hready => simp [hready]
  | negative hready hneg => simp [hready, hneg]
  | short hpos hshort =>
    refine iff_of_false (by simp) ?_
    rintro ⟨-, hneg | ⟨-, hlen, -⟩⟩ <;> omega
  | unverified hpos hverify =>
    refine iff_of_false (by simp) ?_
    rintro ⟨-, hneg | ⟨-, -, hsome, -⟩⟩
    · omega
    · simp [hverify] at hsome
  | malformed hready hpos hlen hverify hnew => simp [hready, hpos, hlen, hverify, hnew]
  | dispatched hpos hlen hverify hnew htype hbody =>
    refine iff_of_false (by simp) ?_
    rintro ⟨-, hneg | ⟨-, -, -, hnot⟩⟩
    · omega
    · simp [hnew] at hnot

theorem serveHubWS_ne_panicked : (serveHubWS L parts i t f).1 ≠ .panicked := by
  rcases hserve : serveHubWS L parts i t f with ⟨served, t'⟩
  cases wsOutcome hserve <;> exact nofun

theorem serveHubStream_panicked_iff (hlines : ∀ m u, L.http.lines m u = none) :
    (serveHubStream L parts i t f rest).1 = .panicked ↔ Crashes L parts i t f rest := by
  unfold serveHubStream Crashes
  cases hkind : f.kind with
  | http | sftp => simpa using serveHubHTTP_panicked_iff hlines
  | ws => simpa using serveHubWS_ne_panicked
  | hubkey | other kind => simp

end

/-! ## What the hub sends -/

/-- A request below `/sites/…/proxy/` as the server of the hub has read it: the escaped path from
there on has no query and no control character, and its escapes are sound. -/
structure OperatorRequest where
  (method escaped query contentType body : ByteString)
  validMethod_method : validMethod (chars method)
  plain_escaped : ∀ c ∈ chars escaped, c ≠ '?' ∧ isCtl c = false
  unescapes : (unescape (chars escaped)).isSome
  plain_query : ∀ c ∈ chars query, isCtl c = false

/-- What a wildcard matches of a path: the text as it was sent when that is kept, or else the
unescaped one. -/
def wildcard (text : List Char) : List Char := ((setPath text).map UrlPath.routePath).getD []

theorem escape_append (a b : List Char) : escape (a ++ b) = escape a ++ escape b :=
  List.flatMap_append

/-- The router matches on the whole path; behind a plain beginning that leaves `wildcard`. -/
theorem routePath_append {base text : List Char} (hplain : '%' ∉ base)
    (hescape : escape base = base) (htext : (unescape text).isSome) :
    (setPath (base ++ text)).map UrlPath.routePath = some (base ++ wildcard text) := by
  obtain ⟨path, hpath⟩ := Option.isSome_iff_exists.mp htext
  have hkept : escape (base ++ path) = base ++ text ↔ escape path = text := by
    rw [escape_append, hescape, List.append_right_inj]
  unfold wildcard setPath
  rw [unescape_append_of_plain hplain, hpath]
  simp only [Option.map_some, Option.getD_some, hkept]
  by_cases hsame : escape path = text
  · simp [hsame, UrlPath.routePath]
  have hne : text ≠ [] := by
    rintro rfl
    cases hpath
    exact hsame rfl
  simp [hsame, UrlPath.routePath, hne]

def maxProxyBody : ℕ := 16 * 2 ^ 20

namespace OperatorRequest

variable (op : OperatorRequest)

def sitePath : ByteString := utf8 "/api/v1/" ++ bytes (wildcard (chars op.escaped))

def readBody : ByteString := op.body.take maxProxyBody

def frame (svc actor : ByteString) : Frame where
  kind := .http
  method := op.method
  path := op.sitePath
  query := op.query
  header name := if name = "Content-Type" then op.contentType else []
  bodyLen := op.readBody.length
  serviceToken := svc
  actorAssertion := actor

end OperatorRequest

section

variable {op : OperatorRequest} {svc actor : ByteString}

private theorem lt_of_isTokenChar_ofNat :
    ∀ n < 256, isTokenChar (Char.ofNat n) → n < 128 := by decide +kernel

theorem lt_of_isTokenChar {b : UInt8} (h : isTokenChar (Char.ofNat b.toNat)) : b < 128 :=
  UInt8.lt_iff_toNat_lt.mpr (lt_of_isTokenChar_ofNat b.toNat b.toNat_lt h)

theorem toText_method : toText op.method = op.method := by
  refine toText_of_ascii fun b hb => lt_of_isTokenChar ?_
  have hvalid := op.validMethod_method
  unfold validMethod at hvalid
  rw [Bool.and_eq_true, List.all_eq_true] at hvalid
  exact hvalid.2 _ (List.mem_map_of_mem hb)

theorem toText_sitePath :
    toText op.sitePath = utf8 "/api/v1/" ++ toText (bytes (wildcard (chars op.escaped))) :=
  toText_append_of_ascii (List.all_iff_forall_prop.mp (by decide +kernel)) _

def SafeTarget (target : List Char) : Prop :=
  (∀ c ∈ target, c ≠ ' ' ∧ isCtl c = false) ∧ (unescape (beforeQuery target)).isSome

/-- The line of a frame of the hub is well formed when the path, unescaped by the hub, is a target
again. -/
theorem wellFormedLine_frame {G : GoHttp} (hG : ∀ m u, G.lines m u = none) :
    WellFormedLine G (chars (op.frame svc actor).wire.method)
      (chars (op.frame svc actor).wire.target) ↔
      SafeTarget (chars (op.frame svc actor).wire.target) := by
  have hmethod : (op.frame svc actor).wire.method = op.method := toText_method
  obtain ⟨rest, hrest⟩ : ∃ rest, chars (op.frame svc actor).wire.target = '/' :: rest := by
    have hpath : (op.frame svc actor).wire.path = utf8 "/api/v1/" ++
        toText (bytes (wildcard (chars op.escaped))) :=
      toText_sitePath
    unfold Frame.target
    split
    all_goals
      rw [hpath]
      exact ⟨_, rfl⟩
  rw [wellFormedLine_iff hG, hmethod, hrest]
  by_cases hline : '\n' ∈ rest
  · refine iff_of_false ?_ fun hsafe => ?_
    · unfold newRequest
      rw [if_pos (.inr (List.mem_cons_of_mem _ hline)), hG]
      exact Bool.false_ne_true
    · exact absurd (hsafe.1 _ (List.mem_cons_of_mem _ hline)).2 (by decide)
  · rw [newRequest_of_slash op.validMethod_method hline]
    by_cases hbad : ' ' ∈ rest ∨ rest.any isCtl
    · rw [if_pos hbad]
      refine iff_of_false Bool.false_ne_true fun hsafe => ?_
      rcases hbad with hspace | hctl
      · exact (hsafe.1 _ (List.mem_cons_of_mem _ hspace)).1 rfl
      · obtain ⟨c, hc, hcc⟩ := List.any_eq_true.mp hctl
        cases hcc.symm.trans (hsafe.1 _ (List.mem_cons_of_mem _ hc)).2
    · rw [if_neg hbad, Option.isSome_map, setPath, Option.isSome_map]
      refine (and_iff_right fun c hc => ?_).symm
      rw [not_or, List.any_eq_true, not_exists] at hbad
      rcases List.mem_cons.mp hc with rfl | hmem
      · exact ⟨by decide, by decide⟩
      · refine ⟨fun heq => hbad.1 (heq ▸ hmem), ?_⟩
        rw [← Bool.not_eq_true]
        exact fun hcc => hbad.2 c ⟨hmem, hcc⟩

end

/-- **A stream of the hub crashes the site** exactly when its frame declares a negative length, or
is verified and has no well-formed request line. A frame that the hub makes of an operator's
request does so when it is verified and its unescaped path is no target. -/
theorem hub_stream_survived_iff (L : FederationLib) (hlines : ∀ m u, L.http.lines m u = none)
    (decode : ByteString → Option Frame) (parts : SiteParts) (i : VerifyInput) (t : SiteTables) :
    (∀ stream, (acceptHubStream L decode parts i t stream).1 ≠ .panicked ↔
      ∀ f rest, readFrame decode stream = some (f, rest) → ¬ Crashes L parts i t f rest) ∧
    ∀ (op : OperatorRequest) (svc actor : ByteString),
      (serveHubStream L parts i t (op.frame svc actor).wire op.readBody).1 ≠ .panicked ↔
        (parts.ready → (verifyAssertion L i t (op.frame svc actor).wire op.readBody).1.isSome →
          SafeTarget (chars (op.frame svc actor).wire.target)) := by
  constructor
  · intro stream
    unfold acceptHubStream
    cases hread : readFrame decode stream with
    | none => simp
    | some next =>
      obtain ⟨f, rest⟩ := next
      rw [Ne, serveHubStream_panicked_iff hlines]
      simp
  · intro op svc actor
    have hlen : (op.frame svc actor).wire.bodyLen = op.readBody.length := rfl
    have htake : op.readBody.take (op.frame svc actor).wire.bodyLen.toNat = op.readBody := by
      rw [hlen, Int.toNat_natCast, List.take_length]
    have hkind : (op.frame svc actor).wire.kind = .http := rfl
    rw [Ne, serveHubStream_panicked_iff hlines, Crashes, htake, wellFormedLine_frame hlines,
      hlen, hkind]
    have hneg : ¬ ((op.readBody.length : ℤ) < 0) := by omega
    simp only [true_or, true_and, hneg, false_or, le_refl, Int.natCast_nonneg]
    tauto

/-! ## A site that crashes -/

/-- Encodings as in `plainEncodings`, tokens that have the digest for their text, and a library
that reads nothing but one line. -/
def plainLib : FederationLib where
  toEncodings := plainEncodings
  service _ _ _ := some ⟨"hub", "site"⟩
  assertion token _ _ := some ⟨"site", "7", "operator", ["Host.View"], false, [],
    String.ofList (chars token), "once"⟩
  hubKeyMsg _ := none
  idString _ := "site"
  http := ⟨fun _ => false, fun _ _ => none⟩

def joinedTables : SiteTables where
  hub := some ⟨"https://hub.example", keyBytes 'h', "", ⟨7⟩, [], [], true⟩
  nonces := .empty
  shadows := .empty

def wholeSite : SiteParts := ⟨true, true, fun _ => true⟩

def allSucceed : VerifyInput := ⟨true, true, true, true, 0, ⟨9⟩⟩

theorem verified_plain {f : Frame} {body : ByteString}
    (h : f.actorAssertion = f.method ++ 0x0A :: (f.path ++ 0x0A :: body)) :
    ∃ claims p t', verifyAssertion plainLib allSucceed joinedTables f body =
      (some (claims, p), t') := by
  let hub : FederationHub := ⟨"https://hub.example", keyBytes 'h', "", ⟨7⟩, [], [], true⟩
  let claims : AssertionClaims :=
    ⟨"site", "7", "operator", ["Host.View"], false, [],
      String.ofList (chars f.actorAssertion), "once"⟩
  have hkey : publicFromBytes hub.hubPublicKey = some hub.hubPublicKey := by decide +kernel
  have hparse : parseAssertion plainLib f.actorAssertion hub.hubPublicKey 0 = some claims := rfl
  have hdigest : claims.requestDigest = requestDigest plainLib f.method f.path body := by
    show String.ofList (chars f.actorAssertion) = _
    rw [h]
    rfl
  have hchecked : checkedClaims plainLib 0 hub f body = some claims := by
    unfold checkedClaims
    simp only [hkey, hparse]
    exact (if_pos rfl).trans (if_pos ⟨rfl, rfl, hdigest⟩)
  have hverify : verifyAssertion plainLib allSucceed joinedTables f body =
      (some (claims, assertedPrincipal claims ⟨9⟩),
        (upsertShadowUser ⟨9⟩ ⟨7⟩ "operator"
          { joinedTables with nonces := ⟨[⟨"once", 0 + 2 * minute⟩], by simp⟩ }).2) := by
    unfold verifyAssertion
    simp only [allSucceed, joinedTables, if_true]
    rw [hchecked]
    rfl
  exact ⟨_, _, _, hverify⟩

def getToken (path : String) : ByteString := utf8 "GET" ++ 0x0A :: (utf8 path ++ [0x0A])

theorem get_facts : validMethod (chars (utf8 "GET")) ∧
    ∀ path ∈ ["hosts", "hosts/a%20b"],
      (chars (utf8 path)).all (fun c => decide (c ≠ '?' ∧ isCtl c = false)) ∧
      (unescape (chars (utf8 path))).isSome := by
  decide +kernel

theorem validMethod_get : validMethod (chars (utf8 "GET")) := get_facts.1

theorem plain_path {path : String} (h : path ∈ ["hosts", "hosts/a%20b"]) :
    ∀ c ∈ chars (utf8 path), c ≠ '?' ∧ isCtl c = false :=
  List.all_iff_forall_prop.mp (get_facts.2 path h).1

theorem plain_hosts : ∀ c ∈ chars (utf8 "hosts"), c ≠ '?' ∧ isCtl c = false :=
  plain_path List.mem_cons_self

theorem unescapes_hosts : (unescape (chars (utf8 "hosts"))).isSome :=
  (get_facts.2 _ List.mem_cons_self).2

theorem mem_spaced : "hosts/a%20b" ∈ ["hosts", "hosts/a%20b"] :=
  List.mem_cons_of_mem _ List.mem_cons_self

theorem plain_nil : ∀ c ∈ chars [], isCtl c = false := nofun

/-- A request for a plain path is survived. -/
theorem hub_stream_survived_plain : ∃ op : OperatorRequest, op.escaped = utf8 "hosts" ∧
    (verifyAssertion plainLib allSucceed joinedTables (op.frame [] (getToken "/api/v1/hosts")).wire
      op.readBody).1.isSome ∧
    (serveHubStream plainLib wholeSite allSucceed joinedTables
      (op.frame [] (getToken "/api/v1/hosts")).wire op.readBody).1 ≠ .panicked := by
  refine ⟨⟨utf8 "GET", utf8 "hosts", [], [], [], validMethod_get, plain_hosts, unescapes_hosts,
    plain_nil⟩, rfl, by decide +kernel, ?_⟩
  refine ((hub_stream_survived_iff plainLib (fun _ _ => rfl) (fun _ => none) wholeSite allSucceed
    joinedTables).2
    _ [] _).mpr fun _ _ => ?_
  exact ⟨List.all_iff_forall_prop.mp (by decide +kernel), by decide +kernel⟩

/-- A frame with the length -1 and no tokens; and the request of an operator for `hosts/a%20b`. -/
theorem hub_stream_crashes : (serveHubStream plainLib wholeSite allSucceed joinedTables
      ⟨.http, [], [], [], fun _ => [], -1, [], []⟩ []).1 = .panicked ∧
    ∃ op : OperatorRequest, op.escaped = utf8 "hosts/a%20b" ∧
      (serveHubStream plainLib wholeSite allSucceed joinedTables
        (op.frame [] (getToken "/api/v1/hosts/a b")).wire op.readBody).1 = .panicked := by
  exact ⟨by decide +kernel, ⟨utf8 "GET", utf8 "hosts/a%20b", [], [], [], validMethod_get,
    plain_path mem_spaced,
    (get_facts.2 _ mem_spaced).2, plain_nil⟩, rfl, by decide +kernel⟩

end Moorgate.Federation
