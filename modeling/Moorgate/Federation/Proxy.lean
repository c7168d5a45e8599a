import Moorgate.Federation.Requests

/-!
# The proxy: `federation/proxy.go` and `federation/streamrw.go`

`handleProxy` takes a request of an operator to a site: the body is read up to a limit, the path is
the one that the router has unescaped, and everything but the body passes through JSON.
`serveHubHTTP` makes a request of that again, which unescapes the path once more. On the way back
`streamResponseWriter` writes one header line, with one value for each name, at the first status.
`proxy_transparent_iff` says which requests and which responses survive this.
-/

namespace Moorgate.Federation

open Framework Models Auth

/-! ## Responses -/

/-- The values of each name that is set. Names are in canonical form, as `Set` and `Add` store them.
-/
abbrev Header := String → Option (List ByteString)

inductive WriterOp where
  | setHeader (name : String) (values : Option (List ByteString))
  | writeHeader (status : ℤ)
  | write (data : ByteString)

/-- What a `ResponseWriter` has: the header, the status and header that are fixed, and the body. -/
structure WriterState where
  header : Header
  committed : Option (ℤ × Header)
  body : ByteString

namespace WriterState

def start : WriterState := ⟨fun _ => none, none, []⟩

def commit (w : WriterState) (status : ℤ) : WriterState :=
  { w with committed := some (w.committed.getD (status, w.header)) }

def result (w : WriterState) : ℤ × Header := w.committed.getD (200, w.header)

end WriterState

/-- One operation on a writer for which the statuses with `final` fix the response. -/
def writerStep (final : ℤ → Bool) (w : WriterState) : WriterOp → WriterState
  | .setHeader name values => { w with header := Function.update w.header name values }
  | .writeHeader status => if final status then w.commit status else w
  | .write data => { w.commit 200 with body := w.body ++ data }

def writer (final : ℤ → Bool) (ops : List WriterOp) : WriterState :=
  ops.foldl (writerStep final) .start

def informational (status : ℤ) : Bool := decide (100 ≤ status ∧ status < 200 ∧ status ≠ 101)

structure Response where
  status : ℤ
  header : String → List ByteString
  body : ByteString

/-- The contract of `http.ResponseWriter`: an informational status fixes nothing. -/
def contractRW (ops : List WriterOp) : WriterState :=
  writer (fun status => !informational status) ops

def response (ops : List WriterOp) : Response :=
  let w := contractRW ops
  ⟨w.result.1, fun name => (w.result.2 name).getD [], w.body⟩

/-- `streamResponseWriter`: every status is final. -/
def streamRW (ops : List WriterOp) : WriterState := writer (fun _ => true) ops

structure RespHeader where
  status : ℤ
  header : String → Option ByteString

/-- The header line, with the first value of each canonical name, as the hub reads it. -/
def respHeader (result : ℤ × Header) : RespHeader :=
  ⟨result.1, fun name => (result.2 name).map fun values => toText (values.headD [])⟩

/-- The end of `handleProxy`, when `arrives` bytes of the body do. It is `none` for a status that
`WriteHeader` panics on; after an informational one the body begins with 200. -/
def relay (hdr : RespHeader) (body : ByteString) (arrives : ℕ) : Option Response :=
  let status := if hdr.status = 0 then 200 else hdr.status
  if status < 100 ∨ 999 < status then none
  else some ⟨if informational status then 200 else status,
    fun name => ((hdr.header name).map fun v => [v]).getD [], body.take arrives⟩

section

variable {final : ℤ → Bool} {w : WriterState} {ops : List WriterOp}

theorem commit_of_committed {fixed : ℤ × Header} (h : w.committed = some fixed) (status : ℤ) :
    w.commit status = w := by
  unfold WriterState.commit
  cases w
  cases h
  rfl

theorem committed_stays {fixed : ℤ × Header} (h : w.committed = some fixed) :
    (ops.foldl (writerStep final) w).committed = some fixed := by
  induction ops generalizing w with
  | nil => exact h
  | cons op ops ih =>
    refine ih ?_
    cases op with
    | setHeader name values => exact h
    | writeHeader status =>
      simp only [writerStep, commit_of_committed h, ite_self]
      exact h
    | write data =>
      simp only [writerStep, commit_of_committed h]
      exact h

def WriterOp.data : WriterOp → ByteString
  | .write data => data
  | _ => []

theorem body_foldl :
    (ops.foldl (writerStep final) w).body = w.body ++ ops.flatMap WriterOp.data := by
  induction ops generalizing w with
  | nil => exact (List.append_nil _).symm
  | cons op ops ih =>
    have hstep : (writerStep final w op).body = w.body ++ op.data := by
      cases op with
      | setHeader name values => exact (List.append_nil _).symm
      | writeHeader status =>
        have hif : (if final status then w.commit status else w).body = w.body := by split <;> rfl
        exact hif.trans (List.append_nil _).symm
      | write data => rfl
    rw [List.foldl_cons, ih, hstep, List.flatMap_cons, List.append_assoc]

theorem body_writer (final : ℤ → Bool) (ops : List WriterOp) :
    (writer final ops).body = ops.flatMap WriterOp.data :=
  body_foldl

/-- As long as the first status is not informational, `streamResponseWriter` keeps the contract. -/
theorem foldl_eq_of_not_informational
    (h : informational (ops.foldl (writerStep fun _ => true) w).result.1 = false) :
    ops.foldl (writerStep fun status => !informational status) w =
      ops.foldl (writerStep fun _ => true) w := by
  induction ops generalizing w with
  | nil => rfl
  | cons op ops ih =>
    rw [List.foldl_cons] at h
    have hstep : writerStep (fun status => !informational status) w op =
        writerStep (fun _ => true) w op := by
      cases op with
      | setHeader name values | write data => rfl
      | writeHeader status =>
        cases hinfo : informational status with
        | false => simp [writerStep, hinfo]
        | true =>
          -- this is not the first status, or it would be the one of the line
          cases hw : w.committed with
          | some fixed => simp [writerStep, commit_of_committed hw]
          | none =>
            have hfixed : (writerStep (fun _ => true) w (.writeHeader status)).committed =
                some (status, w.header) := by simp [writerStep, WriterState.commit, hw]
            rw [WriterState.result, committed_stays hfixed] at h
            cases hinfo.symm.trans h
    rw [List.foldl_cons, List.foldl_cons, hstep, ih h]

theorem response_eq_of_not_informational (h : informational (streamRW ops).result.1 = false) :
    response ops = ⟨(streamRW ops).result.1, fun name => ((streamRW ops).result.2 name).getD [],
      (streamRW ops).body⟩ := by
  have hwriter : contractRW ops = streamRW ops := foldl_eq_of_not_informational h
  unfold response
  rw [hwriter]

end

def SingleValued (header : Header) : Prop :=
  ∀ name, header name = none ∨ ∃ v, header name = some [v] ∧ Utf8 v

theorem singleValued_iff (status : ℤ) (header : Header) :
    (fun name => (((respHeader (status, header)).header name).map fun v => [v]).getD []) =
      (fun name => (header name).getD []) ↔ SingleValued header := by
  rw [funext_iff]
  refine forall_congr' fun name => ?_
  unfold respHeader
  cases hvalues : header name with
  | none => simp [hvalues]
  | some values =>
    cases values with
    | nil => simp [hvalues]
    | cons v values => simp [hvalues, toText_eq_self_iff, and_comm]

/-- The last header has of each name the first value of the first one, as text. -/
def FirstValues (first last : Header) : Prop :=
  ∀ name, ((first name).map fun values => [toText (values.headD [])]).getD [] = (last name).getD []

/-- The response that the operator gets is the one of the handler: all of its body arrives, the
first status is not zero, and each name has one value. A first status that is informational
becomes 200, with the header of that call. -/
def ResponseKept (ops : List WriterOp) (arrives : ℕ) : Prop :=
  (streamRW ops).body.length ≤ arrives ∧
    if informational (streamRW ops).result.1 then
      (contractRW ops).result.1 = 200 ∧
        FirstValues (streamRW ops).result.2 (contractRW ops).result.2
    else (streamRW ops).result.1 ≠ 0 ∧ SingleValued (streamRW ops).result.2

theorem relay_eq_response_iff {ops : List WriterOp} {arrives : ℕ} {r : Response}
    (h : relay (respHeader (streamRW ops).result) (streamRW ops).body arrives = some r) :
    r = response ops ↔ ResponseKept ops arrives := by
  have hbody : (response ops).body = (streamRW ops).body :=
    (body_writer (fun status => !informational status) ops).trans
      (body_writer (fun _ => true) ops).symm
  have htake : (streamRW ops).body.take arrives = (streamRW ops).body ↔
      (streamRW ops).body.length ≤ arrives :=
    List.take_eq_self_iff _
  have hstatus : (respHeader (streamRW ops).result).status = (streamRW ops).result.1 := rfl
  unfold relay at h
  rw [hstatus] at h
  unfold ResponseKept
  cases hinfo : informational (streamRW ops).result.1 with
  | true =>
    have hne : (streamRW ops).result.1 ≠ 0 := by
      intro hzero
      rw [hzero] at hinfo
      cases hinfo
    simp only [if_neg hne, hinfo, if_true] at h ⊢
    split at h
    · cases h
    cases h
    have hfirst : (fun name => (((respHeader (streamRW ops).result).header name).map
        fun v => [v]).getD []) = (response ops).header ↔ FirstValues (streamRW ops).result.2
        (contractRW ops).result.2 := by
      rw [funext_iff]
      refine forall_congr' fun name => ?_
      rw [respHeader, Option.map_map]
      rfl
    rw [← hfirst, ← htake, ← hbody]
    constructor
    · intro heq
      exact ⟨congrArg Response.body heq, (congrArg Response.status heq).symm,
        congrArg Response.header heq⟩
    · rintro ⟨hlen, hcode, hheader⟩
      exact Response.mk.injEq .. ▸ ⟨hcode.symm, hheader, hlen⟩
  | false =>
    rw [response_eq_of_not_informational hinfo]
    simp only [Bool.false_eq_true, if_false]
    by_cases hzero : (streamRW ops).result.1 = 0
    · simp only [if_pos hzero] at h
      split at h
      · cases h
      · cases h
        simp only [hzero, Response.mk.injEq, ne_eq, not_true_eq_false, false_and, and_false,
          iff_false]
        exact fun hfalse => absurd hfalse.1 (by decide)
    · simp only [if_neg hzero, hinfo, Bool.false_eq_true, if_false] at h
      split at h
      · cases h
      cases h
      have hsingle := singleValued_iff (streamRW ops).result.1 (streamRW ops).result.2
      rw [Response.mk.injEq, htake, hsingle]
      simp only [true_and, ne_eq, hzero, not_false_eq_true]
      exact and_comm

/-! ## The proxy -/

/-- What may fail on the hub, the two tokens, and what the link carries: the bytes of the body
that reach the site, if the frame does; whether the header line comes back, and how much of the
body. -/
structure ProxyInput where
  (parsesID authenticated knowsSite linked readsBody : Bool)
  (assertion service : Option ByteString)
  (opens writesFrame writesBody : Bool)
  delivered : Option ℕ
  answered : Bool
  arrives : ℕ

inductive Answer where
  | error (status : ℕ) (text : String)
  | relayed (r : Response)

/-- What the handler of the site is called with, and what the operator receives. -/
structure Proxied where
  invoked : Option (Principal × SiteRequest)
  answer : Answer

def Served.invoked : Served → Option (Principal × SiteRequest)
  | .dispatched _ p req => some (p, req)
  | _ => none

def Served.reply (handler : Principal → SiteRequest → List WriterOp) :
    Served → Option (RespHeader × ByteString)
  | .refused status _ => some (⟨status, fun _ => none⟩, [])
  | .dispatched _ p req =>
    let w := streamRW (handler p req)
    some (respHeader w.result, w.body)
  | _ => none

section

variable (L : FederationLib) (parts : SiteParts) (i : VerifyInput) (t : SiteTables)
  (hub : ProxyInput) (handler : Principal → SiteRequest → List WriterOp) (op : OperatorRequest)

def servedOn (svc actor : ByteString) : Option Served :=
  hub.delivered.map fun n =>
    (serveHubStream L parts i t (op.frame svc actor).wire (op.readBody.take n)).1

def proxyStream (svc actor : ByteString) : Proxied where
  invoked := (servedOn L parts i t hub op svc actor).bind Served.invoked
  answer :=
    if hub.writesFrame = false then .error 502 "site write failed"
    else if op.readBody ≠ [] ∧ hub.writesBody = false then .error 502 "site body write failed"
    else
      match if hub.answered then (servedOn L parts i t hub op svc actor).bind (Served.reply handler)
        else none with
      | none => .error 502 "no response from site"
      | some (hdr, body) =>
        match relay hdr body hub.arrives with
        | none => .error 500 "internal error"
        | some r => .relayed r

def handleProxy : Proxied :=
  if hub.parsesID = false then ⟨none, .error 400 "bad site id"⟩
  else if hub.authenticated = false then ⟨none, .error 401 "unauthenticated"⟩
  else if hub.knowsSite = false then ⟨none, .error 404 "unknown site"⟩
  else if hub.linked = false then ⟨none, .error 503 "site is not currently linked"⟩
  else if hub.readsBody = false then ⟨none, .error 400 "read body"⟩
  else
    match hub.assertion with
    | none => ⟨none, .error 500 "assertion error"⟩
    | some actor =>
      match hub.service with
      | none => ⟨none, .error 500 "service token error"⟩
      | some svc =>
        if hub.opens = false then ⟨none, .error 502 "could not open site stream"⟩
        else proxyStream L parts i t hub handler op svc actor

end

def Answer.IsError : Answer → Prop
  | .error _ _ => True
  | .relayed r => 400 ≤ r.status

/-- The handler is not called and the operator gets an error; or it is called with the request of
the operator, who gets the response of the handler or an error of the hub. -/
def Transparent (handler : Principal → SiteRequest → List WriterOp) (op : OperatorRequest)
    (x : Proxied) : Prop :=
  match x.invoked with
  | none => x.answer.IsError
  | some (p, req) => (op.Same req ∧ req.contentType = op.contentType) ∧
      ∀ r, x.answer = .relayed r → r = response (handler p req)

/-- The request survives: its body is read to the end, its path, query and content type are
texts, and its path is read again as it was. -/
structure RequestKept (op : OperatorRequest) : Prop where
  body : op.body.length ≤ maxProxyBody
  path : Utf8 (bytes (wildcard op.text))
  reread : Reread op.text
  query : Utf8 op.query
  contentType : Utf8 op.contentType

section

variable {L : FederationLib} {parts : SiteParts} {i : VerifyInput} {t : SiteTables}
  {hub : ProxyInput} {handler : Principal → SiteRequest → List WriterOp} {op : OperatorRequest}
  {svc actor : ByteString} {p : Principal} {req : SiteRequest}

/-- The request that is dispatched is the one of the operator when the request survives. -/
theorem same_iff_requestKept (hlines : L.http.ReadsFirstLine) {n : ℕ} {claims : AssertionClaims}
    (h : (serveHubStream L parts i t (op.frame svc actor).wire (op.readBody.take n)).1 =
      .dispatched claims p req) :
    (op.Same req ∧ req.contentType = op.contentType) ↔ RequestKept op := by
  have hserve : serveHubHTTP L parts.ready i t (op.frame svc actor).wire (op.readBody.take n) =
      (.dispatched claims p req,
      (serveHubStream L parts i t (op.frame svc actor).wire (op.readBody.take n)).2) := by
    rw [← h]
    rfl
  cases httpOutcome hserve with
  | dispatched _ hle _ hnew htype hreq =>
    -- the whole of what was read has arrived
    have hlen : (op.frame svc actor).wire.bodyLen = op.readBody.length := rfl
    rw [hlen, Int.toNat_natCast, List.take_take] at hreq
    rw [hlen, Int.ofNat_le, List.length_take] at hle
    rw [min_eq_left (by omega), List.take_length] at hreq
    have hbody : req.body = op.body ↔ op.body.length ≤ maxProxyBody := by
      rw [hreq, OperatorRequest.readBody, List.take_eq_self_iff]
    have htext : req.contentType = op.contentType ↔ Utf8 op.contentType := by
      have heq : (op.frame svc actor).wire.header "Content-Type" = toText op.contentType := rfl
      rw [htype, heq, toText_eq_self_iff]
    have hsame := OperatorRequest.same_wire_iff hlines hnew
    constructor
    · rintro ⟨⟨hmethod, hurl, hquery, hwhole⟩, hct⟩
      obtain ⟨hpath, hreread, hutf8⟩ := hsame.mp ⟨hmethod, hurl, hquery⟩
      exact ⟨hbody.mp hwhole, hpath, hreread, hutf8, htext.mp hct⟩
    · rintro ⟨hwhole, hpath, hreread, hutf8, hct⟩
      obtain ⟨hmethod, hurl, hquery⟩ := hsame.mpr ⟨hpath, hreread, hutf8⟩
      exact ⟨⟨hmethod, hurl, hquery, hbody.mpr hwhole⟩, htext.mpr hct⟩

theorem le_status_of_refused {rest : ByteString} {f : Frame} {status : ℕ} {error : String}
    (hkind : f.kind = .http) (h : (serveHubStream L parts i t f rest).1 = .refused status error) :
    400 ≤ status ∧ status ≤ 999 := by
  unfold serveHubStream at h
  rw [hkind] at h
  rcases hserve : serveHubHTTP L parts.ready i t f rest with ⟨served, t'⟩
  rw [hserve] at h
  cases httpOutcome hserve <;> cases h <;> decide

theorem relayed_proxyStream {r : Response}
    (h : (proxyStream L parts i t hub handler op svc actor).answer = .relayed r) :
    ∃ served hdr body, servedOn L parts i t hub op svc actor = some served ∧
    served.reply handler = some (hdr, body) ∧
      relay hdr body hub.arrives = some r := by
  unfold proxyStream at h
  split at h
  · cases h
  split at h
  · cases h
  split at h
  · cases h
  rename_i hdr body hreply
  split at hreply
  · obtain ⟨served, hserved, hreply⟩ := Option.bind_eq_some_iff.mp hreply
    split at h
    · cases h
    · rename_i r' hrelay
      cases h
      exact ⟨served, hdr, body, hserved, hreply, hrelay⟩
  · cases hreply

theorem eq_dispatched_of_invoked {served : Served} (h : served.invoked = some (p, req)) :
    ∃ claims, served = .dispatched claims p req := by
  cases served with
  | dispatched claims p' req' =>
    cases h
    exact ⟨claims, rfl⟩
  | refused status error | closed error | terminal claims p' host | hubKey | drained | panicked =>
    cases h

theorem isError_of_refused {status : ℕ} {r : Response} {body : ByteString}
    (hstatus : 400 ≤ status ∧ status ≤ 999)
    (h : relay ⟨status, fun _ => none⟩ body hub.arrives = some r) : 400 ≤ r.status := by
  unfold relay at h
  have hne : (status : ℤ) ≠ 0 := by omega
  have hinfo : informational (status : ℤ) = false := by
    unfold informational
    rw [decide_eq_false_iff_not]
    omega
  simp only [if_neg hne, hinfo, Bool.false_eq_true, if_false] at h
  split at h
  · cases h
  · cases h
    dsimp only
    omega

theorem isError_proxyStream
    (h : (proxyStream L parts i t hub handler op svc actor).invoked = none) :
    (proxyStream L parts i t hub handler op svc actor).answer.IsError := by
  cases hanswer : (proxyStream L parts i t hub handler op svc actor).answer with
  | error status text => trivial
  | relayed r =>
    obtain ⟨served, hdr, body, hserved, hreply, hrelay⟩ := relayed_proxyStream hanswer
    have hinvoked : served.invoked = none := by
      unfold proxyStream at h
      rwa [hserved, Option.bind_some] at h
    obtain ⟨n, -, hserve⟩ := Option.map_eq_some_iff.mp hserved
    cases served with
    | refused status error =>
      cases hreply
      exact isError_of_refused (le_status_of_refused rfl hserve) hrelay
    | dispatched claims p req => cases hinvoked
    | closed error | terminal claims p host | hubKey | drained | panicked => cases hreply

theorem transparent_proxyStream_iff (hlines : L.http.ReadsFirstLine) :
    Transparent handler op (proxyStream L parts i t hub handler op svc actor) ↔
      ∀ p req, (proxyStream L parts i t hub handler op svc actor).invoked = some (p, req) →
        RequestKept op ∧
        ∀ r, (proxyStream L parts i t hub handler op svc actor).answer = .relayed r →
          ResponseKept (handler p req) hub.arrives := by
  unfold Transparent
  cases hinvoked : (proxyStream L parts i t hub handler op svc actor).invoked with
  | none => exact iff_of_true (isError_proxyStream hinvoked) nofun
  | some call =>
    obtain ⟨p, req⟩ := call
    obtain ⟨served, hserved, hcall⟩ := Option.bind_eq_some_iff.mp hinvoked
    obtain ⟨claims, rfl⟩ := eq_dispatched_of_invoked hcall
    obtain ⟨n, -, hserve⟩ := Option.map_eq_some_iff.mp hserved
    have hresponse : ∀ r, (proxyStream L parts i t hub handler op svc actor).answer = .relayed r →
        (r = response (handler p req) ↔ ResponseKept (handler p req) hub.arrives) := by
      intro r hr
      obtain ⟨served', hdr, body, hserved', hreply, hrelay⟩ := relayed_proxyStream hr
      cases hserved.symm.trans hserved'
      cases hreply
      exact relay_eq_response_iff hrelay
    dsimp only
    rw [same_iff_requestKept hlines hserve, forall₂_congr hresponse]
    constructor
    · rintro h p' req' heq
      cases heq
      exact h
    · exact fun h => h p req rfl

end

/-- **The proxy is transparent** exactly when a request that reaches the handler survives the way
there, and a response that is relayed the way back. -/
theorem proxy_transparent_iff (L : FederationLib) (hlines : L.http.ReadsFirstLine)
    (parts : SiteParts) (i : VerifyInput) (t : SiteTables) (hub : ProxyInput)
    (handler : Principal → SiteRequest → List WriterOp) (op : OperatorRequest) :
    Transparent handler op (handleProxy L parts i t hub handler op) ↔
      ∀ p req, (handleProxy L parts i t hub handler op).invoked = some (p, req) →
        RequestKept op ∧ ∀ r, (handleProxy L parts i t hub handler op).answer = .relayed r →
          ResponseKept (handler p req) hub.arrives := by
  fun_cases handleProxy L parts i t hub handler op with
  | case9 => exact transparent_proxyStream_iff hlines
  | _ => exact iff_of_true trivial (by rintro _ _ ⟨⟩)

/-! ## Requests and responses that do not survive -/

def smoothHub (token : ByteString) : ProxyInput where
  parsesID := true
  authenticated := true
  knowsSite := true
  linked := true
  readsBody := true
  assertion := some token
  service := some []
  opens := true
  writesFrame := true
  writesBody := true
  delivered := some maxProxyBody
  answered := true
  arrives := maxProxyBody

section

variable {handler : Principal → SiteRequest → List WriterOp} {op : OperatorRequest}

def smoothProxy (handler : Principal → SiteRequest → List WriterOp) (op : OperatorRequest) :
    Proxied :=
  handleProxy plainLib wholeSite allSucceed joinedTables (smoothHub (tokenFor op)) handler op

theorem smoothProxy_eq (handler : Principal → SiteRequest → List WriterOp) (op : OperatorRequest)
    (hascii : ∀ b ∈ tokenFor op, b < 128)
    (hnew : (newRequest plainLib.http (chars op.method)
      (chars (op.frame [] (tokenFor op)).wire.target)).isSome) :
    ∃ p req, (smoothProxy handler op).invoked = some (p, req) ∧ req.body = op.readBody ∧
      ∀ r, relay (respHeader (streamRW (handler p req)).result)
        (streamRW (handler p req)).body maxProxyBody = some r →
        (smoothProxy handler op).answer = .relayed r := by
  let f := (op.frame [] (tokenFor op)).wire
  obtain ⟨line, hline⟩ := Option.isSome_iff_exists.mp hnew
  have hmethod : f.method = op.method := toText_method
  have hpath : f.path = op.sitePath := by
    refine toText_of_ascii fun b hb => hascii b ?_
    replace hb : b ∈ op.sitePath := hb
    simp [tokenFor, hb]
  have htoken : f.actorAssertion = f.method ++ 0x0A :: (f.path ++ 0x0A :: op.readBody) := by
    rw [hmethod, hpath]
    exact toText_of_ascii hascii
  have hread : op.readBody.take maxProxyBody = op.readBody := by
    rw [OperatorRequest.readBody, List.take_take, min_self]
  have hbody : op.readBody.take f.bodyLen.toNat = op.readBody := List.take_length
  obtain ⟨claims, p, t', hverify⟩ := verified_plain htoken
  let req : SiteRequest := ⟨line.1, line.2.1, line.2.2, f.header "Content-Type", op.readBody⟩
  have hdispatched : serveHubHTTP plainLib true allSucceed joinedTables f op.readBody =
      (.dispatched claims p req, t') := by
    have hverify' : verifyAssertion plainLib allSucceed joinedTables f
        (op.readBody.take f.bodyLen.toNat) = (some (claims, p), t') := hbody.symm ▸ hverify
    rw [dispatched_of_verified (Int.natCast_nonneg _) le_rfl hverify' (hmethod ▸ hline), hbody]
  have hserved : servedOn plainLib wholeSite allSucceed joinedTables (smoothHub (tokenFor op)) op []
      (tokenFor op) = some (.dispatched claims p req) := by
    have hserve : (serveHubHTTP plainLib true allSucceed joinedTables f op.readBody).1 =
        .dispatched claims p req := by
      rw [hdispatched]
    rw [← hserve, ← hread]
    rfl
  have hstream : smoothProxy handler op = proxyStream plainLib wholeSite allSucceed joinedTables
      (smoothHub (tokenFor op)) handler op [] (tokenFor op) := rfl
  refine ⟨p, req, ?_, rfl, fun r hr => ?_⟩
  · rw [hstream, proxyStream, hserved]
    rfl
  · have hreply : Served.reply handler (.dispatched claims p req) =
        some (respHeader (streamRW (handler p req)).result, (streamRW (handler p req)).body) := rfl
    rw [hstream, proxyStream, hserved]
    simp [smoothHub, hreply, hr]

theorem kept_of_transparent_smooth {p : Principal} {req : SiteRequest}
    (h : Transparent handler op (smoothProxy handler op))
    (hinvoked : (smoothProxy handler op).invoked = some (p, req)) :
    RequestKept op ∧ ∀ r, (smoothProxy handler op).answer = .relayed r →
    ResponseKept (handler p req) maxProxyBody :=
  (transparent_proxyStream_iff plain_readsFirstLine).mp h p req hinvoked

theorem cut_of_long (hlong : op.body.length = maxProxyBody + 1)
    (hascii : ∀ b ∈ tokenFor op, b < 128)
    (hnew : (newRequest plainLib.http (chars op.method)
      (chars (op.frame [] (tokenFor op)).wire.target)).isSome) :
    ∃ p req, (smoothProxy handler op).invoked = some (p, req) ∧ req.body.length = maxProxyBody ∧
      ¬ Transparent handler op (smoothProxy handler op) := by
  obtain ⟨p, req, hinvoked, hbody, -⟩ := smoothProxy_eq handler op hascii hnew
  refine ⟨p, req, hinvoked, ?_, fun htransparent => ?_⟩
  · rw [hbody, OperatorRequest.readBody, List.length_take, hlong]
    omega
  · have hkept := (kept_of_transparent_smooth htransparent hinvoked).1.body
    omega

end

def longRequest (n : ℕ) : OperatorRequest :=
  ⟨utf8 "POST", utf8 "hosts", [], [], List.replicate n 0x61,
    by decide +kernel, plain_hosts, unescapes_hosts, plain_nil⟩

theorem length_longRequest (n : ℕ) : (longRequest n).body.length = n := List.length_replicate

theorem ascii_longRequest (n : ℕ) : ∀ b ∈ tokenFor (longRequest n), b < 128 := by
  have hmethod : ∀ b ∈ (longRequest n).method, b < 128 := by
    show ∀ b ∈ utf8 "POST", b < 128
    exact List.all_iff_forall_prop.mp (by decide +kernel)
  have hpath : ∀ b ∈ (longRequest n).sitePath, b < 128 := by
    show ∀ b ∈ utf8 "/api/v1/" ++ bytes (wildcard (chars (utf8 "hosts"))), b < 128
    exact List.all_iff_forall_prop.mp (by decide +kernel)
  have hbody : ∀ b ∈ (longRequest n).readBody, b < 128 := by
    intro b hb
    rw [List.eq_of_mem_replicate (List.mem_of_mem_take hb)]
    decide
  intro b hb
  simp only [tokenFor, List.mem_append, List.mem_cons] at hb
  rcases hb with h | rfl | h | rfl | h
  · exact hmethod b h
  · decide
  · exact hpath b h
  · decide
  · exact hbody b h

theorem newRequest_longRequest (n : ℕ) (actor : ByteString) :
    (newRequest plainLib.http (chars (longRequest n).method)
    (chars ((longRequest n).frame [] actor).wire.target)).isSome := by
  have hmethod : (longRequest n).method = (longRequest 0).method := rfl
  have htarget : ((longRequest n).frame [] actor).wire.target =
      ((longRequest 0).frame [] []).wire.target := rfl
  rw [hmethod, htarget]
  decide +kernel

/-- A request and a response that survive. -/
theorem proxy_transparent_plain :
    ∃ (op : OperatorRequest) (handler : Principal → SiteRequest → List WriterOp),
    op.escaped = utf8 "hosts" ∧ (smoothProxy handler op).invoked.isSome ∧
    Transparent handler op (smoothProxy handler op) := by
  let op : OperatorRequest :=
    ⟨utf8 "GET", utf8 "hosts", utf8 "limit=5", [], [], validMethod_get, plain_hosts,
    unescapes_hosts, List.all_iff_forall_prop.mp (by decide +kernel)⟩
  let ops : List WriterOp :=
    [.setHeader "Content-Type" (some [utf8 "application/json"]), .write (utf8 "[]")]
  obtain ⟨p, req, hinvoked, -, -⟩ :=
    smoothProxy_eq (fun _ _ => ops) op (List.all_iff_forall_prop.mp (by decide +kernel))
    (by decide +kernel)
  refine ⟨op, fun _ _ => ops, rfl, by rw [hinvoked]; rfl, ?_⟩
  refine (proxy_transparent_iff plainLib plain_readsFirstLine wholeSite allSucceed joinedTables
    (smoothHub (tokenFor op)) (fun _ _ => ops) op).mpr
    fun _ _ _ =>
    ⟨⟨by decide +kernel, by decide +kernel, by decide +kernel, by decide +kernel,
      by decide +kernel⟩,
      fun _ _ => ⟨by decide +kernel, by decide, fun name => ?_⟩⟩
  have hheader : (streamRW ops).result.2 =
      Function.update (fun _ => none) "Content-Type" (some [utf8 "application/json"]) := rfl
  rw [hheader]
  by_cases hname : name = "Content-Type"
  · rw [hname, Function.update_self]
    exact .inr ⟨_, rfl, utf8_utf8 _⟩
  · rw [Function.update_of_ne hname]
    exact .inl rfl

/-- A body that is one byte too long is cut and the request is executed; a path with an escaped
percent sign becomes another; and of two cookies that the handler sets one is left. -/
theorem proxy_not_transparent :
    (∃ op : OperatorRequest, op.body.length = maxProxyBody + 1 ∧ ∀ handler, ∃ p req,
      (smoothProxy handler op).invoked = some (p, req) ∧ req.body.length = maxProxyBody ∧
        ¬ Transparent handler op (smoothProxy handler op)) ∧
    (∃ op : OperatorRequest, op.escaped = utf8 "hosts/a%2541" ∧ ∀ handler, ∃ p req,
      (smoothProxy handler op).invoked = some (p, req) ∧
      ¬ Transparent handler op (smoothProxy handler op)) ∧
    ∃ (op : OperatorRequest) (ops : List WriterOp), op.escaped = utf8 "hosts" ∧
      (response ops).header "Set-Cookie" = [utf8 "a=1", utf8 "b=2"] ∧
      ¬ Transparent (fun _ _ => ops) op (smoothProxy (fun _ _ => ops) op) := by
  refine ⟨?_, ?_, ?_⟩
  · have hlong := length_longRequest (maxProxyBody + 1)
    refine ⟨longRequest (maxProxyBody + 1), hlong, fun handler => ?_⟩
    exact cut_of_long hlong (ascii_longRequest _) (newRequest_longRequest _ _)
  · let op : OperatorRequest := ⟨utf8 "GET", utf8 "hosts/a%2541", [], [], [], validMethod_get,
      List.all_iff_forall_prop.mp (by decide +kernel), by decide +kernel, plain_nil⟩
    refine ⟨op, rfl, fun handler => ?_⟩
    obtain ⟨p, req, hinvoked, -, -⟩ :=
      smoothProxy_eq handler op (List.all_iff_forall_prop.mp (by decide +kernel))
      (by decide +kernel)
    refine ⟨p, req, hinvoked, fun htransparent => ?_⟩
    have hkept := (kept_of_transparent_smooth htransparent hinvoked).1.reread
    exact absurd hkept (by decide +kernel)
  · let op : OperatorRequest := ⟨utf8 "GET", utf8 "hosts", [], [], [], validMethod_get, plain_hosts,
      unescapes_hosts, plain_nil⟩
    let ops : List WriterOp :=
      [.setHeader "Set-Cookie" (some [utf8 "a=1", utf8 "b=2"]), .writeHeader 204]
    obtain ⟨p, req, hinvoked, -, hanswer⟩ :=
      smoothProxy_eq (fun _ _ => ops) op (List.all_iff_forall_prop.mp (by decide +kernel))
      (by decide +kernel)
    refine ⟨op, ops, rfl, rfl, fun htransparent => ?_⟩
    have hkept := (kept_of_transparent_smooth htransparent hinvoked).2 _ (hanswer _ rfl)
    have hsingle : SingleValued (streamRW ops).result.2 := hkept.2.2
    rcases hsingle "Set-Cookie" with hnone | ⟨v, hv, -⟩
    · cases hnone
    · cases hv

end Moorgate.Federation
