import Moorgate.Federation.Requests

/-!
# One assertion, one request

The hub issues an assertion for each request of an operator, with the digest of the method, the
path and the body, and a nonce. A delivery here has any frame and any body. `verifyAssertion`
compares the digest and uses the nonce.

What was issued is used once in every run. That what is done is what was asked for needs more: the
query is in no digest; the digest is one of a joined text, which can be cut at any of its newlines;
a path is unescaped twice, and a long body is cut (`Requests`).
-/

namespace Moorgate.Federation

open Framework Models Auth

/-- An assertion and the request that it was issued for. A terminal is asked for by a `GET` of
`terminal/…` without a body. -/
structure Issue where
  claims : AssertionClaims
  op : OperatorRequest

inductive Acted where
  | request (req : SiteRequest)
  | terminal (method path : ByteString)

structure FedState where
  tables : SiteTables
  hubNonces : Table Nonce.nonce
  issued : List Issue
  acted : List (AssertionClaims × Acted)

inductive FedMove where
  | issue (claims : AssertionClaims) (op : OperatorRequest)
  | deliver (parts : SiteParts) (i : VerifyInput) (f : Frame) (rest : ByteString)
  /-- The site joins or leaves a hub, or changes its mode. -/
  | setHub (hub : Option FederationHub)
  /-- `PruneNonces`, on the hub. -/
  | prune (now : Instant)

def Served.acted (f : Frame) : Served → Option (AssertionClaims × Acted)
  | .dispatched claims _ req => some (claims, .request req)
  | .terminal claims _ _ => some (claims, .terminal f.method f.path)
  | _ => none

def FedState.delivered (L : FederationLib) (s : FedState) (parts : SiteParts) (i : VerifyInput)
    (f : Frame) (rest : ByteString) : FedState :=
  { s with
    tables := (serveHubStream L parts i s.tables f rest).2
    acted := s.acted ++ ((serveHubStream L parts i s.tables f rest).1.acted f).toList }

/-- The nonce of an assertion is random, and so it is new. -/
def fedStep (L : FederationLib) (s : FedState) : FedMove → Option FedState
  | .issue claims op =>
    if claims.requestDigest = requestDigest L op.method op.sitePath op.readBody ∧
        (∀ r ∈ s.issued, r.claims.nonce ≠ claims.nonce) ∧
        ∀ n ∈ s.tables.nonces.rows, n.nonce ≠ claims.nonce then
      some { s with issued := ⟨claims, op⟩ :: s.issued }
    else none
  | .deliver parts i f rest => some (s.delivered L parts i f rest)
  | .setHub hub => some { s with tables := { s.tables with hub } }
  | .prune now =>
    some { s with hubNonces := s.hubNonces.delete fun n => decide (n.expiresAt < now) }

/-! ## What was asked for -/

/-- What the site does is what the operator has asked for. -/
def OperatorRequest.Asked (op : OperatorRequest) : Acted → Prop
  | .request req => op.Same req
  | .terminal method path => method = op.method ∧ path = op.sitePath ∧ op.body = []

def FedState.Once (s : FedState) : Prop := s.acted.Pairwise fun a b => a.1 ≠ b.1

def FedState.Bound (s : FedState) : Prop :=
  ∀ r ∈ s.issued, ∀ a, (r.claims, a) ∈ s.acted → r.op.Asked a

/-- A request of which everything is in the digest but the query: the path is read again as it
was and has no blank, and the body is read to the end. -/
structure OperatorRequest.Plain (op : OperatorRequest) : Prop where
  reread : Reread op.text
  blank : ' ' ∉ wildcard op.text
  body : op.body.length ≤ maxProxyBody

/-- A delivery with an assertion that was issued is for a plain request, and has its query; a
terminal is for a request without a body. -/
def Faithful (L : FederationLib) (s : FedState) : FedMove → Prop
  | .deliver parts i f rest => ∀ r ∈ s.issued, ∀ a,
      (serveHubStream L parts i s.tables f rest).1.acted f = some (r.claims, a) → r.op.Plain ∧
        match a with
        | .request _ => f.query = r.op.query
        | .terminal _ _ => r.op.body = []
  | _ => True

variable {L : FederationLib} {parts : SiteParts} {i : VerifyInput} {f : Frame}
  {body rest : ByteString}

section

variable {t t' : SiteTables} {claims : AssertionClaims} {p : Principal} {a : Acted}

theorem digest_of_checkedClaims {now : Instant} {hub : FederationHub}
    (h : checkedClaims L now hub f body = some claims) :
    claims.requestDigest = requestDigest L f.method f.path body := by
  revert h
  fun_cases checkedClaims L now hub f body with
  | case2 =>
    rename_i hall
    rintro ⟨⟩
    exact hall.2.2
  | _ => rintro ⟨⟩

theorem nonces_verifyAssertion :
    (∀ n ∈ t.nonces.rows, n ∈ (verifyAssertion L i t f body).2.nonces.rows) ∧
      ∀ claims p, (verifyAssertion L i t f body).1 = some (claims, p) →
        claims.requestDigest = requestDigest L f.method f.path body ∧
        (∀ n ∈ t.nonces.rows, n.nonce ≠ claims.nonce) ∧
            ∃ n ∈ (verifyAssertion L i t f body).2.nonces.rows, n.nonce = claims.nonce := by
  rcases verifyAssertion_cases with hnone | ⟨hub, claims, nonces, hchecked, hinsert,
    hnone | ⟨shadowID, t', rfl, hsome⟩⟩
  · rw [hnone]
    exact ⟨fun n hn => hn, nofun⟩
  · rw [hnone]
    exact ⟨fun n hn => (Table.mem_insert hinsert).mpr (.inl hn), nofun⟩
  · rw [hsome]
    refine ⟨fun n hn => (Table.mem_insert hinsert).mpr (.inl hn), ?_⟩
    rintro claims' p heq
    cases heq
    exact ⟨digest_of_checkedClaims hchecked, fun n hn => Table.key_ne_of_insert hinsert hn,
      _, (Table.mem_insert hinsert).mpr (.inr rfl), rfl⟩

theorem nonces_serveHubStream {n : Nonce} (h : n ∈ t.nonces.rows) :
    n ∈ (serveHubStream L parts i t f rest).2.nonces.rows := by
  have hverify : ∀ {body r t'}, verifyAssertion L i t f body = (r, t') → n ∈ t'.nonces.rows := by
    intro body r t' heq
    have hkept : n ∈ (verifyAssertion L i t f body).2.nonces.rows := nonces_verifyAssertion.1 n h
    rwa [heq] at hkept
  have hhttp : n ∈ (serveHubHTTP L parts.ready i t f rest).2.nonces.rows := by
    rcases hserve : serveHubHTTP L parts.ready i t f rest with ⟨served, t'⟩
    cases httpOutcome hserve with
    | notReady | negative | short => exact h
    | unverified _ hv | malformed _ _ _ hv | dispatched _ _ hv => exact hverify hv
  unfold serveHubStream
  cases f.kind with
  | http | sftp => exact hhttp
  | ws =>
    rcases hserve : serveHubWS L parts i t f with ⟨served, t'⟩
    cases wsOutcome hserve with
    | unverified hv | closed _ hv | terminal hv => exact hverify hv
  | hubkey =>
    dsimp only
    unfold applyHubKey
    split <;> exact h
  | other kind => exact h

def ActedBy (L : FederationLib) (f : Frame) (body : ByteString) : Acted → Prop
  | .request req => req.body = body ∧
      newRequest L.http (chars f.method) (chars f.target) = some (req.method, req.url, req.rawQuery)
  | .terminal method path => method = f.method ∧ path = f.path ∧ body = []

theorem verified_of_acted_http {ready : Bool} {served : Served}
    (hserve : serveHubHTTP L ready i t f rest = (served, t'))
    (h : served.acted f = some (claims, a)) :
    ∃ p body, verifyAssertion L i t f body = (some (claims, p), t') ∧ ActedBy L f body a := by
  cases httpOutcome hserve with
  | dispatched _ _ hverify hnew _ hbody =>
    cases h
    exact ⟨_, _, hverify, hbody, hnew⟩
  | notReady | negative | short | unverified | malformed => cases h

theorem verified_of_acted_ws {served : Served} (hserve : serveHubWS L parts i t f = (served, t'))
    (h : served.acted f = some (claims, a)) :
    ∃ p, verifyAssertion L i t f [] = (some (claims, p), t') ∧ ActedBy L f [] a := by
  cases wsOutcome hserve with
  | terminal hverify =>
    cases h
    exact ⟨_, hverify, rfl, rfl, rfl⟩
  | unverified | closed => cases h

theorem verified_of_acted (h : (serveHubStream L parts i t f rest).1.acted f = some (claims, a)) :
    ∃ p body, verifyAssertion L i t f body =
      (some (claims, p), (serveHubStream L parts i t f rest).2) ∧ ActedBy L f body a := by
  unfold serveHubStream at h ⊢
  cases hkind : f.kind with
  | http | sftp =>
    rw [hkind] at h
    exact verified_of_acted_http rfl h
  | ws =>
    rw [hkind] at h
    obtain ⟨p, hverify, hacted⟩ := verified_of_acted_ws rfl h
    exact ⟨p, [], hverify, hacted⟩
  | hubkey | other kind =>
    rw [hkind] at h
    cases h

end

/-! ## What a digest leaves open -/

section

variable {op : OperatorRequest}

theorem newline_notMem_method : '\n' ∉ chars op.method :=
  ne_newline_of_validMethod op.validMethod_method

namespace OperatorRequest.Plain

theorem newline_notMem (h : op.Plain) : '\n' ∉ chars op.sitePath := by
  rw [chars_sitePath, List.mem_append, not_or]
  exact ⟨newline_notMem_apiBase, newline_notMem_of_reread h.reread⟩

theorem blank_notMem (h : op.Plain) : ' ' ∉ chars op.sitePath := by
  rw [chars_sitePath, List.mem_append, not_or]
  exact ⟨by decide +kernel, h.blank⟩

theorem readBody_eq (h : op.Plain) : op.readBody = op.body := List.take_of_length_le h.body

end OperatorRequest.Plain

theorem text_eq_of_digest (hdigest : Function.Injective L.digest)
    (h : requestDigest L op.method op.sitePath op.readBody = requestDigest L f.method f.path body) :
    chars f.method ++ '\n' :: (chars f.path ++ '\n' :: chars body) =
      chars op.method ++ '\n' :: (chars op.sitePath ++ '\n' :: chars op.readBody) := by
  have htext := congrArg chars (hdigest h)
  simp only [chars, List.map_append, List.map_cons] at htext
  exact htext.symm

/-- A request that is read of a frame with the digest of a plain request has its method, its path
and its body: another cut would have more than one line, and the first of them too few parts. -/
theorem cut_of_newRequest (hlines : L.http.ReadsFirstLine) (hplain : op.Plain)
    (htext : chars f.method ++ '\n' :: (chars f.path ++ '\n' :: chars body) =
      chars op.method ++ '\n' :: (chars op.sitePath ++ '\n' :: chars op.readBody))
    (hnew : (newRequest L.http (chars f.method) (chars f.target)).isSome) :
    f.method = op.method ∧ f.path = op.sitePath ∧ body = op.readBody := by
  obtain ⟨⟨m, url, query⟩, hline⟩ := Option.isSome_iff_exists.mp hnew
  have hblank : ' ' ∉ chars op.method := notMem_of_validMethod op.validMethod_method (by decide)
  rcases append_cons_cases newline_notMem_method htext with ⟨hmethod, hrest⟩ | ⟨y, hmethod, -⟩
  · rcases append_cons_cases hplain.newline_notMem hrest with ⟨hpath, hbody⟩ | ⟨y, hpath, -⟩
    · exact ⟨chars_injective hmethod, chars_injective hpath, chars_injective hbody⟩
    rw [chars_target, hmethod, hpath] at hline
    unfold newRequest at hline
    rw [if_pos (.inr (by simp))] at hline
    obtain ⟨uri, version, rest, hsplit, ⟨hm, -⟩, ⟨-, huri⟩, -, -⟩ :=
      hlines _ _ _ _ _ (ne_nil_of_validMethod op.validMethod_method) hline
    obtain ⟨-, htarget⟩ := append_cons_inj hblank hm hsplit
    rw [List.append_assoc, List.cons_append] at htarget
    exact absurd htarget.symm (append_cons_ne (by decide) hplain.blank_notMem huri)
  · rw [hmethod] at hline
    unfold newRequest at hline
    rw [if_pos (.inl (by simp))] at hline
    obtain ⟨uri, version, rest, hsplit, ⟨-, hm⟩, -, -, -⟩ := hlines _ _ _ _ _ (by simp) hline
    rw [List.append_assoc, List.cons_append] at hsplit
    exact absurd hsplit.symm (append_cons_ne (by decide) hblank hm)

/-- A terminal has no body, and a text with two newlines has one cut. -/
theorem cut_of_terminal (hplain : op.Plain) (hnil : op.body = [])
    (htext : chars f.method ++ '\n' :: (chars f.path ++ '\n' :: chars []) =
      chars op.method ++ '\n' :: (chars op.sitePath ++ '\n' :: chars op.readBody)) :
    f.method = op.method ∧ f.path = op.sitePath := by
  have hread : chars op.readBody = [] := by rw [hplain.readBody_eq, hnil]; rfl
  rw [hread] at htext
  rcases append_cons_cases newline_notMem_method htext with ⟨hmethod, hrest⟩ | ⟨y, -, hrest⟩
  · rcases append_cons_cases hplain.newline_notMem hrest with ⟨hpath, -⟩ | ⟨y, -, hbody⟩
    · exact ⟨chars_injective hmethod, chars_injective hpath⟩
    · simp at hbody
  · rcases append_cons_cases hplain.newline_notMem hrest.symm with ⟨-, hbody⟩ | ⟨z, -, hbody⟩
    · simp at hbody
    · simp at hbody

end

/-! ## Runs -/

section

variable {s s' : FedState} {m : FedMove}

/-- Every use has its nonce in the table, and every digest is that of the request. -/
structure FedInv (L : FederationLib) (s : FedState) : Prop where
  used : ∀ a ∈ s.acted, ∃ n ∈ s.tables.nonces.rows, n.nonce = a.1.nonce
  once : s.acted.Pairwise fun a b => a.1.nonce ≠ b.1.nonce
  digests : ∀ r ∈ s.issued, r.claims.requestDigest = requestDigest L r.op.method r.op.sitePath
    r.op.readBody

theorem fedStep_cases (h : fedStep L s m = some s') :
    (∃ claims op, m = .issue claims op ∧
      claims.requestDigest = requestDigest L op.method op.sitePath op.readBody ∧
      (∀ n ∈ s.tables.nonces.rows, n.nonce ≠ claims.nonce) ∧
      s' = { s with issued := ⟨claims, op⟩ :: s.issued }) ∨
    (∃ parts i f rest, m = .deliver parts i f rest ∧ s' = s.delivered L parts i f rest) ∨
    (s'.issued = s.issued ∧ s'.acted = s.acted ∧ s'.tables.nonces = s.tables.nonces) := by
  cases m with
  | issue claims op =>
    simp only [fedStep] at h
    split at h
    · rename_i hfresh
      cases h
      exact .inl ⟨claims, op, rfl, hfresh.1, hfresh.2.2, rfl⟩
    · cases h
  | deliver parts i f rest =>
    simp only [fedStep, Option.some.injEq] at h
    exact .inr (.inl ⟨parts, i, f, rest, rfl, h.symm⟩)
  | setHub hub | prune now =>
    cases h
    exact .inr (.inr ⟨rfl, rfl, rfl⟩)

theorem fedInv_delivered (hinv : FedInv L s) : FedInv L (s.delivered L parts i f rest) := by
  have hkept : ∀ a ∈ s.acted, ∃ n ∈ (serveHubStream L parts i s.tables f rest).2.nonces.rows,
      n.nonce = a.1.nonce := by
    intro a ha
    obtain ⟨n, hn, hnonce⟩ := hinv.used a ha
    exact ⟨n, nonces_serveHubStream hn, hnonce⟩
  cases hacted : (serveHubStream L parts i s.tables f rest).1.acted f with
  | none =>
    have hsame : (s.delivered L parts i f rest).acted = s.acted := by
      rw [FedState.delivered, hacted, Option.toList_none, List.append_nil]
    refine ⟨?_, ?_, hinv.digests⟩
    · rw [hsame]
      exact hkept
    · rw [hsame]
      exact hinv.once
  | some use =>
    obtain ⟨claims, a⟩ := use
    have happend : (s.delivered L parts i f rest).acted = s.acted ++ [(claims, a)] := by
      rw [FedState.delivered, hacted, Option.toList_some]
    obtain ⟨p, body, hverify, -⟩ := verified_of_acted hacted
    obtain ⟨-, hnew, hadded⟩ := nonces_verifyAssertion.2 claims p (congrArg Prod.fst hverify)
    rw [hverify] at hadded
    refine ⟨?_, ?_, hinv.digests⟩
    · intro b hb
      rw [happend, List.mem_append, List.mem_singleton] at hb
      rcases hb with hold | rfl
      · exact hkept b hold
      · exact hadded
    · rw [happend, List.pairwise_append]
      refine ⟨hinv.once, List.pairwise_singleton _ _, ?_⟩
      intro b hb c hc
      rw [List.mem_singleton] at hc
      subst hc
      obtain ⟨n, hn, hnonce⟩ := hinv.used b hb
      exact hnonce ▸ hnew n hn

theorem fedInv_step (hinv : FedInv L s) (h : fedStep L s m = some s') : FedInv L s' := by
  rcases fedStep_cases h with ⟨claims, op, -, hdigest, -, rfl⟩ | ⟨parts, i, f, rest, -, rfl⟩ |
    ⟨hissued, hacted, hnonces⟩
  · exact ⟨hinv.used, hinv.once, List.forall_mem_cons.mpr ⟨hdigest, hinv.digests⟩⟩
  · exact fedInv_delivered hinv
  · refine ⟨?_, ?_, ?_⟩
    · rw [hacted, hnonces]
      exact hinv.used
    · rw [hacted]
      exact hinv.once
    · rw [hissued]
      exact hinv.digests

theorem asked_of_faithful (hlines : L.http.ReadsFirstLine) (hdigest : Function.Injective L.digest)
    (hinv : FedInv L s) (hfaithful : Faithful L s (.deliver parts i f rest))
    {r : Issue} (hr : r ∈ s.issued) {a : Acted}
    (hacted : (serveHubStream L parts i s.tables f rest).1.acted f = some (r.claims, a)) :
    r.op.Asked a := by
  obtain ⟨hplain, hquery⟩ := hfaithful r hr a hacted
  obtain ⟨p, body, hverify, hby⟩ := verified_of_acted hacted
  have hchecked := (nonces_verifyAssertion.2 r.claims p (congrArg Prod.fst hverify)).1
  have htext := text_eq_of_digest hdigest ((hinv.digests r hr).symm.trans hchecked)
  cases a with
  | request req =>
    obtain ⟨hbody, hnew⟩ := hby
    obtain ⟨hmethod, hpath, hread⟩ :=
      cut_of_newRequest hlines hplain htext (Option.isSome_iff_exists.mpr ⟨_, hnew⟩)
    rw [chars_target, hmethod, hpath, show f.query = r.op.query from hquery] at hnew
    obtain ⟨hm, hurl, hq⟩ := OperatorRequest.same_line hplain.reread hnew
    exact ⟨hm, hurl, hq, by rw [hbody, hread, hplain.readBody_eq]⟩
  | terminal method path =>
    obtain ⟨rfl, rfl, rfl⟩ := hby
    obtain ⟨hmethod, hpath⟩ := cut_of_terminal hplain hquery htext
    exact ⟨hmethod, hpath, hquery⟩

theorem bound_step (hlines : L.http.ReadsFirstLine) (hdigest : Function.Injective L.digest)
    (hinv : FedInv L s) (hbound : s.Bound) (hfaithful : Faithful L s m)
    (h : fedStep L s m = some s') : s'.Bound := by
  rcases fedStep_cases h with ⟨claims, op, -, -, hfresh, rfl⟩ | ⟨parts, i, f, rest, rfl, rfl⟩ |
    ⟨hissued, hacted, -⟩
  · intro r hr a ha
    rcases List.mem_cons.mp hr with rfl | hold
    · -- a new nonce was not used yet
      obtain ⟨n, hn, hnonce⟩ := hinv.used _ ha
      exact absurd hnonce (hfresh n hn)
    · exact hbound r hold a ha
  · intro r hr a ha
    rcases List.mem_append.mp ha with hold | hnew
    · exact hbound r hr a hold
    · exact asked_of_faithful hlines hdigest hinv hfaithful hr (Option.mem_toList.mp hnew)
  · unfold FedState.Bound
    rw [hissued, hacted]
    exact hbound

end

/-- **An assertion is used once**, in every run, and for what it was issued for in every run whose
deliveries are faithful. -/
theorem assertion_once_bound (L : FederationLib) (hlines : L.http.ReadsFirstLine)
    (hdigest : Function.Injective L.digest) (tables : SiteTables) (hubNonces : Table Nonce.nonce)
    (ms : List FedMove) (s : FedState)
    (h : exec (fedStep L) ⟨tables, hubNonces, [], []⟩ ms = some s) :
    s.Once ∧ (Guarded (fedStep L) (Faithful L) ⟨tables, hubNonces, [], []⟩ ms → s.Bound) := by
  have hstart : FedInv L ⟨tables, hubNonces, [], []⟩ := ⟨nofun, List.Pairwise.nil, nofun⟩
  constructor
  · have hinv := exec_invariant_of_step (fun hinv hstep => fedInv_step hinv hstep) h hstart
    exact hinv.once.imp fun hne heq => hne (congrArg AssertionClaims.nonce heq)
  · intro hguarded
    have hstep : ∀ {s m s'}, FedInv L s ∧ s.Bound → Faithful L s m → fedStep L s m = some s' →
        FedInv L s' ∧ s'.Bound :=
      fun hs hfaithful hm => ⟨fedInv_step hs.1 hm, bound_step hlines hdigest hs.1 hs.2 hfaithful hm⟩
    exact (exec_invariant hstep hguarded h ⟨hstart, nofun⟩).2

/-! ## Runs in which an assertion is used for something else -/

theorem plain_digest_injective : Function.Injective plainLib.digest := fun _ _ h =>
  chars_injective (String.ofList_injective h)

def plainClaims (token : ByteString) : AssertionClaims :=
  ⟨"site", "7", "operator", ["Host.View"], false, [], String.ofList (chars token), "once"⟩

def listRequest : OperatorRequest :=
  ⟨utf8 "GET", utf8 "hosts", utf8 "limit=5", [], [], validMethod_get, plain_hosts, unescapes_hosts,
    List.all_iff_forall_prop.mp (by decide +kernel)⟩

def newlineRequest : OperatorRequest :=
  ⟨utf8 "DELETE", utf8 "hosts/x%0Ay", [], [], [],
    by decide +kernel, List.all_iff_forall_prop.mp (by decide +kernel),
    by decide +kernel, plain_nil⟩

def issueAndDeliver (op : OperatorRequest) (f : Frame) (rest : ByteString) : List FedMove :=
  [.issue (plainClaims (tokenFor op)) op, .deliver wholeSite allSucceed f rest]

def joinedSite : FedState := ⟨joinedTables, .empty, [], []⟩

theorem fedStep_issue (op : OperatorRequest) :
    fedStep plainLib joinedSite (.issue (plainClaims (tokenFor op)) op) =
    some { joinedSite with issued := [⟨plainClaims (tokenFor op), op⟩] } :=
  if_pos ⟨rfl, nofun, nofun⟩

theorem exec_issueAndDeliver (op : OperatorRequest) (f : Frame) (rest : ByteString) :
    exec (fedStep plainLib) joinedSite (issueAndDeliver op f rest) =
      some (FedState.delivered plainLib
        { joinedSite with issued := [⟨plainClaims (tokenFor op), op⟩] } wholeSite allSucceed f
        rest) := by
  rw [issueAndDeliver, exec, fedStep_issue]
  rfl

/-- The frame of the hub, delivered as it is. -/
theorem assertion_once_bound_list : ∃ s, exec (fedStep plainLib) joinedSite
      (issueAndDeliver listRequest (listRequest.frame [] (tokenFor listRequest)).wire []) = some s ∧
    s.acted.length = 1 ∧ s.Once ∧ s.Bound := by
  refine ⟨_, exec_issueAndDeliver _ _ _, by decide +kernel, ?_⟩
  obtain ⟨honce, hbound⟩ := assertion_once_bound plainLib plain_readsFirstLine
      plain_digest_injective joinedTables .empty
    _ _ (exec_issueAndDeliver listRequest (listRequest.frame [] (tokenFor listRequest)).wire [])
  refine ⟨honce, hbound ((guarded_cons (fedStep_issue listRequest)).mpr ⟨trivial,
    (guarded_cons rfl).mpr ⟨?_, trivial⟩⟩)⟩
  intro r hr a ha
  rw [List.mem_singleton] at hr
  subst hr
  refine ⟨⟨by decide +kernel, by decide +kernel, by decide +kernel⟩, ?_⟩
  cases a with
  | request req => exact toText_eq_self_iff.mpr (utf8_utf8 "limit=5")
  | terminal method path => rfl

theorem not_bound_of_dispatched {op : OperatorRequest} {f : Frame} {rest : ByteString}
    {p : Principal} {req : SiteRequest}
    (h : (serveHubStream plainLib wholeSite allSucceed joinedTables f rest).1 =
      .dispatched (plainClaims (tokenFor op)) p req) (hne : ¬ op.Same req) :
    ∃ s, exec (fedStep plainLib) joinedSite (issueAndDeliver op f rest) = some s ∧
      s.acted = [(plainClaims (tokenFor op), .request req)] ∧ ¬ s.Bound := by
  have hacted : (FedState.delivered plainLib
      { joinedSite with issued := [⟨plainClaims (tokenFor op), op⟩] } wholeSite allSucceed f
      rest).acted =
        [(plainClaims (tokenFor op), .request req)] := by
    show [] ++ ((serveHubStream plainLib wholeSite allSucceed joinedTables f rest).1.acted
      f).toList = _
    rw [h]
    rfl
  refine ⟨_, exec_issueAndDeliver op f rest, hacted, fun hbound => hne ?_⟩
  exact hbound _ (List.mem_singleton_self _) _ (hacted ▸ List.mem_singleton_self _)

/-- The same assertion with another query; and one for a path with a newline, delivered with a
part of the path as the body. -/
theorem assertion_not_bound :
    (∃ s req, exec (fedStep plainLib) joinedSite (issueAndDeliver listRequest
        { (listRequest.frame [] (tokenFor listRequest)).wire with query := utf8 "limit=9" }
        []) = some s ∧
      req.rawQuery = "limit=9".toList ∧
      s.acted = [(plainClaims (tokenFor listRequest), .request req)] ∧ ¬ s.Bound) ∧
    ∃ s req, exec (fedStep plainLib) joinedSite (issueAndDeliver newlineRequest
        { (newlineRequest.frame [] (tokenFor newlineRequest)).wire with
          path := utf8 "/api/v1/hosts/x", bodyLen := 2 }
        (utf8 "y\n")) = some s ∧
      req.url.path = "/api/v1/hosts/x".toList ∧
      s.acted = [(plainClaims (tokenFor newlineRequest), .request req)] ∧ ¬ s.Bound := by
  constructor
  · let req : SiteRequest := ⟨"GET".toList, ⟨"/api/v1/hosts".toList, []⟩, "limit=9".toList, [], []⟩
    have hdispatched : (serveHubStream plainLib wholeSite allSucceed joinedTables
        { (listRequest.frame [] (tokenFor listRequest)).wire with query := utf8 "limit=9" } []).1 =
          .dispatched (plainClaims (tokenFor listRequest))
          (assertedPrincipal (plainClaims (tokenFor listRequest)) ⟨9⟩)
            req := by decide +kernel
    obtain ⟨s, hexec, hacted, hbound⟩ := not_bound_of_dispatched hdispatched fun hsame =>
      absurd hsame.query (by decide +kernel)
    exact ⟨s, req, hexec, rfl, hacted, hbound⟩
  · let req : SiteRequest := ⟨"DELETE".toList, ⟨"/api/v1/hosts/x".toList, []⟩, [], [], utf8 "y\n"⟩
    have hdispatched : (serveHubStream plainLib wholeSite allSucceed joinedTables
        { (newlineRequest.frame [] (tokenFor newlineRequest)).wire with
          path := utf8 "/api/v1/hosts/x", bodyLen := 2 } (utf8 "y\n")).1 = .dispatched
          (plainClaims (tokenFor newlineRequest))
          (assertedPrincipal (plainClaims (tokenFor newlineRequest)) ⟨9⟩) req := by decide +kernel
    obtain ⟨s, hexec, hacted, hbound⟩ := not_bound_of_dispatched hdispatched fun hsame =>
      absurd hsame.body (by decide +kernel)
    exact ⟨s, req, hexec, rfl, hacted, hbound⟩

end Moorgate.Federation
