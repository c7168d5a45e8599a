import Moorgate.Federation.Ingress

/-!
# Requests to a site: from `handleProxy` to `serveHubHTTP`

The router of the hub unescapes the path of a request, `handleProxy` puts that into a frame, and on
the site `httptest.NewRequest` reads it as a target. `same_wire_iff` says when this is the request
that the operator has made. The router looks at the path as it was sent when that is kept, so both
paths count.
-/

namespace Moorgate.Federation

open Framework Models Auth

/-! ## Paths that are read twice -/

section

variable {text path : List Char}

def apiBase : List Char := chars (utf8 "/api/v1/")

theorem apiBase_eq : apiBase = ['/', 'a', 'p', 'i', '/', 'v', '1', '/'] := by rfl

theorem blank_notMem_apiBase : ' ' ∉ apiBase := by simp [apiBase_eq]

theorem percent_notMem_apiBase : '%' ∉ apiBase := by simp [apiBase_eq]

theorem query_notMem_apiBase : '?' ∉ apiBase := by simp [apiBase_eq]

theorem newline_notMem_apiBase : '\n' ∉ apiBase := by simp [apiBase_eq]

theorem escape_apiBase : escape apiBase = apiBase := by
  rw [apiBase_eq]
  decide

theorem wildcard_cases (h : unescape text = some path) :
    (wildcard text = text ∧ escape path ≠ text) ∨ (wildcard text = path ∧ escape path = text) := by
  have hset : setPath text = some ⟨path, if escape path = text then [] else text⟩ := by
    rw [setPath, h]
    rfl
  have hwild : wildcard text = UrlPath.routePath ⟨path, if escape path = text then []
      else text⟩ := by
    rw [wildcard, hset]
    rfl
  rcases (setPath_eq_some hset).2 with ⟨hsame, hroute⟩ | ⟨hne, hroute⟩
  · exact .inr ⟨hwild.trans hroute, hsame⟩
  · exact .inl ⟨hwild.trans hroute, hne⟩

theorem isBytes_wildcard {l : ByteString} (h : unescape (chars l) = some path) :
    IsBytes (wildcard (chars l)) := by
  rcases wildcard_cases h with ⟨hkept, -⟩ | ⟨hpath, -⟩
  · rw [hkept]
    exact isBytes_chars l
  · rw [hpath]
    exact isBytes_unescape (isBytes_chars l) h

theorem setPath_apiBase (h : unescape text = some path) :
    ∃ asked, setPath (apiBase ++ text) = some asked ∧ asked.path = apiBase ++ path ∧
      asked.routePath = apiBase ++ wildcard text := by
  obtain ⟨asked, hasked⟩ : ∃ asked, setPath (apiBase ++ text) = some asked := by
    rw [← Option.isSome_iff_exists, setPath, unescape_append_of_plain percent_notMem_apiBase, h]
    rfl
  have hpath := (setPath_eq_some hasked).1
  rw [unescape_append_of_plain percent_notMem_apiBase, h, Option.map_some,
    Option.some.injEq] at hpath
  have hroute := routePath_append percent_notMem_apiBase escape_apiBase
      (Option.isSome_iff_exists.mpr ⟨path, h⟩)
  rw [hasked, Option.map_some, Option.some.injEq] at hroute
  exact ⟨asked, hasked, hpath.symm, hroute⟩

/-- A path that means the same when it is read again: it was kept as it was sent, or nothing in
it has a meaning. -/
def Reread (text : List Char) : Prop :=
  wildcard text = text ∨ ∀ c ∈ wildcard text, c ≠ '?' ∧ c ≠ '%' ∧ c ≠ '\n'

instance (text : List Char) : Decidable (Reread text) :=
  @instDecidableOr _ (∀ c ∈ wildcard text, c ≠ '?' ∧ c ≠ '%' ∧ c ≠ '\n') inferInstance
    (List.decidableBAll _ _)

theorem same_of_reread {url : UrlPath} (h : unescape text = some path) (hreread : Reread text)
    (hurl : setPath (apiBase ++ wildcard text) = some url) :
    url.path = apiBase ++ path ∧ url.routePath = apiBase ++ wildcard text := by
  have hkept : wildcard text = text → url.path = apiBase ++ path ∧
      url.routePath = apiBase ++ wildcard text := by
    intro heq
    obtain ⟨asked, hasked, hsame⟩ := setPath_apiBase h
    rw [heq, hasked] at hurl
    cases hurl
    exact hsame
  rcases hreread with heq | hplain
  · exact hkept heq
  rcases wildcard_cases h with ⟨heq, -⟩ | ⟨hpath, -⟩
  · exact hkept heq
  have hpercent : '%' ∉ apiBase ++ wildcard text := by
    rw [List.mem_append, not_or]
    exact ⟨percent_notMem_apiBase, fun hmem => (hplain _ hmem).2.1 rfl⟩
  obtain ⟨url', hurl', hpath', hroute'⟩ := setPath_self (unescape_of_plain hpercent)
  rw [hurl'] at hurl
  cases hurl
  rw [hpath] at hpath' hroute' ⊢
  exact ⟨hpath', hroute'⟩

theorem reread_of_same {url : UrlPath} {l : ByteString} (h : unescape text = some path)
    (hl : chars l = wildcard text)
    (hurl : setPath (apiBase ++ beforeQuery (chars (toText l))) = some url)
    (hpath : url.path = apiBase ++ path) (hroute : url.routePath = apiBase ++ wildcard text) :
    Utf8 l ∧ '?' ∉ wildcard text ∧ (wildcard text = text ∨ '%' ∉ wildcard text) := by
  obtain ⟨hp, hcases⟩ := setPath_eq_some hurl
  rw [unescape_append_of_plain percent_notMem_apiBase, hpath] at hp
  replace hp : unescape (beforeQuery (chars (toText l))) = some path := by
    obtain ⟨p, hp, happend⟩ := Option.map_eq_some_iff.mp hp
    rwa [List.append_cancel_left happend] at hp
  have hself : beforeQuery (chars (toText l)) = wildcard text →
      Utf8 l ∧ '?' ∉ wildcard text ∧ (wildcard text = text ∨ '%' ∉ wildcard text) := by
    intro heq
    have hquery : '?' ∉ wildcard text := heq ▸ notMem_beforeQuery _
    have hmark : '?' ∉ chars (toText l) := by
      rw [query_mem_chars_toText, hl]
      exact hquery
    rw [beforeQuery_eq_self_iff.mpr hmark] at heq hp
    refine ⟨toText_eq_self_iff.mp (chars_injective (heq.trans hl.symm)), hquery, ?_⟩
    rcases wildcard_cases h with ⟨hkept, -⟩ | ⟨hdecoded, -⟩
    · exact .inl hkept
    right
    rw [heq, hdecoded] at hp
    rw [hdecoded]
    exact unescape_eq_self_iff.mp hp
  rcases hcases with ⟨hescape, hmatched⟩ | ⟨-, hmatched⟩
  · -- the text is what escaping gives, and so it is ASCII
    rw [hpath, escape_append, escape_apiBase] at hescape
    have htext : beforeQuery (chars (toText l)) = escape path :=
      (List.append_cancel_left hescape).symm
    have hwild : wildcard text = path := by
      rw [hmatched, hpath] at hroute
      exact (List.append_cancel_left hroute).symm
    have hlen := length_le_length_escape path
    have hlen' : l.length = path.length := by rw [← hwild, ← hl, chars, List.length_map]
    have hfront : beforeQuery (chars (toText l)) <+: chars (toText l) := List.takeWhile_prefix _
    have hascii : ∀ b ∈ l, b < 128 := by
      refine ascii_of_prefix_toText (x := escape path) (z := []) (ascii_escape path) ?_ (by omega)
      rwa [List.append_nil, ← htext]
    have hwhole : chars (toText l) = wildcard text := by rw [toText_of_ascii hascii, hl]
    refine hself ((hfront.eq_of_length_le ?_).trans hwhole)
    rw [htext, hwhole, hwild]
    exact hlen
  · rw [hmatched] at hroute
    exact hself (List.append_cancel_left hroute)

end

/-! ## Requests -/

section

variable {G : GoHttp} {method a : List Char} {line : List Char × UrlPath × List Char}

theorem newRequest_apiBase (hmethod : validMethod method) (hline : '\n' ∉ a)
    (h : newRequest G method (apiBase ++ a) = some line) :
    line.1 = method ∧ setPath (apiBase ++ beforeQuery a) = some line.2.1 ∧
    line.2.2 = afterQuery a := by
  obtain ⟨rest, hrest⟩ : ∃ rest, apiBase = '/' :: rest := ⟨_, rfl⟩
  have hnewline : '\n' ∉ rest ++ a := by
    rw [List.mem_append, not_or]
    exact ⟨fun hmem => newline_notMem_apiBase (hrest ▸ List.mem_cons_of_mem _ hmem), hline⟩
  have hslash := newRequest_of_slash (G := G) hmethod hnewline
  rw [← List.cons_append, ← hrest, h, beforeQuery_append query_notMem_apiBase,
    afterQuery_append query_notMem_apiBase] at hslash
  split at hslash
  · cases hslash
  · obtain ⟨url, hurl, rfl⟩ := Option.map_eq_some_iff.mp hslash.symm
    exact ⟨rfl, hurl, rfl⟩

/-- Of a target with a newline in it only a part of the first line is read. -/
theorem newRequest_lines (hG : G.ReadsFirstLine) (hmethod : validMethod method) (hline : '\n' ∈ a)
    (h : newRequest G method (apiBase ++ a) = some line) :
    ∃ v, v <+: a ∧ '\n' ∉ v ∧ setPath (apiBase ++ beforeQuery v) = some line.2.1 := by
  obtain ⟨m, url, query⟩ := line
  unfold newRequest at h
  rw [if_pos (.inr (List.mem_append_right _ hline))] at h
  obtain ⟨uri, version, rest, hsplit, ⟨hblank, -⟩, ⟨huriBlank, huriLine⟩, -, hparse⟩ :=
    hG _ _ _ _ _ (ne_nil_of_validMethod hmethod) h
  obtain ⟨-, htarget⟩ := append_cons_inj (notMem_of_validMethod hmethod (by decide)) hblank hsplit
  -- the first line goes beyond the beginning, which has no blank
  obtain ⟨v, rfl, hv⟩ : ∃ v, uri = apiBase ++ v ∧ a = v ++ ' ' :: (version ++ '\n' :: rest) := by
    rcases List.append_eq_append_iff.mp htarget with ⟨v, rfl, hv⟩ | ⟨v, hbase, hv⟩
    · exact ⟨v, rfl, hv⟩
    cases v with
    | nil =>
      rw [List.append_nil] at hbase
      exact ⟨[], by rw [List.append_nil, hbase], hv.symm⟩
    | cons c v =>
      have hc : ' ' = c := (List.cons.inj hv).1
      have hmem : ' ' ∈ apiBase := by
        rw [hbase, hc]
        exact List.mem_append_right _ List.mem_cons_self
      exact absurd hmem blank_notMem_apiBase
  obtain ⟨tail, htail⟩ : ∃ tail, apiBase ++ v = '/' :: tail := ⟨_, rfl⟩
  have hslash : ¬ (m = "CONNECT".toList ∧ (apiBase ++ v).head? ≠ some '/') :=
    fun hconnect => hconnect.2 rfl
  rw [if_neg hslash, htail, parseRequestURI_of_slash, ← htail,
    beforeQuery_append query_notMem_apiBase] at hparse
  refine ⟨v, ⟨_, hv.symm⟩, fun hmem => huriLine (List.mem_append_right _ hmem), ?_⟩
  split at hparse
  · cases hparse
  · obtain ⟨url', hurl, ⟨⟩⟩ := Option.map_eq_some_iff.mp hparse
    exact hurl

end

def queryPart (q : ByteString) : List Char := if q = [] then [] else '?' :: chars q

theorem chars_target (f : Frame) : chars f.target = chars f.path ++ queryPart f.query := by
  unfold Frame.target queryPart
  split
  · rw [List.append_nil]
  · exact List.map_append

theorem beforeQuery_queryPart (a : List Char) (q : ByteString) :
    beforeQuery (a ++ queryPart q) = beforeQuery a := by
  induction a with
  | nil =>
    unfold queryPart
    split <;> rfl
  | cons c a ih =>
    by_cases hc : c = '?'
    · subst hc
      rfl
    · rw [List.cons_append, beforeQuery_cons hc, ih, beforeQuery_cons hc]

theorem afterQuery_queryPart {a : List Char} (h : '?' ∉ a) (q : ByteString) :
    afterQuery (a ++ queryPart q) = chars q := by
  rw [afterQuery_append h]
  unfold queryPart
  split
  · rename_i hnil
    rw [hnil]
    rfl
  · rfl

theorem newline_notMem_queryPart {q : ByteString} (h : '\n' ∉ chars q) : '\n' ∉ queryPart q := by
  unfold queryPart
  split
  · exact List.not_mem_nil
  · simpa using h

namespace OperatorRequest

variable (op : OperatorRequest)

def text : List Char := chars op.escaped

/-- The request is the one of the operator. -/
structure Same (req : SiteRequest) : Prop where
  method : req.method = chars op.method
  url : ∃ asked, setPath (apiBase ++ op.text) = some asked ∧ req.url.path = asked.path ∧
    req.url.routePath = asked.routePath
  query : req.rawQuery = chars op.query
  body : req.body = op.body

variable {op}

theorem exists_unescape : ∃ path, unescape op.text = some path :=
  Option.isSome_iff_exists.mp op.unescapes

theorem chars_wildcard : chars (bytes (wildcard op.text)) = wildcard op.text := by
  obtain ⟨path, hpath⟩ := op.exists_unescape
  exact chars_bytes (isBytes_wildcard hpath)

theorem chars_sitePath : chars op.sitePath = apiBase ++ wildcard op.text := by
  have happend : chars op.sitePath = apiBase ++ chars (bytes (wildcard op.text)) := List.map_append
  rw [happend, chars_wildcard]

theorem notMem_query {c : Char} (hc : isCtl c) : c ∉ chars op.query := by
  intro hmem
  cases hc.symm.trans (op.plain_query c hmem)

theorem newline_notMem_of_reread (h : Reread op.text) : '\n' ∉ wildcard op.text := by
  intro hmem
  rcases h with hkept | hplain
  · rw [hkept] at hmem
    exact absurd (op.plain_escaped _ hmem).2 (by decide)
  · exact (hplain _ hmem).2.2 rfl

theorem query_notMem_of_reread (h : Reread op.text) : '?' ∉ wildcard op.text := by
  intro hmem
  rcases h with hkept | hplain
  · rw [hkept] at hmem
    exact (op.plain_escaped _ hmem).1 rfl
  · exact (hplain _ hmem).1 rfl

/-- A request to the path of the operator, with the query of the operator, is the operator's. -/
theorem same_line {G : GoHttp} {line : List Char × UrlPath × List Char} (hreread : Reread op.text)
    (h : newRequest G (chars op.method) (chars op.sitePath ++ queryPart op.query) = some line) :
    line.1 = chars op.method ∧
    (∃ asked, setPath (apiBase ++ op.text) = some asked ∧ line.2.1.path = asked.path ∧
        line.2.1.routePath = asked.routePath) ∧ line.2.2 = chars op.query := by
  obtain ⟨path, hpath⟩ := op.exists_unescape
  have hquery := query_notMem_of_reread hreread
  have hline : '\n' ∉ wildcard op.text ++ queryPart op.query := by
    rw [List.mem_append, not_or]
    exact ⟨newline_notMem_of_reread hreread, newline_notMem_queryPart (notMem_query (by decide))⟩
  rw [chars_sitePath, List.append_assoc] at h
  obtain ⟨hmethod, hurl, hrest⟩ := newRequest_apiBase op.validMethod_method hline h
  rw [beforeQuery_queryPart, beforeQuery_eq_self_iff.mpr hquery] at hurl
  rw [afterQuery_queryPart hquery] at hrest
  obtain ⟨asked, hasked, hpathAsked, hrouteAsked⟩ := setPath_apiBase hpath
  obtain ⟨hsame, hroute⟩ := same_of_reread hpath hreread hurl
  exact ⟨hmethod, ⟨asked, hasked, hsame.trans hpathAsked.symm,
    hroute.trans hrouteAsked.symm⟩, hrest⟩

section

variable {G : GoHttp} {svc actor : ByteString} {line : List Char × UrlPath × List Char}

theorem chars_wire_target : chars (op.frame svc actor).wire.target =
    apiBase ++ (chars (toText (bytes (wildcard op.text))) ++ queryPart (toText op.query)) := by
  have hpath : (op.frame svc actor).wire.path = utf8 "/api/v1/" ++
      toText (bytes (wildcard op.text)) := toText_sitePath
  have happend : chars (op.frame svc actor).wire.path = apiBase ++
      chars (toText (bytes (wildcard op.text))) := by
    rw [hpath]
    exact List.map_append
  rw [chars_target, happend, List.append_assoc]
  rfl

theorem not_same_of_newline (hG : G.ReadsFirstLine) (hline : '\n' ∈ wildcard op.text)
    {asked : UrlPath} (hasked : setPath (apiBase ++ op.text) = some asked)
    (h : newRequest G (chars op.method) (chars (op.frame svc actor).wire.target) = some line) :
    ¬ (line.2.1.path = asked.path ∧ line.2.1.routePath = asked.routePath) := by
  rintro ⟨hpath, hroute⟩
  obtain ⟨path, hunescape⟩ := op.exists_unescape
  obtain ⟨asked', hasked', hpathAsked, hrouteAsked⟩ := setPath_apiBase hunescape
  cases hasked.symm.trans hasked'
  have hwild : wildcard op.text = path := by
    rcases wildcard_cases hunescape with ⟨hkept, -⟩ | ⟨hdecoded, -⟩
    · rw [hkept] at hline
      exact absurd (op.plain_escaped _ hline).2 (by decide)
    · exact hdecoded
  have hmem : '\n' ∈ chars (toText (bytes (wildcard op.text))) ++ queryPart (toText op.query) := by
    rw [List.mem_append, newline_mem_chars_toText, chars_wildcard]
    exact .inl hline
  rw [chars_wire_target] at h
  obtain ⟨v, hv, hnewline, hurl⟩ := newRequest_lines hG op.validMethod_method hmem h
  have hbefore : beforeQuery v <+: v := List.takeWhile_prefix _
  rw [hrouteAsked] at hroute
  rw [hpathAsked] at hpath
  rcases (setPath_eq_some hurl).2 with ⟨hescape, -⟩ | ⟨-, htext⟩
  · -- the first line would have the whole path, escaped
    rw [hpath, escape_append, escape_apiBase] at hescape
    have hread : escape path = beforeQuery v := List.append_cancel_left hescape
    have hfront := hbefore.trans hv
    have hlen : (bytes (wildcard op.text)).length ≤ (beforeQuery v).length := by
      rw [bytes, List.length_map, hwild, ← hread]
      exact length_le_length_escape path
    have hascii := ascii_of_prefix_toText (by rw [← hread]; exact ascii_escape path) hfront hlen
    rw [toText_of_ascii hascii, chars_wildcard] at hfront
    rw [bytes, List.length_map] at hlen
    have hwhole := List.prefix_of_prefix_length_le (List.prefix_append _ _) hfront hlen
    exact hnewline (hbefore.subset (hwhole.subset hline))
  · rw [htext] at hroute
    rw [← List.append_cancel_left hroute] at hline
    exact hnewline (hbefore.subset hline)

/-- The site reads the request of the operator when path and query are texts, and the path is read
again as it was. -/
theorem same_wire_iff (hG : G.ReadsFirstLine)
    (h : newRequest G (chars (op.frame svc actor).wire.method)
      (chars (op.frame svc actor).wire.target) = some line) :
    (line.1 = chars op.method ∧ (∃ asked, setPath (apiBase ++ op.text) = some asked ∧
      line.2.1.path = asked.path ∧
        line.2.1.routePath = asked.routePath) ∧ line.2.2 = chars op.query) ↔
      Utf8 (bytes (wildcard op.text)) ∧ Reread op.text ∧ Utf8 op.query := by
  have hmethod : (op.frame svc actor).wire.method = op.method := toText_method
  rw [hmethod] at h
  constructor
  · rintro ⟨-, ⟨asked, hasked, hpath, hroute⟩, hquery⟩
    have hline : '\n' ∉ wildcard op.text :=
      fun hline => not_same_of_newline hG hline hasked h ⟨hpath, hroute⟩
    obtain ⟨path, hunescape⟩ := op.exists_unescape
    obtain ⟨asked', hasked', hpathAsked, hrouteAsked⟩ := setPath_apiBase hunescape
    cases hasked.symm.trans hasked'
    rw [chars_wire_target] at h
    have hone : '\n' ∉ chars (toText (bytes (wildcard op.text))) ++
        queryPart (toText op.query) := by
      rw [List.mem_append, not_or, newline_mem_chars_toText, chars_wildcard]
      refine ⟨hline, newline_notMem_queryPart ?_⟩
      rw [newline_mem_chars_toText]
      exact notMem_query (by decide)
    obtain ⟨-, hurl, hrest⟩ := newRequest_apiBase op.validMethod_method hone h
    rw [beforeQuery_queryPart] at hurl
    obtain ⟨hutf8, hmark, hplain⟩ :=
      reread_of_same hunescape chars_wildcard hurl (hpath.trans hpathAsked)
      (hroute.trans hrouteAsked)
    rw [toText_eq_self_iff.mpr hutf8, chars_wildcard, afterQuery_queryPart hmark, hquery] at hrest
    refine ⟨hutf8, ?_, toText_eq_self_iff.mp (chars_injective hrest).symm⟩
    refine hplain.imp_right fun hpercent c hc => ⟨?_, ?_, ?_⟩
    · rintro rfl
      exact hmark hc
    · rintro rfl
      exact hpercent hc
    · rintro rfl
      exact hline hc
  · rintro ⟨hutf8, hreread, hquery⟩
    rw [chars_wire_target, toText_eq_self_iff.mpr hutf8, toText_eq_self_iff.mpr hquery,
      chars_wildcard, ← List.append_assoc, ← chars_sitePath] at h
    exact same_line hreread h

end

end OperatorRequest

/-! ## Requests on `plainLib` -/

theorem plain_readsFirstLine : plainLib.http.ReadsFirstLine := nofun

def tokenFor (op : OperatorRequest) : ByteString :=
  op.method ++ 0x0A :: (op.sitePath ++ 0x0A :: op.readBody)

end Moorgate.Federation
