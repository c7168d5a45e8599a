import Moorgate.Brokers.Audited
import Moorgate.Framework.Base.Ipv4

/-!
# The address of the client: `realIP`

Each proxy adds the address of its own peer to `X-Forwarded-For`, so the client is the right-most
address there that is not a proxy's, and `realIP` puts it in the place of the peer's. Of several
lines of that header `Header.Get` returns the first: when a proxy adds a line of its own, or the
client sends two, the address is the one that the client wrote there (`realIP_client_iff`).
-/

namespace Moorgate.Api

open Framework Brokers

/-! ## Addresses -/

def isAddressChar (c : Char) : Bool :=
  c.isDigit || ['a', 'b', 'c', 'd', 'e', 'f', '.', ':'].contains c

/-- What `net` has on addresses. A network is the test for its addresses. -/
structure Net (IP : Type) where
  parseIP : String → Option IP
  string : IP → String
  parseCIDR : String → Option (IP → Bool)
  parse_string : ∀ ip, parseIP (string ip) = some ip
  parse_empty : parseIP "" = none
  mem_string : ∀ ip, ∀ c ∈ (string ip).toList, isAddressChar c

def joinHostPort (host port : String) : String :=
  if ':' ∈ host.toList then "[" ++ host ++ "]:" ++ port else host ++ ":" ++ port

theorem isAddressChar_dotted (a : ℕ) : ∀ c ∈ (dotted a).toList, isAddressChar c := by
  intro c h
  rcases mem_dotted h with rfl | hdigit
  · rfl
  · rw [isAddressChar, hdigit, Bool.true_or]

/-- `net` with IPv4 addresses only. -/
def ipv4Net : Net (Fin (2 ^ 32)) where
  parseIP := parseDotted
  string a := dotted a
  parseCIDR s := (parseBlock s).map fun b a => b.contains a
  parse_string := parseDotted_dotted
  parse_empty := by
    have hone : splitWith '.' "".toList = [[]] := rfl
    rw [parseDotted, hone, List.map_singleton]
    cases parseOctet [] <;> rfl
  mem_string a := isAddressChar_dotted a

theorem of_isAddressChar {c : Char} (h : isAddressChar c) :
    isSpace c = false ∧ c ≠ ',' ∧ c ≠ '[' ∧ c ≠ ']' := by
  rw [isAddressChar, Bool.or_eq_true, List.contains_iff_mem] at h
  rcases h with hdigit | hmem
  · refine ⟨isSpace_of_isDigit hdigit, ?_, ?_, ?_⟩
    all_goals rintro rfl; exact absurd hdigit (by decide)
  · fin_cases hmem <;> decide

section

variable {IP : Type} (net : Net IP)

variable (ip : IP)

theorem string_ne_empty : net.string ip ≠ "" := by
  intro h
  have hparse := net.parse_string ip
  rw [h, net.parse_empty] at hparse
  cases hparse

theorem trim_string : trim isSpace (net.string ip).toList = (net.string ip).toList :=
  trim_eq_self fun c hc => (of_isAddressChar (net.mem_string ip c hc)).1

theorem comma_notMem_string : ',' ∉ (net.string ip).toList :=
  fun h => (of_isAddressChar (net.mem_string ip _ h)).2.1 rfl

theorem remoteHost_joinHostPort {port : String}
    (hport : ∀ c ∈ port.toList, c ≠ ':' ∧ c ≠ '[' ∧ c ≠ ']') :
    remoteHost (joinHostPort (net.string ip) port) = net.string ip := by
  have hhost : ∀ c ∈ (net.string ip).toList, c ≠ '[' ∧ c ≠ ']' := fun c hc =>
    (of_isAddressChar (net.mem_string ip c hc)).2.2
  by_cases hcolon : ':' ∈ (net.string ip).toList
  · have htext : ("[" ++ net.string ip ++ "]:" ++ port).toList =
        '[' :: ((net.string ip).toList ++ ']' :: ':' ::
        port.toList) := by simp [String.toList_append]
    rw [joinHostPort, if_pos hcolon, remoteHost, htext, splitHostPort_bracketed hhost hport]
    exact String.ofList_toList
  · have htext : (net.string ip ++ ":" ++ port).toList = (net.string ip).toList ++ ':' ::
        port.toList := by
      simp [String.toList_append]
    have hplain : ∀ c ∈ (net.string ip).toList, c ≠ ':' ∧ c ≠ '[' ∧ c ≠ ']' := fun c hc =>
      ⟨fun h => hcolon (h ▸ hc), hhost c hc⟩
    rw [joinHostPort, if_neg hcolon, remoteHost, htext, splitHostPort_plain hplain hport]
    exact String.ofList_toList

theorem joinHostPort_inj {ip ip' : IP} {port port' : String}
    (hport : ∀ c ∈ port.toList, c ≠ ':' ∧ c ≠ '[' ∧ c ≠ ']')
    (hport' : ∀ c ∈ port'.toList, c ≠ ':' ∧ c ≠ '[' ∧ c ≠ ']')
    (h : joinHostPort (net.string ip) port = joinHostPort (net.string ip') port') : ip = ip' := by
  have hhosts := congrArg remoteHost h
  rw [remoteHost_joinHostPort net ip hport, remoteHost_joinHostPort net ip' hport'] at hhosts
  have hparse := net.parse_string ip
  rw [hhosts, net.parse_string] at hparse
  exact (Option.some.inj hparse).symm

end

/-! ## The middleware -/

/-- `forwardedFor` has the lines of `X-Forwarded-For` in their order. -/
structure Request where
  remoteAddr : String
  forwardedFor : List String

def Request.forwarded (r : Request) : String := r.forwardedFor.headD ""

section

variable {IP : Type} (net : Net IP)

def parsePart (part : List Char) : Option IP := net.parseIP (trimSpace (String.ofList part))

/-- The loop over the parts, from the right. -/
def scanParts (trusted : IP → Bool) : List (List Char) → String
  | [] => ""
  | part :: parts =>
    match parsePart net part with
    | none => scanParts trusted parts
    | some ip => if trusted ip then scanParts trusted parts else net.string ip

def clientFromXFF (trusted : IP → Bool) (r : Request) : String :=
  match net.parseIP (remoteHost r.remoteAddr) with
  | none => ""
  | some peer =>
    -- the direct peer is no proxy: the header is not looked at
    if !trusted peer then ""
    else scanParts net trusted (splitWith ',' r.forwarded.toList).reverse

def inTrusted (cidrs : List String) (ip : IP) : Bool :=
  (cidrs.filterMap fun c => net.parseCIDR (trimSpace c)).any fun n => n ip

def realIP (cidrs : List String) (r : Request) : Request :=
  let ip := clientFromXFF net (inTrusted net cidrs) r
  if ip ≠ "" then { r with remoteAddr := joinHostPort ip "0" } else r

/-! ## The right-most address that is no proxy's -/

def entries (line : List Char) : List IP := (splitWith ',' line).filterMap (parsePart net)

def lastUntrusted (trusted : IP → Bool) (line : String) : Option IP :=
  (entries net line.toList).reverse.find? fun ip => !trusted ip

variable {trusted : IP → Bool}

theorem scanParts_eq (parts : List (List Char)) : scanParts net trusted parts =
      (((parts.filterMap (parsePart net)).find? fun ip => !trusted ip).map net.string).getD "" := by
  induction parts with
  | nil => rfl
  | cons part parts ih =>
    unfold scanParts
    cases hparse : parsePart net part with
    | none => rw [List.filterMap_cons_none hparse, ih]
    | some ip =>
      rw [List.filterMap_cons_some hparse, List.find?_cons]
      cases htrusted : trusted ip with
      | true => simpa [htrusted] using ih
      | false => simp [htrusted]

theorem scanParts_line (line : String) : scanParts net trusted (splitWith ',' line.toList).reverse =
      ((lastUntrusted net trusted line).map net.string).getD "" := by
  rw [scanParts_eq, lastUntrusted, entries, List.filterMap_reverse]

theorem entries_string (ip : IP) : entries net (net.string ip).toList = [ip] := by
  have hparse : parsePart net (net.string ip).toList = some ip := by
    rw [parsePart, trimSpace, String.toList_ofList, trim_string, String.ofList_toList,
      net.parse_string]
  rw [entries, splitWith_of_notMem (comma_notMem_string net ip), List.filterMap_cons_some hparse]
  rfl

theorem entries_append (line : List Char) (ip : IP) :
    entries net (line ++ ',' :: ' ' :: (net.string ip).toList) = entries net line ++ [ip] := by
  have hcomma : ',' ∉ ' ' :: (net.string ip).toList := by
    rw [List.mem_cons, not_or]
    exact ⟨by decide, comma_notMem_string net ip⟩
  have hparse : parsePart net (' ' :: (net.string ip).toList) = some ip := by
    have htrim : trim isSpace (' ' :: (net.string ip).toList) = (net.string ip).toList :=
      trim_string net ip
    rw [parsePart, trimSpace, String.toList_ofList, htrim, String.ofList_toList, net.parse_string]
  rw [entries, splitWith_append_cons, List.filterMap_append, splitWith_of_notMem hcomma,
    List.filterMap_cons_some hparse]
  rfl

theorem lastUntrusted_append (line : String) (ip : IP) :
    lastUntrusted net trusted (line ++ ", " ++ net.string ip) =
      if trusted ip then lastUntrusted net trusted line else some ip := by
  have htext : (line ++ ", " ++ net.string ip).toList = line.toList ++ ',' :: ' ' ::
      (net.string ip).toList := by
    simp [String.toList_append]
  rw [lastUntrusted, htext, entries_append, List.reverse_append, List.reverse_singleton,
    List.singleton_append, List.find?_cons]
  cases trusted ip <;> rfl

theorem lastUntrusted_string {ip : IP} (h : trusted ip = false) :
    lastUntrusted net trusted (net.string ip) = some ip := by
  rw [lastUntrusted, entries_string, List.reverse_singleton, List.find?_singleton, h]
  rfl

end

/-! ## The way of a request -/

/-- How a proxy adds an address: to the last line, or as a line of its own. -/
inductive Adding where
  | append | further
deriving DecidableEq

structure Hop (IP : Type) where
  address : IP
  adding : Adding

def Adding.add : Adding → String → List String → List String
  | .further, peer, lines => lines ++ [peer]
  | .append, peer, lines =>
    match lines.getLast? with
    | none => [peer]
    | some line => lines.dropLast ++ [line ++ ", " ++ peer]

/-- A client that is no proxy, and the proxies on the way, from the client's side. -/
structure Route {IP : Type} (net : Net IP) (cidrs : List String) where
  client : IP
  first : Hop IP
  rest : List (Hop IP)
  port : ℕ
  untrusted : inTrusted net cidrs client = false
  trusted : ∀ hop ∈ first :: rest, inTrusted net cidrs hop.address

section

variable {IP : Type} (net : Net IP)

/-- The last peer and the lines after the proxies. -/
def passOn : IP → List (Hop IP) → List String → IP × List String
  | peer, [], lines => (peer, lines)
  | peer, hop :: hops, lines => passOn hop.address hops (hop.adding.add (net.string peer) lines)

def Route.deliver {cidrs : List String} (route : Route net cidrs) (sent : List String) : Request :=
  let arrived := passOn net route.client (route.first :: route.rest) sent
  { remoteAddr := joinHostPort (net.string arrived.1) (zeroPad 0 route.port)
    forwardedFor := arrived.2 }

variable {trusted : IP → Bool}

theorem add_cons (adding : Adding) (text line : String) (lines : List String) :
    (¬(lines = [] ∧ adding = .append) ∧ ∃ more, adding.add text (line :: lines) = line :: more) ∨
      (lines = [] ∧ adding = .append ∧ adding.add text (line :: lines) =
        [line ++ ", " ++ text]) := by
  cases adding with
  | further => exact .inl ⟨fun h => Adding.noConfusion h.2, lines ++ [text], rfl⟩
  | append =>
    cases lines with
    | nil => exact .inr ⟨rfl, rfl, rfl⟩
    | cons next lines =>
      left
      exact ⟨fun h => List.cons_ne_nil next lines h.1, _, rfl⟩

/-- Trusted addresses behind a line or at its end do not change what is found in it. -/
theorem passOn_trusted (hops : List (Hop IP)) (peer : IP) (line : String) (lines : List String)
    (hpeer : trusted peer) (hhops : ∀ hop ∈ hops, trusted hop.address) :
    ∃ line' more, (passOn net peer hops (line :: lines)).2 = line' :: more ∧
      lastUntrusted net trusted line' = lastUntrusted net trusted line := by
  induction hops generalizing peer line lines with
  | nil => exact ⟨line, lines, rfl, rfl⟩
  | cons hop hops ih =>
    obtain ⟨hhop, hrest⟩ := List.forall_mem_cons.mp hhops
    rw [passOn]
    rcases add_cons hop.adding (net.string peer) line lines with ⟨-, more, hadd⟩ | ⟨-, -, hadd⟩
    · rw [hadd]
      exact ih hop.address line more hhop hrest
    · rw [hadd]
      obtain ⟨line', more, hlines, hfound⟩ :=
        ih hop.address (line ++ ", " ++ net.string peer) [] hhop hrest
      refine ⟨line', more, hlines, hfound.trans ?_⟩
      rw [lastUntrusted_append, if_pos hpeer]

theorem passOn_fst_trusted (hops : List (Hop IP)) (peer : IP) (lines : List String)
    (hpeer : trusted peer) (hhops : ∀ hop ∈ hops, trusted hop.address) :
    trusted (passOn net peer hops lines).1 := by
  induction hops generalizing peer lines with
  | nil => exact hpeer
  | cons hop hops ih =>
    obtain ⟨hhop, hrest⟩ := List.forall_mem_cons.mp hhops
    exact ih hop.address _ hhop hrest

end

section

variable {IP : Type} (net : Net IP) (cidrs : List String)

theorem port_chars (n : ℕ) : ∀ c ∈ (zeroPad 0 n).toList, c ≠ ':' ∧ c ≠ '[' ∧ c ≠ ']' := by
  intro c hc
  have hdigit := isDigit_of_mem_zeroPad hc
  refine ⟨?_, ?_, ?_⟩
  all_goals rintro rfl; exact absurd hdigit (by decide)

theorem realIP_of_peer {peer : IP} {port : ℕ} {lines : List String}
    (hpeer : inTrusted net cidrs peer) :
    (realIP net cidrs ⟨joinHostPort (net.string peer) (zeroPad 0 port), lines⟩).remoteAddr =
      match lastUntrusted net (inTrusted net cidrs) (lines.headD "") with
      | some ip => joinHostPort (net.string ip) "0"
      | none => joinHostPort (net.string peer) (zeroPad 0 port) := by
  have hclient : clientFromXFF net (inTrusted net cidrs)
      ⟨joinHostPort (net.string peer) (zeroPad 0 port), lines⟩ =
      ((lastUntrusted net (inTrusted net cidrs) (lines.headD "")).map net.string).getD "" := by
    rw [clientFromXFF, remoteHost_joinHostPort net peer (port_chars port), net.parse_string]
    simp only [hpeer, Bool.not_true, Bool.false_eq_true, if_false]
    exact scanParts_line net _
  rw [realIP, hclient]
  cases lastUntrusted net (inTrusted net cidrs) (lines.headD "") with
  | none => rfl
  | some ip => exact congrArg Request.remoteAddr (if_pos (string_ne_empty net ip))

/-- The client's address is the right-most one in the first line. -/
def Route.Attributed {net : Net IP} {cidrs : List String} (route : Route net cidrs)
    (sent : List String) : Prop :=
  sent = [] ∨ (∃ line, sent = [line] ∧ route.first.adding = .append) ∨
    ∃ line others, sent = line :: others ∧
    lastUntrusted net (inTrusted net cidrs) line = some route.client

theorem add_sent (route : Route net cidrs) (sent : List String) :
    ∃ line more, route.first.adding.add (net.string route.client) sent = line :: more ∧
      (lastUntrusted net (inTrusted net cidrs) line = some route.client ↔
        route.Attributed sent) := by
  cases sent with
  | nil =>
    refine ⟨net.string route.client, [], ?_, ?_⟩
    · cases route.first.adding <;> rfl
    · exact iff_of_true (lastUntrusted_string net route.untrusted) (.inl rfl)
  | cons own others =>
    rcases add_cons route.first.adding (net.string route.client) own others with
      ⟨hlone, more, hadd⟩ | ⟨rfl, happend, hadd⟩
    · -- the client's own line, as it was sent
      refine ⟨own, more, hadd, fun h => .inr (.inr ⟨own, others, rfl, h⟩), ?_⟩
      rintro (hnone | ⟨_, hone, happend⟩ | ⟨_, _, hcons, h⟩)
      · cases hnone
      · cases hone
        exact absurd ⟨rfl, happend⟩ hlone
      · cases hcons
        exact h
    · refine ⟨_, [], hadd, ?_⟩
      rw [lastUntrusted_append, route.untrusted]
      exact iff_of_true rfl (.inr (.inl ⟨own, rfl, happend⟩))

theorem deliver_eq (route : Route net cidrs) (sent : List String) :
    ∃ peer line more, inTrusted net cidrs peer ∧
      route.deliver net sent = ⟨joinHostPort (net.string peer) (zeroPad 0 route.port),
        line :: more⟩ ∧
      (lastUntrusted net (inTrusted net cidrs) line = some route.client ↔
        route.Attributed sent) := by
  obtain ⟨hfirst, hrest⟩ := List.forall_mem_cons.mp route.trusted
  obtain ⟨line₁, more₁, hadd, hfound₁⟩ := add_sent net cidrs route sent
  obtain ⟨line, more, hlines, hfound⟩ :=
    passOn_trusted net route.rest route.first.address line₁ more₁ hfirst hrest
  have hpass : passOn net route.client (route.first :: route.rest) sent =
      passOn net route.first.address route.rest (line₁ :: more₁) := by
    rw [passOn, hadd]
  refine ⟨(passOn net route.first.address route.rest (line₁ :: more₁)).1, line, more,
    passOn_fst_trusted net route.rest route.first.address _ hfirst hrest, ?_, ?_⟩
  · rw [Route.deliver, hpass, hlines]
  · rw [hfound]
    exact hfound₁

/-- **The client address.** It is the client's if the client sends no line, or one to which the
first proxy appends, or a first line in which its address is found anyway. -/
theorem realIP_client_iff (route : Route net cidrs) (sent : List String) :
    (realIP net cidrs (route.deliver net sent)).remoteAddr = joinHostPort
      (net.string route.client) "0" ↔ route.Attributed sent := by
  obtain ⟨peer, line, more, hpeer, hdeliver, hfound⟩ := deliver_eq net cidrs route sent
  rw [hdeliver, realIP_of_peer net cidrs hpeer, ← hfound]
  have hzero : ∀ c ∈ "0".toList, c ≠ ':' ∧ c ≠ '[' ∧ c ≠ ']' :=
    List.forall_mem_singleton.mpr (by decide)
  show (match lastUntrusted net (inTrusted net cidrs) line with
    | some ip => joinHostPort (net.string ip) "0"
    | none => joinHostPort (net.string peer) (zeroPad 0 route.port)) = _ ↔ _
  cases lastUntrusted net (inTrusted net cidrs) line with
  | none =>
    refine iff_of_false (fun h => ?_) nofun
    have hsame : peer = route.client := joinHostPort_inj net (port_chars route.port) hzero h
    rw [hsame, route.untrusted] at hpeer
    cases hpeer
  | some ip =>
    constructor
    · intro h
      rw [joinHostPort_inj net hzero hzero h]
    · intro h
      rw [Option.some.inj h]

end

theorem trusts_proxy_alone : inTrusted ipv4Net ["10.0.0.0/8"] (3405803785#32).toFin = false ∧
    inTrusted ipv4Net ["10.0.0.0/8"] (167772162#32).toFin := by
  decide +kernel

/-- A client at 203.0.113.9 behind one proxy at 10.0.0.2, which adds lines. -/
def routeOfLines : Route ipv4Net ["10.0.0.0/8"] where
  client := (3405803785#32).toFin
  first := ⟨(167772162#32).toFin, .further⟩
  rest := []
  port := 50412
  untrusted := trusts_proxy_alone.1
  trusted := List.forall_mem_singleton.mpr trusts_proxy_alone.2

/-- The client is whoever it says. -/
theorem realIP_takes_written_address :
    (realIP ipv4Net ["10.0.0.0/8"] (routeOfLines.deliver ipv4Net ["198.51.100.7"])).remoteAddr =
      "198.51.100.7:0" ∧
      joinHostPort (ipv4Net.string routeOfLines.client) "0" = "203.0.113.9:0" := by
  decide +kernel

end Moorgate.Api
