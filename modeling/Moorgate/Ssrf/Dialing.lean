import Moorgate.Framework.Base.Text

/-!
# Where audit events are sent: `ssrf.go`, and `send` of `auditfwd.go`

A target is resolved and checked before it is dialled. The HTTP client resolves again when it dials,
checks that answer too and dials an address of it, also after a redirect. The syslog transports hand
the name to the dialer, which asks the resolver once more and checks nothing. -/

namespace Moorgate.Ssrf

open Framework

/-- `net.IP` in its sixteen bytes. -/
abbrev Addr := Fin (2 ^ 128)

namespace Addr

def to4 (a : Addr) : Option ℕ := if a.val / 2 ^ 32 = 0xffff then some (a.val % 2 ^ 32) else none

/-- The address begins with these bits, of 32 or of 128. -/
def leads (ones₄ bits₄ ones₆ bits₆ : ℕ) (a : Addr) : Bool :=
  match a.to4 with
  | some n => n / 2 ^ (32 - ones₄) == bits₄
  | none => a.val / 2 ^ (128 - ones₆) == bits₆

def isLoopback : Addr → Bool := leads 8 127 128 1
def isLinkLocalUnicast : Addr → Bool := leads 16 0xa9fe 10 0x3fa
def isUnspecified : Addr → Bool := leads 32 0 128 0
def isMulticast : Addr → Bool := leads 4 14 8 0xff
def isLinkLocalMulticast (a : Addr) : Bool :=
  match a.to4 with
  | some n => n / 2 ^ 8 == 224 * 2 ^ 16
  | none => a.val / 2 ^ 120 == 0xff && a.val / 2 ^ 112 % 16 == 2

def disallowed (a : Addr) : Bool :=
  a.isLoopback || a.isLinkLocalUnicast || a.isLinkLocalMulticast || a.isUnspecified || a.isMulticast

end Addr

structure Config where
  (type address protocol caCertPEM : String)
  tls : Bool

/-- What is not up to the forwarder. `lookup k` is the answer to its `k`-th question, with nothing
for an error; `redirects` is where the collectors send it on to; `url` gives scheme and host. -/
structure Outside where
  lookup : ℕ → List Addr
  redirects : List String
  splitHostPort : String → Option (String × String)
  lookupPort : String → Bool
  url : String → Option (String × String)
  toLower : String → String
  appendCertsFromPEM : String → Bool

variable (o : Outside) (reach : Addr → Bool) (cfg : Config)

def Config.isHttp : Bool := o.toLower cfg.type == "http"

/-- The `k`-th answer has addresses, all of which may be dialled. -/
def checked (k : ℕ) : Bool := o.lookup k ≠ [] && (o.lookup k).all fun a => !a.disallowed

def validateHost (k : ℕ) (host : String) : Bool := host ≠ "" && checked o k

def validateURL (k : ℕ) (raw : String) : Bool :=
  (o.url (trimSpace raw)).any fun u => (u.1 == "http" || u.1 == "https") && validateHost o k u.2

def validateHostPort (k : ℕ) (addr : String) : Bool :=
  validateHost o k (((o.splitHostPort (trimSpace addr)).map Prod.fst).getD (trimSpace addr))

def validateTarget (k : ℕ) : Bool :=
  if cfg.isHttp o then validateURL o k cfg.address else validateHostPort o k cfg.address

/-- An address that answers. Which one the dialer prefers is left to `reach`. -/
def dial (k : ℕ) : Option Addr := (o.lookup k).find? reach

def safeDialContext (k : ℕ) : Option Addr := if checked o k then dial o reach k else none

/-- The connections of `client.Do` from the `k`-th question on, when `via` requests were made. -/
def requests (k via : ℕ) : List String → List Addr
  | [] => (safeDialContext o reach k).toList
  | raw :: rest =>
    match safeDialContext o reach k with
    | none => []
    | some a => a :: if via < 5 ∧ validateURL o (k + 1) raw then requests (k + 2) (via + 1) rest
        else []

def tlsConfig : Bool :=
  trimSpace cfg.caCertPEM == "" || o.appendCertsFromPEM (trimSpace cfg.caCertPEM)

/-- UDP, TCP or TLS: whether `dialSyslog` gets to dial. The protocol only chooses the network. -/
def dials : Bool :=
  (!cfg.tls || tlsConfig o cfg) && (o.splitHostPort cfg.address).any fun hp => o.lookupPort hp.2

def dialSyslog (k : ℕ) : Option Addr := if dials o cfg then dial o reach k else none

/-- The connections that `send` opens. -/
def send : List Addr :=
  if validateTarget o cfg 0 then
    if cfg.isHttp o then
      if (o.url cfg.address).isSome then requests o reach 1 1 o.redirects else []
    else (dialSyslog o reach cfg 1).toList
  else []

/-! ## Connections -/

variable {o reach cfg} {a : Addr} {k via : ℕ}

theorem allowed_safeDialContext (h : safeDialContext o reach k = some a) :
    a.disallowed = false := by
  obtain ⟨hchecked, hdial⟩ := Option.ite_none_right_eq_some.mp h
  rw [checked, Bool.and_eq_true, List.all_eq_true] at hchecked
  exact Bool.not_eq_true' _ ▸ hchecked.2 a (List.mem_of_find?_eq_some hdial)

theorem allowed_requests {rest : List String} (h : a ∈ requests o reach k via rest) :
    a.disallowed = false := by
  induction rest generalizing k via with
  | nil => exact allowed_safeDialContext (Option.mem_toList.mp h)
  | cons raw rest ih =>
    unfold requests at h
    split at h
    · cases h
    · rename_i hdial
      rcases List.mem_cons.mp h with rfl | h
      · exact allowed_safeDialContext hdial
      · split at h
        · exact ih h
        · cases h

/-- Every address of an answer is dialled, if only that one can be reached. -/
theorem dial_beq (h : a ∈ o.lookup k) : dial o (a == ·) k = some a := by
  obtain ⟨b, hb⟩ := Option.isSome_iff_exists.mp (List.find?_isSome.mpr ⟨a, h, beq_self_eq_true a⟩)
  obtain rfl : a = b := eq_of_beq (List.find?_some hb)
  exact hb

/-- Whoever can be reached, no connection goes to a forbidden address, exactly if the transport is
HTTP, the target is refused, nothing is dialled, or the second answer of the resolver has no such
address. -/
theorem send_allowed_iff (o : Outside) (cfg : Config) :
    (∀ reach, ∀ a ∈ send o reach cfg, a.disallowed = false) ↔
      cfg.isHttp o ∨ validateTarget o cfg 0 = false ∨ dials o cfg = false ∨
        ∀ a ∈ o.lookup 1, a.disallowed = false := by
  unfold send dialSyslog
  by_cases hvalid : validateTarget o cfg 0
  · by_cases hhttp : cfg.isHttp o
    · simp only [hvalid, hhttp, if_true, true_or, iff_true]
      intro reach a ha
      split at ha
      · exact allowed_requests ha
      · cases ha
    · by_cases hdial : dials o cfg
      · simp only [hvalid, hhttp, hdial, if_true, Bool.false_eq_true, if_false, Option.mem_toList,
          false_or, Bool.true_eq_false]
        constructor
        · intro hall a ha
          exact hall (a == ·) a (dial_beq ha)
        · exact fun hall reach a ha => hall a (List.mem_of_find?_eq_some ha)
      · simp [hhttp, hdial]
  · simp [hvalid]

/-- The name is a private address when it is checked, and the metadata service when it is dialled.
-/
theorem send_rebinds :
    send ⟨fun k => if k = 0 then [0xffff0a000007] else [0xffffa9fea9fe], [],
      fun _ => some ("siem", "514"), fun _ => true, fun _ => none, id, fun _ => true⟩ (fun _ =>
        true) ⟨"syslog", "siem:514", "udp", "", false⟩ = [0xffffa9fea9fe] ∧
          Addr.isLinkLocalUnicast 0xffffa9fea9fe := by
  decide

end Moorgate.Ssrf
