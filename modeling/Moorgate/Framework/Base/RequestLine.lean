import Moorgate.Framework.Base.Text
import Moorgate.Framework.Base.Url
import Moorgate.Framework.Base.Utf8

/-!
# Request lines

`newRequest` is Go's `httptest.NewRequest`, as far as the request line goes: the method,
the target and `HTTP/1.0` are joined by blanks and read again. It is `none` where the
source panics. `parseRequestURI` is that of `net/url`.

A newline in the method or the target makes more than one line of it. What a library
makes of those is left open (`GoHttp.lines`), and so is which authorities it accepts.
-/

namespace Moorgate.Framework

/-- The bytes as characters, one each. -/
def chars (l : ByteString) : List Char := l.map fun b => Char.ofNat b.toNat

def bytes (t : List Char) : ByteString := t.map fun c => UInt8.ofNat c.toNat

theorem toNat_ofNat_byte (b : UInt8) : (Char.ofNat b.toNat).toNat = b.toNat := by
  have hvalid : Nat.isValidChar b.toNat := .inl (by have := b.toNat_lt; omega)
  rw [Char.ofNat, dif_pos hvalid]
  rfl

theorem bytes_chars (l : ByteString) : bytes (chars l) = l := by
  unfold bytes chars
  rw [List.map_map]
  refine (List.map_congr_left fun b _ => ?_).trans (List.map_id l)
  rw [Function.comp_apply, toNat_ofNat_byte, UInt8.ofNat_toNat, id]

theorem chars_injective : Function.Injective chars := Function.LeftInverse.injective bytes_chars

def IsBytes (t : List Char) : Prop := ∀ c ∈ t, c.toNat < 256

theorem isBytes_chars (l : ByteString) : IsBytes (chars l) := by
  intro c hc
  obtain ⟨b, -, rfl⟩ := List.mem_map.mp hc
  rw [toNat_ofNat_byte]
  exact b.toNat_lt

variable {t : List Char}

theorem chars_bytes (h : IsBytes t) : chars (bytes t) = t := by
  unfold bytes chars
  rw [List.map_map]
  refine (List.map_congr_left fun c hc => ?_).trans (List.map_id t)
  rw [Function.comp_apply, UInt8.toNat_ofNat', Nat.mod_eq_of_lt (h c hc), Char.ofNat_toNat, id]

variable {l : ByteString}

theorem ofNat_mem_chars {b : UInt8} : Char.ofNat b.toNat ∈ chars l ↔ b ∈ l := by
  refine ⟨fun h => ?_, fun h => List.mem_map_of_mem h⟩
  obtain ⟨a, ha, hab⟩ := List.mem_map.mp h
  have hnat := congrArg Char.toNat hab
  rw [toNat_ofNat_byte, toNat_ofNat_byte, UInt8.toNat_inj] at hnat
  rwa [← hnat]

theorem ascii_mem_chars_toText {b : UInt8} (hb : b < 128) :
    Char.ofNat b.toNat ∈ chars (toText l) ↔ Char.ofNat b.toNat ∈ chars l := by
  rw [ofNat_mem_chars, ofNat_mem_chars, mem_toText_of_ascii hb]

theorem newline_mem_chars_toText : '\n' ∈ chars (toText l) ↔ '\n' ∈ chars l :=
  ascii_mem_chars_toText (b := 0x0A) (by decide)

theorem query_mem_chars_toText : '?' ∈ chars (toText l) ↔ '?' ∈ chars l :=
  ascii_mem_chars_toText (b := 0x3F) (by decide)

/-! ## Unescaping -/

theorem unhex_lt {c : Char} {n : ℕ} (h : unhex c = some n) : n < 16 := by
  revert h
  have hval : ∀ {a b : Char}, a ≤ b → a.toNat ≤ b.toNat := fun hab => hab
  fun_cases unhex c with
  | case1 hc | case2 _ hc | case3 _ _ hc =>
    rintro ⟨⟩
    have := hval hc.2
    simp only [Char.reduceToNat] at this ⊢
    omega
  | case4 => rintro ⟨⟩

theorem length_unescape {u : List Char} (h : unescape t = some u) :
    u.length ≤ t.length ∧ ('%' ∈ t → u.length < t.length) := by
  fun_induction unescape t generalizing u with
  | case1 =>
    cases h
    exact ⟨le_rfl, nofun⟩
  | case2 hi lo rest a b _ _ ih =>
    obtain ⟨v, hv, rfl⟩ := Option.map_eq_some_iff.mp h
    have hlen := (ih hv).1
    refine ⟨?_, fun _ => ?_⟩ <;> simp only [List.length_cons] <;> omega
  | case3 | case4 => cases h
  | case5 c rest hc ih =>
    obtain ⟨v, hv, rfl⟩ := Option.map_eq_some_iff.mp h
    obtain ⟨hle, hlt⟩ := ih hv
    refine ⟨Nat.succ_le_succ hle, fun hmem => Nat.succ_lt_succ (hlt ?_)⟩
    exact (List.mem_cons.mp hmem).resolve_left fun heq => hc heq.symm

theorem unescape_of_plain (h : '%' ∉ t) : unescape t = some t := by
  have happend := unescape_append_of_plain (b := []) h
  have hnil : unescape [] = some [] := rfl
  rwa [hnil, Option.map_some, List.append_nil] at happend

theorem unescape_eq_self_iff : unescape t = some t ↔ '%' ∉ t := by
  refine ⟨fun h hmem => ?_, unescape_of_plain⟩
  exact lt_irrefl _ ((length_unescape h).2 hmem)

theorem isBytes_unescape {u : List Char} (ht : IsBytes t) (h : unescape t = some u) :
    IsBytes u := by
  unfold IsBytes at *
  fun_induction unescape t generalizing u with
  | case1 =>
    cases h
    exact ht
  | case2 hi lo rest a b ha hb ih =>
    obtain ⟨v, hv, rfl⟩ := Option.map_eq_some_iff.mp h
    simp only [List.forall_mem_cons] at ht ⊢
    refine ⟨?_, ih ht.2.2.2 hv⟩
    have hlt : 16 * a + b < 256 := by
      have := unhex_lt ha
      have := unhex_lt hb
      omega
    have hbyte := toNat_ofNat_byte (UInt8.ofNat (16 * a + b))
    rw [UInt8.toNat_ofNat', Nat.mod_eq_of_lt hlt] at hbyte
    omega
  | case3 | case4 => cases h
  | case5 c rest hc ih =>
    obtain ⟨v, hv, rfl⟩ := Option.map_eq_some_iff.mp h
    rw [List.forall_mem_cons] at ht ⊢
    exact ⟨ht.1, ih ht.2 hv⟩

/-! ## Targets -/

def isCtl (c : Char) : Bool := decide (c.toNat < 32) || decide (c.toNat = 127)

/-- `getScheme`, with what has been read of the scheme; `none` is an error. -/
def getScheme (raw : List Char) : List Char → List Char → Option (List Char × List Char)
  | _, [] => some ([], raw)
  | scheme, c :: rest =>
    if c.isAlpha then getScheme raw (scheme ++ [c]) rest
    else if c.isDigit ∨ c ∈ ['+', '-', '.'] then
      if scheme = [] then some ([], raw) else getScheme raw (scheme ++ [c]) rest
    else if c = ':' then if scheme = [] then none else some (scheme, rest)
    else some ([], raw)

def beforeQuery (t : List Char) : List Char := t.takeWhile fun c => decide (c ≠ '?')

def afterQuery (t : List Char) : List Char := (t.dropWhile fun c => decide (c ≠ '?')).tail

theorem beforeQuery_cons {c : Char} (h : c ≠ '?') (t : List Char) :
    beforeQuery (c :: t) = c :: beforeQuery t :=
  List.takeWhile_cons_of_pos (decide_eq_true h)

theorem beforeQuery_append {a : List Char} (h : '?' ∉ a) (b : List Char) :
    beforeQuery (a ++ b) = a ++ beforeQuery b := by
  refine List.takeWhile_append_of_pos fun c hc => decide_eq_true ?_
  rintro rfl
  exact h hc

theorem afterQuery_append {a : List Char} (h : '?' ∉ a) (b : List Char) :
    afterQuery (a ++ b) = afterQuery b := by
  have hdrop : (a ++ b).dropWhile (fun c => decide (c ≠ '?')) = b.dropWhile fun c =>
      decide (c ≠ '?') := by
    refine List.dropWhile_append_of_pos fun c hc => decide_eq_true ?_
    rintro rfl
    exact h hc
  unfold afterQuery
  rw [hdrop]

theorem notMem_beforeQuery (t : List Char) : '?' ∉ beforeQuery t := by
  intro h
  exact absurd (List.all_eq_true.mp List.all_takeWhile _ h) (by decide)

theorem beforeQuery_eq_self_iff : beforeQuery t = t ↔ '?' ∉ t := by
  refine ⟨fun h => h ▸ notMem_beforeQuery t, fun h => ?_⟩
  have happend := beforeQuery_append h []
  have hnil : beforeQuery [] = [] := rfl
  rwa [hnil, List.append_nil] at happend

/-- ASCII at the front of what becomes of a byte string was there before. -/
theorem ascii_of_prefix_toText {x z : List Char} (hx : ∀ c ∈ x, c.toNat < 128)
    (h : x <+: chars (toText l) ++ z) (hlen : l.length ≤ x.length) : ∀ b ∈ l, b < 128 := by
  induction l generalizing x with
  | nil => exact fun b hb => absurd hb List.not_mem_nil
  | cons b l ih =>
    cases x with
    | nil => cases hlen
    | cons c x =>
      have hc : c.toNat < 128 := hx c List.mem_cons_self
      by_cases hb : b < 128
      · rw [toText_cons_of_ascii hb] at h
        obtain ⟨-, htail⟩ := List.cons_prefix_cons.mp h
        have hall :=
          ih (fun d hd => hx d (List.mem_cons_of_mem c hd)) htail (Nat.le_of_succ_le_succ hlen)
        exact List.forall_mem_cons.mpr ⟨hb, hall⟩
      · obtain ⟨y, r, hy, hle⟩ := exists_toText_cons (UInt8.not_lt.mp hb) l
        rw [hy] at h
        obtain ⟨rfl, -⟩ := List.cons_prefix_cons.mp h
        rw [toNat_ofNat_byte] at hc
        exact absurd hc (not_lt.mpr (UInt8.le_iff_toNat_le.mp hle))

/-- A library: the authorities it accepts, and what it makes of a method and a target that have
a newline in them. -/
structure GoHttp where
  authority : List Char → Bool
  lines : List Char → List Char → Option (List Char × UrlPath × List Char)

variable (G : GoHttp)

/-- The path and the query. A target with a scheme and no slash after it has no path. -/
def parseRequestURI (raw : List Char) : Option (UrlPath × List Char) :=
  if raw.any isCtl ∨ raw = [] then none
  else if raw = ['*'] then some (⟨['*'], []⟩, [])
  else
    match getScheme raw [] raw with
    | none => none
    | some (scheme, rest) =>
      let path := beforeQuery rest
      let query := afterQuery rest
      if path.head? ≠ some '/' then if scheme = [] then none else some (⟨[], []⟩, query)
      else if scheme ≠ [] ∧ path.take 2 = ['/', '/'] then
        let authority := (path.drop 2).takeWhile fun c => decide (c ≠ '/')
        if G.authority authority then (setPath (path.drop (2 + authority.length))).map fun url =>
          (url, query)
        else none
      else (setPath path).map fun url => (url, query)

def isTokenChar (c : Char) : Bool :=
  c.isAlphanum || decide (c ∈ "!#$%&*+-.^_|~".toList) || decide (c.toNat = 39) ||
    decide (c.toNat = 96)

def validMethod (method : List Char) : Bool := !method.isEmpty && method.all isTokenChar

/-- Method, path and query, or `none` for a panic. A blank in the target leaves too much for
the version. -/
def newRequest (method target : List Char) : Option (List Char × UrlPath × List Char) :=
  if '\n' ∈ method ∨ '\n' ∈ target then G.lines method target
  else
    let method := if method = [] then "GET".toList else method
    if validMethod method = false ∨ ' ' ∈ target then none
    else
      let raw := if method = "CONNECT".toList ∧ target.head? ≠ some '/' then "http://".toList ++
          target else target
      (parseRequestURI G raw).map fun uri => (method, uri)

/-- What is read of several lines is what the first of them says, which has three parts. Without a
method the first part would be `GET`. -/
def GoHttp.ReadsFirstLine : Prop := ∀ method target m url query,
  method ≠ [] → G.lines method target = some (m, url, query) →
  ∃ uri version rest, method ++ ' ' :: target = m ++ ' ' ::
  (uri ++ ' ' :: (version ++ '\n' :: rest)) ∧
    (' ' ∉ m ∧ '\n' ∉ m) ∧ (' ' ∉ uri ∧ '\n' ∉ uri) ∧ '\n' ∉ version ∧
    parseRequestURI G (if m = "CONNECT".toList ∧ uri.head? ≠ some '/' then "http://".toList ++ uri
    else uri) =
      some (url, query)

variable {G}

theorem parseRequestURI_of_slash (rest : List Char) : parseRequestURI G ('/' :: rest) =
      if ('/' :: rest).any isCtl then none
      else (setPath (beforeQuery ('/' :: rest))).map fun url =>
        (url, afterQuery ('/' :: rest)) := by
  have hscheme : getScheme ('/' :: rest) [] ('/' :: rest) = some ([], '/' :: rest) := rfl
  have hhead : (beforeQuery ('/' :: rest)).head? = some '/' := rfl
  unfold parseRequestURI
  simp [hscheme, hhead]

theorem notMem_of_validMethod {method : List Char} (h : validMethod method) {c : Char}
    (hc : isTokenChar c = false) : c ∉ method := by
  intro hmem
  unfold validMethod at h
  rw [Bool.and_eq_true, List.all_eq_true] at h
  cases hc.symm.trans (h.2 _ hmem)

theorem ne_nil_of_validMethod {method : List Char} (h : validMethod method) : method ≠ [] := by
  rintro rfl
  cases h

theorem ne_newline_of_validMethod {method : List Char} (h : validMethod method) : '\n' ∉ method :=
  notMem_of_validMethod h (by decide)

theorem newRequest_of_slash {method rest : List Char} (hmethod : validMethod method)
    (hline : '\n' ∉ rest) : newRequest G method ('/' :: rest) =
      if ' ' ∈ rest ∨ rest.any isCtl then none
      else (setPath (beforeQuery ('/' :: rest))).map fun url =>
        (method, url, afterQuery ('/' :: rest)) := by
  have hne : method ≠ [] := by
    rintro rfl
    cases hmethod
  have hctl : ('/' :: rest).any isCtl = rest.any isCtl := rfl
  unfold newRequest
  rw [if_neg (by simp [ne_newline_of_validMethod hmethod, hline])]
  simp only [if_neg hne, hmethod, List.head?_cons, ne_eq, not_true_eq_false, and_false, if_false,
    parseRequestURI_of_slash, hctl]
  by_cases hspace : ' ' ∈ rest
  · simp [hspace]
  · by_cases hany : rest.any isCtl
    · simp [hspace, hany]
    · simp [hspace, hany, Option.map_map, Function.comp_def]

/-- Two lists that agree up to different separators do not both avoid the other's. -/
theorem append_cons_ne {α : Type*} {a b x y : List α} {c d : α} (hcd : c ≠ d) (hc : c ∉ b)
    (hd : d ∉ a) : a ++ c :: x ≠ b ++ d :: y := by
  intro h
  rcases List.append_eq_append_iff.mp h with ⟨t, rfl, ht⟩ | ⟨t, rfl, ht⟩
  · cases t with
    | nil => exact hcd (List.cons.inj ht).1
    | cons e t =>
      have he : c = e := (List.cons.inj ht).1
      exact hc (he ▸ List.mem_append_right _ List.mem_cons_self)
  · cases t with
    | nil => exact hcd (List.cons.inj ht).1.symm
    | cons e t =>
      have he : d = e := (List.cons.inj ht).1
      exact hd (he ▸ List.mem_append_right _ List.mem_cons_self)

end Moorgate.Framework
