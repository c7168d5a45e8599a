import Moorgate.Cmdindex.Extract

/-!
# Judged and indexed: `commandpolicy/guard.go` and `cmdindex/extract.go`

The editor of the index erases as the guard's does; other than the guard's it drops the line at
Ctrl-U and Ctrl-C, and skips escape sequences within an event.

`editBoth` marks in the guard's line what the index has not, and both editors are in step with it
(`judged_eq`, `keys_track`) unless an Enter or an erase is part of an escape sequence and has
something to act on (`inStep`). So the lines that are judged are those that are indexed exactly
when, at every Enter, the index lacks only blanks at the ends of the line.
-/

namespace Moorgate.Cmdindex

open Framework Models Commandpolicy Recorder

/-! ## Both editors in one -/

/-- A byte that is typed. The index does not take those of escape sequences. -/
structure Key where
  byte : UInt8
  taken : Bool

/-- The bytes of an event of which `skip` belong to an escape sequence. -/
def pressed : (skip : ℕ) → List UInt8 → List Key
  | _, [] => []
  | skip + 1, b :: data => ⟨b, false⟩ :: pressed skip data
  | 0, b :: data =>
    if b = 0x1b then ⟨b, false⟩ :: pressed (skipEscape (data.map byteChar)) data
    else ⟨b, true⟩ :: pressed 0 data

def isErase (b : UInt8) : Bool := b = 0x7f || b = 0x08

/-- A character of the guard's line, and whether the index has it too. The last one
typed comes first. -/
structure Mark where
  char : Printable
  typed : Bool

def guardLine (k : List Mark) : List Printable := k.reverse.map Mark.char

def indexLine (k : List Mark) : List Printable := (k.reverse.filter Mark.typed).map Mark.char

def untype : List Mark → List Mark
  | [] => []
  | c :: k => if c.typed then ⟨c.char, false⟩ :: k else c :: untype k

/-- An Enter submits the line. -/
def editBoth (k : List Mark) (key : Key) : List Mark × List (List Mark) :=
  if isEnter key.byte then ([], [k])
  else if isErase key.byte then ((if key.taken then untype k else k).tail, [])
  else if key.taken ∧ (key.byte = 0x15 ∨ key.byte = 0x03) then (k.map fun c => ⟨c.char, false⟩, [])
  else if h : 0x20 ≤ key.byte ∧ key.byte < 0x7f then (⟨⟨key.byte, h⟩, key.taken⟩ :: k, [])
  else (k, [])

def submitted (keys : List Key) : List (List Mark) := (transduce editBoth [] keys).2

/-- An Enter in an escape sequence meets no line, and an erase in one no character of
the index. -/
def inStep (k : List Mark) (key : Key) : Bool :=
  key.taken || if isEnter key.byte then k.isEmpty else !isErase key.byte || k.head?.all (!·.typed)

def InStep (keys : List Key) : Prop := Along editBoth (fun k key => inStep k key) [] keys

instance (keys : List Key) : Decidable (InStep keys) :=
  inferInstanceAs (Decidable (Along editBoth _ _ keys))

def ShortLines (keys : List Key) : Prop :=
  Along editBoth (fun k _ => (indexLine k).length < maxLineLen) [] keys

instance (keys : List Key) : Decidable (ShortLines keys) :=
  inferInstanceAs (Decidable (Along editBoth _ _ keys))

theorem isErase_iff {b : UInt8} : isErase b ↔ b = 0x7f ∨ b = 0x08 := by
  rw [isErase, Bool.or_eq_true, decide_eq_true_iff, decide_eq_true_iff]

theorem isEnter_eq_false {b : UInt8} (h : (b = 0x7f ∨ b = 0x08) ∨ b = 0x15 ∨ b = 0x03) :
    isEnter b = false := by
  rcases h with (h | h) | h | h <;> rw [h] <;> rfl

section

variable {k : List Mark} {key : Key}

theorem map_char_untype (k : List Mark) : (untype k).map Mark.char = k.map Mark.char := by
  induction k with
  | nil => rfl
  | cons c k ih =>
    rw [untype]
    split
    · rfl
    · exact congrArg (c.char :: ·) ih

theorem filter_untype (k : List Mark) :
    (untype k).filter Mark.typed = (k.filter Mark.typed).tail := by
  induction k with
  | nil => rfl
  | cons c k ih =>
    rw [untype]
    split
    · next htyped => simp [htyped]
    · next htyped => simp [htyped, ih]

/-- The character that the guard erases is none that the index has left. -/
theorem filter_erase (k : List Mark) :
    (untype k).tail.filter Mark.typed = (k.filter Mark.typed).tail := by
  cases k with
  | nil => rfl
  | cons c k =>
    rw [untype]
    split
    · next htyped => simp [htyped]
    · next htyped => simp [htyped, filter_untype]

theorem guardLine_erase (k : List Mark) (taken : Bool) :
    guardLine (if taken then untype k else k).tail = (guardLine k).dropLast := by
  rw [guardLine, guardLine, List.map_reverse, List.map_reverse, List.dropLast_reverse,
    List.map_tail]
  split
  · rw [map_char_untype]
  · rfl

theorem indexLine_erase (k : List Mark) : indexLine (untype k).tail = (indexLine k).dropLast := by
  rw [indexLine, indexLine, List.filter_reverse, List.filter_reverse, List.map_reverse,
    List.map_reverse, List.dropLast_reverse, filter_erase, List.map_tail]

theorem guardLine_cons (c : Mark) (k : List Mark) :
    guardLine (c :: k) = guardLine k ++ [c.char] := by
  rw [guardLine, List.reverse_cons, List.map_append]
  rfl

theorem indexLine_cons (c : Mark) (k : List Mark) :
    indexLine (c :: k) = if c.typed then indexLine k ++ [c.char] else indexLine k := by
  rw [indexLine, List.reverse_cons, List.filter_append, List.map_append]
  cases htyped : c.typed <;> simp [htyped, indexLine]

/-- The key is no Enter, erases nothing and kills nothing. -/
def Key.Plain (key : Key) : Prop :=
  isEnter key.byte = false ∧ isErase key.byte = false ∧
    ¬ (key.taken ∧ (key.byte = 0x15 ∨ key.byte = 0x03))

theorem editBoth_plain (h : key.Plain) : editBoth k key =
      if hb : 0x20 ≤ key.byte ∧ key.byte < 0x7f then (⟨⟨key.byte, hb⟩, key.taken⟩ :: k, [])
        else (k, []) := by
  obtain ⟨henter, herase, hkill⟩ := h
  rw [editBoth, henter, herase, if_neg Bool.false_ne_true, if_neg Bool.false_ne_true, if_neg hkill]

theorem editBoth_enter (h : isEnter key.byte) : editBoth k key = ([], [k]) := by
  rw [editBoth, if_pos h]

theorem editBoth_erase (h : isErase key.byte) :
    editBoth k key = ((if key.taken then untype k else k).tail, []) := by
  rw [editBoth, isEnter_eq_false (.inl (isErase_iff.mp h)), if_neg Bool.false_ne_true, if_pos h]

theorem editBoth_kill (htaken : key.taken) (h : key.byte = 0x15 ∨ key.byte = 0x03) :
    editBoth k key = (k.map fun c => ⟨c.char, false⟩, []) := by
  have herase : isErase key.byte = false := by
    rcases h with h | h <;> rw [h] <;> rfl
  rw [editBoth, isEnter_eq_false (.inr h), herase, if_neg Bool.false_ne_true,
    if_neg Bool.false_ne_true, if_pos ⟨htaken, h⟩]

theorem key_cases (key : Key) : isEnter key.byte ∨ isErase key.byte ∨
    (key.taken ∧ (key.byte = 0x15 ∨ key.byte = 0x03)) ∨ key.Plain := by
  unfold Key.Plain
  rw [← Bool.not_eq_true, ← Bool.not_eq_true]
  tauto

end

def nonBlank (line : List Printable) : List String :=
  if trimSpace (lineText line) = "" then [] else [trimSpace (lineText line)]

/-! ## The guard -/

section

variable {ω : Type*}

def judged (effects : List Effect) : List String :=
  effects.flatMap fun e => match e with
    | .decide line => [line]
    | _ => []

theorem judged_append (xs ys : List Effect) : judged (xs ++ ys) = judged xs ++ judged ys :=
  List.flatMap_append

theorem judged_decideRules (cb : Callbacks ω) (line : String) (term : UInt8) (w : ω)
    (rules : List Rule) : judged (decideRules cb line term w rules).2 = [] :=
  flatMap_decideRules (fun _ => rfl) (fun _ => rfl) cb line term w rules

variable {b : UInt8}

theorem byte_of_not_enter {rules : List Rule} {cb : Callbacks ω} {line : List Printable} {w : ω}
    (h : isEnter b = false) :
    Guard.byte (⟨rules, cb, line⟩, w) b = ((⟨rules, cb, keepLine line b⟩, w), [.forward [b]]) := by
  rw [Guard.byte]
  rw [h, if_neg Bool.false_ne_true]

theorem byte_tracks {k : List Mark} {key : Key} {s : Guard ω × ω} (h : guardLine k = s.1.line) :
    guardLine (editBoth k key).1 = (Guard.byte s key.byte).1.1.line ∧
      (editBoth k key).2.flatMap (fun k => nonBlank (guardLine k)) =
        judged (Guard.byte s key.byte).2 := by
  obtain ⟨⟨rules, cb, line⟩, w⟩ := s
  subst h
  rcases key_cases key with henter | herase | ⟨htaken, hkill⟩ | hplain
  · rw [editBoth_enter henter, Guard.byte]
    dsimp only
    rw [if_pos henter, List.flatMap_singleton, nonBlank]
    split
    · exact ⟨rfl, rfl⟩
    · refine ⟨rfl, ?_⟩
      show _ = _ :: judged (decideRules cb _ key.byte w rules).2
      rw [judged_decideRules]
  · have hbyte := isErase_iff.mp herase
    rw [editBoth_erase herase, byte_of_not_enter (isEnter_eq_false (.inl hbyte)), keepLine,
      if_pos hbyte]
    exact ⟨guardLine_erase k key.taken, rfl⟩
  · have hkeep : keepLine (guardLine k) key.byte = guardLine k := by
      rcases hkill with h | h <;> rw [h] <;> rfl
    rw [editBoth_kill htaken hkill, byte_of_not_enter (isEnter_eq_false (.inr hkill)), hkeep]
    refine ⟨?_, rfl⟩
    rw [guardLine, ← List.map_reverse, List.map_map]
    rfl
  · have herase : ¬ (key.byte = 0x7f ∨ key.byte = 0x08) := by
      rw [← isErase_iff, hplain.2.1]
      decide
    rw [editBoth_plain hplain, byte_of_not_enter hplain.1, keepLine, if_neg herase]
    split
    · exact ⟨guardLine_cons _ k, rfl⟩
    · exact ⟨rfl, rfl⟩

theorem judged_eq (rules : List Rule) (cb : Callbacks ω) (w : ω) (keys : List Key) :
    judged (transduce Guard.byte (⟨rules, cb, []⟩, w) (keys.map Key.byte)).2 =
      (submitted keys).flatMap fun k => nonBlank (guardLine k) := by
  have hinit : guardLine [] = (⟨rules, cb, []⟩ : Guard ω).line := rfl
  rw [transduce_map]
  refine (transduce_simulation (R := fun k (s : Guard ω × ω) => guardLine k = s.1.line) ?_ hinit
    (along_of_forall fun _ _ _ => trivial)).2.symm
  exact fun h _ => byte_tracks h

end

/-! ## The index -/

theorem sanitize_lineText (line : List Printable) :
    sanitize (String.ofList (line.map fun b => byteChar b.1)) = trimSpace (lineText line) := by
  have hkeep : ∀ b : Printable,
      (if byteChar b.1 = '\t' then [' '] else if isControl (byteChar b.1) then []
      else [byteChar b.1]) =
        [byteChar b.1] := by
    rintro ⟨b, hlo, hhi⟩
    have hall : ∀ n < 127, 32 ≤ n → Char.ofNat n ≠ '\t' ∧
        isControl (Char.ofNat n) = false := by decide
    obtain ⟨htab, hcontrol⟩ := hall b.toNat hhi hlo
    unfold byteChar
    rw [if_neg htab, hcontrol]
    rfl
  unfold sanitize
  rw [String.toList_ofList, List.flatMap_map]
  simp only [hkeep]
  rw [← List.map_eq_flatMap]
  rfl

theorem key_plain {e : Editor} {key : Key} (htaken : key.taken) (hplain : key.Plain)
    (hascii : key.byte < 0x80) : e.key (byteChar key.byte) =
      if key.byte.toNat < 0x20 then e
      else if e.buf.length < maxLineLen then { e with buf := e.buf ++ [byteChar key.byte] }
      else e := by
  obtain ⟨henter, herase, hkill⟩ := hplain
  have hne (a : UInt8) (ha : a < 0x80) (hab : key.byte ≠ a) : (byteChar key.byte).toNat ≠
      a.toNat := by
    intro heq
    rw [toNat_byteChar hascii] at heq
    exact hab (UInt8.toNat_inj.mp heq)
  have hnewline : ¬ (byteChar key.byte = '\r' ∨ byteChar key.byte = '\n') := by
    rintro (heq | heq)
    · have hcr : key.byte = 0x0D := byteChar_inj hascii (by decide) heq
      rw [isEnter_iff.mpr (.inl hcr)] at henter
      cases henter
    · have hlf : key.byte = 0x0A := byteChar_inj hascii (by decide) heq
      rw [isEnter_iff.mpr (.inr hlf)] at henter
      cases henter
  rw [← Bool.not_eq_true, isErase_iff, not_or] at herase
  obtain ⟨hu, hc⟩ := not_or.mp fun h => hkill ⟨htaken, h⟩
  have hbackspace : ¬ ((byteChar key.byte).toNat = 0x7f ∨ (byteChar key.byte).toNat = 0x08) :=
    not_or.mpr ⟨hne 0x7f (by decide) herase.1, hne 0x08 (by decide) herase.2⟩
  have hctrlU : (byteChar key.byte).toNat ≠ 0x15 := hne 0x15 (by decide) hu
  have hctrlC : (byteChar key.byte).toNat ≠ 0x03 := hne 0x03 (by decide) hc
  rw [Editor.key, if_neg hnewline, if_neg hbackspace, if_neg hctrlU, if_neg hctrlC,
    toNat_byteChar hascii]

variable {k : List Mark} {e : Editor}

def Tracks (k : List Mark) (e : Editor) : Prop := e.buf = (indexLine k).map fun b => byteChar b.1

theorem indexLine_skip {key : Key} (htaken : key.taken = false) (hstep : inStep k key) :
    indexLine (editBoth k key).1 = indexLine k ∧
      ((editBoth k key).2.flatMap fun k => nonBlank (indexLine k)) = [] := by
  rw [inStep, htaken, Bool.false_or] at hstep
  rcases key_cases key with henter | herase | ⟨htaken', -⟩ | hplain
  · rw [if_pos henter, List.isEmpty_iff] at hstep
    subst hstep
    rw [editBoth_enter henter]
    exact ⟨rfl, rfl⟩
  · rw [isEnter_eq_false (.inl (isErase_iff.mp herase)), if_neg Bool.false_ne_true, herase] at hstep
    rw [editBoth_erase herase, htaken]
    refine ⟨?_, rfl⟩
    cases k with
    | nil => rfl
    | cons c k =>
      have hc : ¬ c.typed := by simpa using hstep
      exact ((indexLine_cons c k).trans (if_neg hc)).symm
  · rw [htaken] at htaken'
    cases htaken'
  · rw [editBoth_plain hplain]
    split
    · exact ⟨(indexLine_cons _ k).trans (if_neg (by rw [htaken]; exact Bool.false_ne_true)), rfl⟩
    · exact ⟨rfl, rfl⟩

theorem key_tracks {key : Key} (htaken : key.taken) (h : Tracks k e) (hascii : key.byte < 0x80)
    (hshort : (indexLine k).length < maxLineLen) :
    Tracks (editBoth k key).1 (e.key (byteChar key.byte)) ∧
      (e.key (byteChar key.byte)).texts =
        e.texts ++ (editBoth k key).2.flatMap fun k => nonBlank (indexLine k) := by
  unfold Tracks at h ⊢
  rcases key_cases key with henter | herase | ⟨htaken, hkill⟩ | hplain
  · have hkey : e.key (byteChar key.byte) = ⟨[], if sanitize (String.ofList e.buf) = "" then e.texts
        else e.texts ++ [sanitize (String.ofList e.buf)]⟩ := by
      rcases isEnter_iff.mp henter with h | h <;> rw [h] <;> rfl
    rw [hkey, editBoth_enter henter, List.flatMap_singleton, h, sanitize_lineText, nonBlank]
    refine ⟨rfl, ?_⟩
    split
    · exact (List.append_nil _).symm
    · rfl
  · have hkey : e.key (byteChar key.byte) = { e with buf := e.buf.dropLast } := by
      rcases isErase_iff.mp herase with h | h <;> rw [h] <;> rfl
    rw [hkey, editBoth_erase herase, if_pos htaken]
    refine ⟨?_, (List.append_nil _).symm⟩
    show e.buf.dropLast = _
    rw [h, ← List.map_dropLast, indexLine_erase]
  · have hkey : e.key (byteChar key.byte) = { e with buf := [] } := by
      rcases hkill with h | h <;> rw [h] <;> rfl
    have hnone : indexLine (k.map fun c => ⟨c.char, false⟩) = [] := by
      simp [indexLine]
    rw [hkey, editBoth_kill htaken hkill, hnone]
    exact ⟨rfl, (List.append_nil _).symm⟩
  · rw [editBoth_plain hplain, key_plain htaken hplain hascii]
    by_cases hb : 0x20 ≤ key.byte ∧ key.byte < 0x7f
    · have hlo : ¬ key.byte.toNat < 0x20 := Nat.not_lt.mpr (UInt8.le_iff_toNat_le.mp hb.1)
      have hroom : e.buf.length < maxLineLen := by rw [h, List.length_map]; exact hshort
      rw [dif_pos hb, if_neg hlo, if_pos hroom]
      refine ⟨?_, (List.append_nil _).symm⟩
      show e.buf ++ [byteChar key.byte] = _
      rw [h, indexLine_cons, if_pos htaken, List.map_append]
      rfl
    · have hlo : key.byte.toNat < 0x20 := by
        rw [UInt8.le_iff_toNat_le, UInt8.lt_iff_toNat_lt, not_and_or] at hb
        rw [UInt8.lt_iff_toNat_lt] at hascii
        have herase : key.byte.toNat ≠ 0x7f := fun heq =>
          Bool.eq_false_iff.mp hplain.2.1 (isErase_iff.mpr (.inl (UInt8.toNat_inj.mp heq)))
        simp only [UInt8.reduceToNat] at hb hascii
        omega
      rw [dif_neg hb, if_pos hlo]
      exact ⟨h, (List.append_nil _).symm⟩

theorem keys_track {ks : List Key} (h : Tracks k e) (hascii : ∀ key ∈ ks, key.byte < 0x80)
    (hstep : Along editBoth (fun k key => inStep k key) k ks)
    (hshort : Along editBoth (fun k _ => (indexLine k).length < maxLineLen) k ks) :
    (((ks.filter Key.taken).map fun key => byteChar key.byte).foldl Editor.key e).texts =
      e.texts ++ (transduce editBoth k ks).2.flatMap fun k => nonBlank (indexLine k) := by
  induction ks generalizing k e with
  | nil => exact (List.append_nil _).symm
  | cons key ks ih =>
    obtain ⟨hb, hrest⟩ := List.forall_mem_cons.mp hascii
    rw [transduce, List.flatMap_append, ← List.append_assoc, List.filter_cons]
    split
    · next htaken =>
      obtain ⟨hnext, hout⟩ := key_tracks htaken h hb hshort.1
      rw [← hout]
      exact ih hnext hrest hstep.2 hshort.2
    · next htaken =>
      obtain ⟨hline, hout⟩ := indexLine_skip (Bool.eq_false_iff.mpr htaken) hstep.1
      have hnext : Tracks (editBoth k key).1 e := by rwa [Tracks, hline]
      rw [hout, List.append_nil]
      exact ih hnext hrest hstep.2 hshort.2

theorem map_byte_pressed (skip : ℕ) (data : List UInt8) :
    (pressed skip data).map Key.byte = data := by
  fun_induction pressed skip data with
  | case1 => rfl
  | case2 skip b data ih => rw [List.map_cons, ih]
  | case3 data ih => rw [List.map_cons, ih]
  | case4 b data hesc ih => rw [List.map_cons, ih]

theorem keys_eq {data : List UInt8} (hascii : ∀ b ∈ data, b < 0x80) (skip : ℕ) :
    keys skip (data.map byteChar) = ((pressed skip data).filter Key.taken).map fun key =>
      byteChar key.byte := by
  induction data generalizing skip with
  | nil => cases skip <;> rfl
  | cons b data ih =>
    obtain ⟨hb, hdata⟩ := List.forall_mem_cons.mp hascii
    have hesc : (byteChar b).toNat = 0x1b ↔ b = 0x1b := by
      rw [toNat_byteChar hb]
      exact UInt8.toNat_inj (b := 0x1b)
    cases skip with
    | succ skip => exact ih hdata skip
    | zero =>
      rw [List.map_cons, keys, pressed]
      simp only [hesc]
      split
      · exact ih hdata _
      · exact congrArg (byteChar b :: ·) (ih hdata 0)

def typedBytes (evs : List Recorded) : List UInt8 :=
  evs.flatMap fun e => match e.event with
    | .input b => b
    | _ => []

/-- The same with what is part of an escape sequence. -/
def pressedKeys (evs : List Recorded) : List Key :=
  evs.flatMap fun e => match e.event with
    | .input b => pressed 0 b
    | _ => []

theorem map_byte_pressedKeys (evs : List Recorded) :
    (pressedKeys evs).map Key.byte = typedBytes evs := by
  rw [pressedKeys, typedBytes, List.map_flatMap]
  refine List.flatMap_congr fun e _ => ?_
  cases e.event with
  | input b => exact map_byte_pressed 0 b
  | output b | resize cols rows => rfl

theorem typedKeys_eq (C : Codec) (start : Instant) {evs : List Recorded}
    (hascii : ∀ b ∈ typedBytes evs, b < 0x80) :
    typedKeys C start evs = ((pressedKeys evs).filter Key.taken).map fun key =>
      byteChar key.byte := by
  rw [typedKeys, pressedKeys, List.filter_flatMap, List.map_flatMap]
  refine List.flatMap_congr fun e he => ?_
  obtain ⟨event, now, nonce⟩ := e
  cases event with
  | output b | resize cols rows => rfl
  | input b =>
    have hb : ∀ a ∈ b, a < 0x80 := fun a ha => hascii a (List.mem_flatMap.mpr ⟨_, he, ha⟩)
    obtain ⟨ts, rs, hparse, hrs⟩ := C.parse_event (now - start) .i b
    have hdecoded : decoded C start ⟨.input b, now, nonce⟩ = b.map byteChar :=
      (decoded_eq hparse).trans (hrs hb)
    exact (congrArg (keys 0) hdecoded).trans (keys_eq hb 0)

theorem extractCommands_texts (C : Codec) (cols rows startUnix : ℤ) (nonce : Bytes 12)
    {evs : List Recorded} (hascii : ∀ b ∈ typedBytes evs, b < 0x80)
    (hstep : InStep (pressedKeys evs)) (hshort : ShortLines (pressedKeys evs)) :
    (extractCommands C (linesOf (recordedLines C.toJson cols rows startUnix nonce evs))).map
      Command.text = (submitted (pressedKeys evs)).flatMap fun k => nonBlank (indexLine k) := by
  have hbytes : ∀ key ∈ pressedKeys evs, key.byte < 0x80 := by
    rw [← map_byte_pressedKeys] at hascii
    exact List.forall_mem_map.mp hascii
  rw [texts_eq_lines, typedKeys_eq C _ hascii]
  exact keys_track (k := []) rfl hbytes hstep hshort

/-! ## Judged and indexed -/

def blank (b : Printable) : Bool := b.1 = 0x20

/-- At the ends of the line the index may lack blanks, elsewhere nothing. -/
def IndexHas (k : List Mark) : Prop := ∀ c ∈ trim (blank ∘ Mark.char) k.reverse, c.typed

instance (k : List Mark) : Decidable (IndexHas k) :=
  inferInstanceAs (Decidable (∀ c ∈ trim _ k.reverse, _))

theorem trimSpace_lineText (line : List Printable) :
    trimSpace (lineText line) = lineText (trim blank line) := by
  have hall : ∀ n < 127, 32 ≤ n → isSpace (Char.ofNat n) = decide (n = 32) := by decide
  have hblank : isSpace ∘ (fun b : Printable => Char.ofNat b.1.toNat) = blank := by
    funext b
    obtain ⟨b, hlo, hhi⟩ := b
    have hb := hall b.toNat hhi hlo
    rw [Function.comp_apply, hb, blank, decide_eq_decide, ← UInt8.toNat_inj]
    rfl
  rw [trimSpace, lineText, String.toList_ofList, trim_map, hblank, lineText]

theorem trimSpace_lineText_eq_empty {line : List Printable} :
    trimSpace (lineText line) = "" ↔ ∀ b ∈ line, blank b := by
  rw [trimSpace_lineText, lineText, String.ofList_eq_empty_iff, List.map_eq_nil_iff,
    trim_eq_nil_iff]

theorem length_nonBlank_le (k : List Mark) :
    (nonBlank (indexLine k)).length ≤ (nonBlank (guardLine k)).length := by
  have hsubset : indexLine k ⊆ guardLine k := by
    rw [indexLine]
    exact List.map_subset _ (List.filter_sublist.subset)
  unfold nonBlank
  split_ifs with hindex hguard hguard
  · exact le_rfl
  · exact Nat.zero_le _
  · rw [trimSpace_lineText_eq_empty] at hindex hguard
    exact absurd (fun b hb => hguard b (hsubset hb)) hindex
  · rw [List.length_singleton, List.length_singleton]

theorem nonBlank_eq_iff {a b : List Printable} :
    nonBlank a = nonBlank b ↔ trimSpace (lineText a) = trimSpace (lineText b) := by
  constructor
  · intro h
    unfold nonBlank at h
    split_ifs at h with ha hb hb
    · rw [ha, hb]
    · exact List.singleton_inj.mp h
  · intro h
    rw [nonBlank, nonBlank, h]

theorem nonBlank_lines_eq_iff {k : List Mark} :
    nonBlank (guardLine k) = nonBlank (indexLine k) ↔ IndexHas k := by
  rw [nonBlank_eq_iff, trimSpace_lineText, trimSpace_lineText, guardLine, indexLine, trim_map,
    trim_map]
  unfold IndexHas
  rw [← length_trim_filter_eq_iff]
  constructor
  · intro h
    have hlength := congrArg (fun s => s.toList.length) h
    simpa only [lineText, String.toList_ofList, List.length_map] using hlength
  · intro h
    rw [trim_filter Mark.typed, List.filter_eq_self.mpr (length_trim_filter_eq_iff.mp h), trim_trim]

section

variable {ω : Type*}

/-- The lines that the guard judges in a session: the relay passes each input to
`Input`. -/
def sessionJudged (s : Guard ω × ω) : List Recorded → List String
  | [] => []
  | e :: evs =>
    match e.event with
    | .input b =>
      let r := transduce Guard.byte s b
      judged r.2 ++ sessionJudged r.1 evs
    | _ => sessionJudged s evs

theorem sessionJudged_eq (s : Guard ω × ω) (evs : List Recorded) :
    sessionJudged s evs = judged (transduce Guard.byte s (typedBytes evs)).2 := by
  induction evs generalizing s with
  | nil => rfl
  | cons e evs ih =>
    obtain ⟨event, now, nonce⟩ := e
    cases event with
    | output b | resize cols rows => exact ih s
    | input b =>
      have hbytes : typedBytes (⟨.input b, now, nonce⟩ :: evs) = b ++ typedBytes evs := rfl
      rw [hbytes, transduce_append, judged_append, ← ih]
      rfl

variable (C : Codec) (rules : List Rule) (cb : Callbacks ω) (w : ω) (cols rows startUnix : ℤ)
  (nonce : Bytes 12)

/-- The lines that are judged in the session are those that are indexed from its
recording. -/
def JudgedAsIndexed (evs : List Recorded) : Prop :=
  sessionJudged (⟨rules, cb, []⟩, w) evs =
    (extractCommands C (linesOf (recordedLines C.toJson cols rows startUnix nonce evs))).map
    Command.text

theorem judgedAsIndexed_iff {evs : List Recorded} (hascii : ∀ b ∈ typedBytes evs, b < 0x80)
    (hstep : InStep (pressedKeys evs)) (hshort : ShortLines (pressedKeys evs)) :
    JudgedAsIndexed C rules cb w cols rows startUnix nonce evs ↔ ∀ k ∈ submitted (pressedKeys evs),
      IndexHas k := by
  have hsame := flatMap_eq_flatMap_iff (f := fun k => nonBlank (guardLine k))
    (g := fun k => nonBlank (indexLine k)) (l := submitted (pressedKeys evs)) fun k _ =>
    length_nonBlank_le k
  rw [JudgedAsIndexed, sessionJudged_eq, ← map_byte_pressedKeys, judged_eq,
    extractCommands_texts C _ _ _ _ hascii hstep hshort, hsame]
  exact forall₂_congr fun k _ => nonBlank_lines_eq_iff

/-- An input that is judged otherwise than indexed has a byte besides those that are
printed and Enter. -/
theorem allowed_eq_false {allowed : UInt8 → Bool} (hprint : ∀ b, 0x20 ≤ b → b < 0x7f → allowed b)
    (hcr : allowed 0x0D)
    (hall : ∀ evs : List Recorded, (∀ b ∈ typedBytes evs, allowed b ∧ b < 0x80) →
      ShortLines (pressedKeys evs) → JudgedAsIndexed C rules cb w cols rows startUnix nonce evs)
    {b : UInt8} {l : List UInt8} (hb : b < 0x80)
    (hl : ∀ a ∈ l, (0x20 ≤ a ∧ a < 0x7f) ∨ a = 0x0D ∨ a = b)
    (hstep : InStep (pressed 0 l)) (hshort : ShortLines (pressed 0 l))
    (hlack : ∃ k ∈ submitted (pressed 0 l), ¬ IndexHas k) : allowed b = false := by
  by_contra hallowed
  have hbytes : ∀ a ∈ typedBytes [⟨.input l, 0, nonce⟩], allowed a ∧ a < 0x80 := by
    intro a ha
    have hmem : a ∈ l := by rwa [← List.append_nil l]
    rcases hl a hmem with ⟨hlo, hhi⟩ | rfl | rfl
    · exact ⟨hprint a hlo hhi, UInt8.lt_trans hhi (by decide)⟩
    · exact ⟨hcr, by decide⟩
    · exact ⟨Bool.eq_true_of_not_eq_false hallowed, hb⟩
  have hkeys : pressedKeys [⟨.input l, 0, nonce⟩] = pressed 0 l := List.append_nil (pressed 0 l)
  rw [← hkeys] at hstep hshort hlack
  obtain ⟨k, hk, hnot⟩ := hlack
  exact hnot ((judgedAsIndexed_iff C rules cb w cols rows startUnix nonce
    (fun a ha => (hbytes a ha).2) hstep hshort).mp (hall _ hbytes hshort) k hk)

theorem taken_of_mem_pressedKeys {evs : List Recorded} (hesc : 0x1b ∉ typedBytes evs) :
    ∀ key ∈ pressedKeys evs, key.taken := by
  have hkeys {data : List UInt8} (h : 0x1b ∉ data) : ∀ key ∈ pressed 0 data, key.taken := by
    induction data with
    | nil => exact fun key hkey => (nomatch hkey)
    | cons b data ih =>
      rw [List.mem_cons, not_or] at h
      rw [pressed, if_neg (Ne.symm h.1), List.forall_mem_cons]
      exact ⟨rfl, ih h.2⟩
  intro key hkey
  obtain ⟨e, he, hmem⟩ := List.mem_flatMap.mp hkey
  obtain ⟨event, now, nonce⟩ := e
  cases event with
  | output b | resize cols rows => cases hmem
  | input b => exact hkeys (fun hb => hesc (List.mem_flatMap.mpr ⟨_, he, hb⟩)) key hmem

theorem typed_of_taken {keys : List Key}
    (htaken : ∀ key ∈ keys, key.taken ∧ key.byte ≠ 0x15 ∧ key.byte ≠ 0x03)
    {k : List Mark} (hk : ∀ c ∈ k, c.typed) :
    ∀ t ∈ (transduce editBoth k keys).2, ∀ c ∈ t, c.typed := by
  induction keys generalizing k with
  | nil => exact fun t ht => (nomatch ht)
  | cons key keys ih =>
    obtain ⟨⟨htyped, hu, hc⟩, hkeys⟩ := List.forall_mem_cons.mp htaken
    have hstep : (∀ c ∈ (editBoth k key).1, c.typed) ∧ ∀ t ∈ (editBoth k key).2, ∀ c ∈ t,
        c.typed := by
      rcases key_cases key with henter | herase | ⟨-, hkill⟩ | hplain
      · rw [editBoth_enter henter]
        exact ⟨fun c hc => (nomatch hc), fun t ht => List.mem_singleton.mp ht ▸ hk⟩
      · rw [editBoth_erase herase, if_pos htyped]
        refine ⟨?_, fun t ht => (nomatch ht)⟩
        cases k with
        | nil => exact fun c hc => (nomatch hc)
        | cons c k =>
          obtain ⟨hc, hrest⟩ := List.forall_mem_cons.mp hk
          rw [untype, if_pos hc]
          exact hrest
      · exact absurd hkill (not_or.mpr ⟨hu, hc⟩)
      · rw [editBoth_plain hplain]
        split
        · refine ⟨?_, fun t ht => (nomatch ht)⟩
          exact List.forall_mem_cons.mpr ⟨htyped, hk⟩
        · exact ⟨hk, fun t ht => (nomatch ht)⟩
    intro t ht
    rcases List.mem_append.mp ht with ht | ht
    · exact hstep.2 t ht
    · exact ih hkeys hstep.1 t ht

end

/-- A session in which these bytes are typed, each in an event of its own. -/
def typing (bytes : List UInt8) : List Recorded := bytes.map fun b => ⟨.input [b], 0, sampleNonce⟩

def noCallbacks : Callbacks Unit := ⟨none, none, none, none, none⟩

end Moorgate.Cmdindex
