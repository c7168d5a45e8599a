import Moorgate.Commandpolicy.Guard
import Moorgate.Recorder.Asciicast

/-!
# Indexed commands: `cmdindex/extract.go`

The commands of a session are reconstructed from the input events of its recording
with a line editor of their own. The editor keeps its line from one event to the next,
and the scanner of escape sequences starts anew at each. So the commands are what the
editor makes of the keys of each event, those outside its own sequences
(`texts_eq_lines`).
-/

namespace Moorgate.Cmdindex

open Framework Models Commandpolicy Recorder

structure Command where
  text : String
  offset : Duration
deriving DecidableEq

def maxLineLen : ℕ := 4096

def byteChar (b : UInt8) : Char := Char.ofNat b.toNat

/-- `encoding/json` on the lines of a recording. `parse` is the decoding of an
event, with the time it yields, and restores text of ASCII characters. -/
structure Codec extends Json where
  parse : List UInt8 → Option (Duration × EventKind × List Char)
  header_newline : ∀ cols rows startUnix, 0x0A ∉ header cols rows startUnix
  event_newline : ∀ elapsed kind data, 0x0A ∉ event elapsed kind data
  event_head : ∀ elapsed kind data, (event elapsed kind data).head? = some 0x5B
  event_last : ∀ elapsed kind data, (event elapsed kind data).getLast? = some 0x5D
  parse_event : ∀ elapsed kind data, ∃ ts rs, parse (event elapsed kind data) =
    some (ts, kind, rs) ∧ ((∀ b ∈ data, b < 0x80) → rs = data.map byteChar)

structure Extractor where
  out : List Command
  buf : List Char
  lineStart : Duration
  (haveStart first : Bool)

/-- `unicode.IsControl`. -/
def isControl (r : Char) : Bool := r.toNat < 0x20 || (0x7f ≤ r.toNat && r.toNat < 0xa0)

def sanitize (s : String) : String :=
  trimSpace (String.ofList (s.toList.flatMap fun r =>
    if r = '\t' then [' '] else if isControl r then [] else [r]))

def Extractor.flush (ts : Duration) (x : Extractor) : Extractor :=
  let s := sanitize (String.ofList x.buf)
  let off := if x.haveStart then x.lineStart else ts
  { x with
    buf := []
    haveStart := false
    out := if s = "" then x.out else x.out ++ [⟨s, off⟩] }

/-- The runes of the sequence after its ESC, where `rs` is what follows. One more
than there are when it does not end. -/
def skipEscape : List Char → ℕ
  | [] => 0
  | c :: rs =>
    if c = '[' ∨
      c = 'O' then 1 + (rs.takeWhile fun r => !(0x40 ≤ r.toNat && r.toNat ≤ 0x7e)).length + 1
    else 1

/-- The cases of `consume` other than ESC. -/
def Extractor.key (ts : Duration) (r : Char) (x : Extractor) : Extractor :=
  if r = '\r' ∨ r = '\n' then x.flush ts
  else if r.toNat = 0x7f ∨ r.toNat = 0x08 then { x with buf := x.buf.dropLast }
  else if r.toNat = 0x15 then { x with buf := [] }
  else if r.toNat = 0x03 then { x with buf := [] }
  else if r.toNat < 0x20 then x
  else if x.buf.length < maxLineLen then { x with buf := x.buf ++ [r] }
  else x

/-- `skip` runes belong to an escape sequence. -/
def Extractor.consume (ts : Duration) : (skip : ℕ) → List Char → Extractor → Extractor
  | _, [], x => x
  | skip + 1, _ :: rs, x => Extractor.consume ts skip rs x
  | 0, r :: rs, x =>
    if r.toNat = 0x1b then Extractor.consume ts (skipEscape rs) rs x
    else Extractor.consume ts 0 rs (x.key ts r)

def Extractor.started (ts : Duration) (data : List Char) (x : Extractor) : Extractor :=
  if x.haveStart = false ∧ data ≠ [] then { x with lineStart := ts, haveStart := true } else x

/-- `bytes.TrimRight(raw, "\r\n")`. -/
def trimNewline (raw : List UInt8) : List UInt8 := (raw.reverse.dropWhile isEnter).reverse

def Extractor.line (C : Codec) (raw : List UInt8) (x : Extractor) : Extractor :=
  if x.first then { x with first := false }
  else
    let raw := trimNewline raw
    if raw.head? ≠ some 0x5B then x
    else
      match C.parse raw with
      | none => x
      | some (ts, kind, data) => if kind ≠ .i then x else (x.started ts data).consume ts 0 data

/-- The lines that `ReadBytes('\n')` returns; `cur` has been read of the first. -/
def readLines (cur : List UInt8) : List UInt8 → List (List UInt8)
  | [] => if cur = [] then [] else [cur]
  | b :: rest => if b = 0x0A then (cur ++ [b]) :: readLines [] rest else readLines (cur ++ [b]) rest

def extractCommands (C : Codec) (cast : List UInt8) : List Command :=
  let x : Extractor := ⟨[], [], 0, false, true⟩
  ((readLines [] cast).foldl (fun x raw => x.line C raw) x).out

theorem ascii_of_all {l : List UInt8} (h : (l.all fun b => decide (b < 0x80))) :
    ∀ b ∈ l, b < 0x80 :=
  fun b hb => of_decide_eq_true (List.all_eq_true.mp h b hb)

theorem toNat_byteChar {b : UInt8} (h : b < 0x80) : (byteChar b).toNat = b.toNat := by
  have hall : ∀ n < 128, (Char.ofNat n).toNat = n := by decide
  exact hall b.toNat (UInt8.lt_iff_toNat_lt.mp h)

theorem byteChar_inj {a b : UInt8} (ha : a < 0x80) (hb : b < 0x80) (h : byteChar a = byteChar b) :
    a = b := by
  apply UInt8.toNat_inj.mp
  rw [← toNat_byteChar ha, ← toNat_byteChar hb, h]

/-! ## Keys and lines -/

/-- The runes outside escape sequences; the first `skip` belong to one. -/
def keys : (skip : ℕ) → List Char → List Char
  | _, [] => []
  | skip + 1, _ :: rs => keys skip rs
  | 0, r :: rs => if r.toNat = 0x1b then keys (skipEscape rs) rs else r :: keys 0 rs

structure Editor where
  buf : List Char
  texts : List String

def Editor.key (e : Editor) (r : Char) : Editor :=
  if r = '\r' ∨ r = '\n' then
    ⟨[], if sanitize (String.ofList e.buf) = "" then e.texts else e.texts ++
      [sanitize (String.ofList e.buf)]⟩
  else if r.toNat = 0x7f ∨ r.toNat = 0x08 then { e with buf := e.buf.dropLast }
  else if r.toNat = 0x15 then { e with buf := [] }
  else if r.toNat = 0x03 then { e with buf := [] }
  else if r.toNat < 0x20 then e
  else if e.buf.length < maxLineLen then { e with buf := e.buf ++ [r] }
  else e

def lines (ks : List Char) : List String := (ks.foldl Editor.key ⟨[], []⟩).texts

section

variable {x : Extractor}

def Extractor.texts (x : Extractor) : List String := x.out.map Command.text

def Extractor.editor (x : Extractor) : Editor := ⟨x.buf, x.texts⟩

variable (ts : Duration)

theorem editor_started (data : List Char) : (x.started ts data).editor = x.editor := by
  unfold Extractor.started
  split <;> rfl

theorem editor_flush :
    (x.flush ts).editor = ⟨[], if sanitize (String.ofList x.buf) = "" then x.texts
      else x.texts ++ [sanitize (String.ofList x.buf)]⟩ := by
  unfold Extractor.flush Extractor.editor Extractor.texts
  dsimp only
  split
  · rfl
  · rw [List.map_append]
    rfl

theorem editor_key (r : Char) : (x.key ts r).editor = x.editor.key r := by
  unfold Extractor.key Editor.key
  split
  · exact editor_flush ts
  split
  · rfl
  split
  · rfl
  split
  · rfl
  split
  · rfl
  · show (if x.buf.length < maxLineLen then _ else _ : Extractor).editor =
      if x.buf.length < maxLineLen then _ else _
    split <;> rfl

theorem editor_consume (skip : ℕ) (rs : List Char) :
    (x.consume ts skip rs).editor = (keys skip rs).foldl Editor.key x.editor := by
  induction skip, rs using keys.induct generalizing x with
  | case1 skip => cases skip <;> rfl
  | case2 skip r rs ih => exact ih
  | case3 r rs hesc ih =>
    rw [Extractor.consume, if_pos hesc, keys, if_pos hesc]
    exact ih
  | case4 r rs hesc ih =>
    rw [Extractor.consume, if_neg hesc, keys, if_neg hesc, List.foldl_cons, ← editor_key ts]
    exact ih

theorem first_key (r : Char) : (x.key ts r).first = x.first := by
  unfold Extractor.key Extractor.flush
  split
  · rfl
  split
  · rfl
  split
  · rfl
  split
  · rfl
  · split
    · rfl
    · split <;> rfl

theorem first_consume (skip : ℕ) (rs : List Char) : (x.consume ts skip rs).first = x.first := by
  induction skip, rs using keys.induct generalizing x with
  | case1 skip => cases skip <;> rfl
  | case2 skip r rs ih => exact ih
  | case3 r rs hesc ih =>
    rw [Extractor.consume, if_pos hesc]
    exact ih
  | case4 r rs hesc ih =>
    rw [Extractor.consume, if_neg hesc]
    exact ih.trans (first_key ts r)

theorem first_started (data : List Char) : (x.started ts data).first = x.first := by
  unfold Extractor.started
  split <;> rfl

end

/-! ## The recording -/

theorem readLines_append {l : List UInt8} (h : 0x0A ∉ l) (cur rest : List UInt8) :
    readLines cur (l ++ 0x0A :: rest) = (cur ++ l ++ [0x0A]) :: readLines [] rest := by
  induction l generalizing cur with
  | nil => rw [List.nil_append, List.append_nil, readLines, if_pos rfl]
  | cons b l ih =>
    rw [List.mem_cons, not_or] at h
    rw [List.cons_append, readLines, if_neg (Ne.symm h.1), ih h.2, List.append_assoc cur [b] l]
    rfl

theorem readLines_linesOf {ls : List Framed} (h : ∀ f ∈ ls, ∃ l, 0x0A ∉ l ∧ f.2 = l ++ [0x0A]) :
    readLines [] (linesOf ls) = ls.map Prod.snd := by
  induction ls with
  | nil => rfl
  | cons f ls ih =>
    obtain ⟨⟨l, hl, hf⟩, hls⟩ := List.forall_mem_cons.mp h
    rw [linesOf, List.flatMap_cons, hf, List.append_assoc, List.singleton_append,
      readLines_append hl, List.map_cons, hf, ← ih hls]
    rfl

section

variable (C : Codec)

theorem trimNewline_event (elapsed : Duration) (kind : EventKind) (data : List UInt8) :
    trimNewline (C.event elapsed kind data ++ [0x0A]) = C.event elapsed kind data := by
  obtain ⟨l, hl⟩ := List.getLast?_eq_some_iff.mp (C.event_last elapsed kind data)
  rw [trimNewline, hl]
  simp [isEnter]

theorem line_of_parse {C : Codec} {x : Extractor} (hfirst : x.first = false) {start : Instant}
    {e : Recorded} {ts : Duration} {rs : List Char}
    (hparse : C.parse (C.event (e.now - start) e.event.kind e.event.data) =
      some (ts, e.event.kind, rs)) :
    x.line C (framedEvent C.toJson start e).2 =
      if e.event.kind ≠ .i then x else (x.started ts rs).consume ts 0 rs := by
  rw [framedEvent, Extractor.line, hfirst]
  dsimp only
  rw [trimNewline_event, C.event_head, hparse]
  simp only [if_false, ne_eq, not_true_eq_false, Bool.false_eq_true]

theorem extractCommands_recorded (cols rows startUnix : ℤ) (nonce : Bytes 12)
    (evs : List Recorded) :
    (extractCommands C (linesOf (recordedLines C.toJson cols rows startUnix nonce evs))).map
      Command.text =
        (evs.foldl (fun x e => x.line C (framedEvent C.toJson (startUnix * 1000000000) e).2)
        (⟨[], [], 0, false, false⟩ : Extractor)).texts := by
  have hlines : ∀ f ∈ recordedLines C.toJson cols rows startUnix nonce evs,
      ∃ l, 0x0A ∉ l ∧ f.2 = l ++ [0x0A] := by
    intro f hf
    rcases List.mem_cons.mp hf with rfl | hf
    · exact ⟨_, C.header_newline cols rows startUnix, rfl⟩
    · obtain ⟨e, -, rfl⟩ := List.mem_map.mp hf
      exact ⟨_, C.event_newline _ _ _, rfl⟩
  rw [extractCommands, readLines_linesOf hlines, recordedLines, List.map_cons, List.foldl_cons,
    List.map_map, List.foldl_map]
  rfl

end

/-! ## The events of a session -/

section

variable (C : Codec) (start : Instant)

/-- What the index decodes of the data of an event. -/
def decoded (e : Recorded) : List Char :=
  match C.parse (C.event (e.now - start) e.event.kind e.event.data) with
  | some (_, _, rs) => rs
  | none => []

theorem decoded_eq {C : Codec} {start : Instant} {e : Recorded} {ts : Duration} {kind : EventKind}
    {rs : List Char}
    (h : C.parse (C.event (e.now - start) e.event.kind e.event.data) = some (ts, kind, rs)) :
    decoded C start e = rs := by
  rw [decoded, h]

/-- The keys of the input events, each scanned by itself. -/
def typedKeys (evs : List Recorded) : List Char :=
  evs.flatMap fun e => if e.event.kind = .i then keys 0 (decoded C start e) else []

variable {C start}

theorem line_recorded (C : Codec) (start : Instant) {x : Extractor} (hfirst : x.first = false)
    (e : Recorded) :
    (x.line C (framedEvent C.toJson start e).2).first = false ∧
    (x.line C (framedEvent C.toJson start e).2).editor =
        (if e.event.kind = .i then keys 0 (decoded C start e) else []).foldl Editor.key
          x.editor := by
  obtain ⟨ts, rs, hparse, -⟩ := C.parse_event (e.now - start) e.event.kind e.event.data
  have hdecoded : decoded C start e = rs := by
    unfold decoded
    rw [hparse]
  rw [line_of_parse hfirst hparse, hdecoded]
  by_cases hkind : e.event.kind = .i
  · rw [if_neg (not_not_intro hkind), if_pos hkind, first_consume, first_started, editor_consume,
      editor_started]
    exact ⟨hfirst, rfl⟩
  · rw [if_pos hkind, if_neg hkind]
    exact ⟨hfirst, rfl⟩

theorem editor_events {x : Extractor} (hfirst : x.first = false) (evs : List Recorded) :
    (evs.foldl (fun x e => x.line C (framedEvent C.toJson start e).2) x).editor =
      (typedKeys C start evs).foldl Editor.key x.editor := by
  induction evs generalizing x with
  | nil => rfl
  | cons e evs ih =>
    obtain ⟨hfirst', heditor⟩ := line_recorded C start hfirst e
    rw [List.foldl_cons, ih hfirst', heditor, typedKeys, typedKeys, List.flatMap_cons,
      List.foldl_append]

end

theorem texts_eq_lines (C : Codec) (cols rows startUnix : ℤ) (nonce : Bytes 12)
    (evs : List Recorded) :
    (extractCommands C (linesOf (recordedLines C.toJson cols rows startUnix nonce evs))).map
      Command.text = lines (typedKeys C (startUnix * 1000000000) evs) := by
  rw [extractCommands_recorded]
  exact congrArg Editor.texts (editor_events rfl evs)

/-! ## A coding that can be evaluated -/

def kindByte : EventKind → UInt8
  | .o => 0x6F
  | .i => 0x69
  | .r => 0x72

/-- Text is written out in letters, two for a byte. -/
def letterEvent (kind : EventKind) (data : List UInt8) : List UInt8 :=
  0x5B :: kindByte kind :: (data.flatMap nibbles).map (· + 0x61) ++ [0x5D]

def letterParse (raw : List UInt8) : Option (Duration × EventKind × List Char) :=
  let data := joinNibbles ((raw.drop 2).dropLast.map (· - 0x61))
  ([EventKind.o, .i, .r].find? fun kind => raw[1]? == some (kindByte kind)).map fun kind =>
    (0, kind, data.map byteChar)

theorem letterEvent_newline (kind : EventKind) (data : List UInt8) :
    0x0A ∉ letterEvent kind data := by
  have hkind : (0x0A : UInt8) ≠ kindByte kind := by cases kind <;> decide
  have hletter : (0x0A : UInt8) ∉ (data.flatMap nibbles).map (· + 0x61) := by
    intro hmem
    obtain ⟨x, hx, heq⟩ := List.mem_map.mp hmem
    have hlt := UInt8.lt_iff_toNat_lt.mp (lt_of_mem_nibbles hx)
    have hnat := congrArg UInt8.toNat heq
    rw [UInt8.toNat_add] at hnat
    simp only [UInt8.reduceToNat] at hnat hlt
    omega
  simp only [letterEvent, List.cons_append, List.mem_cons, List.mem_append, List.not_mem_nil,
    or_false, not_or]
  exact ⟨by decide, hkind, hletter, by decide⟩

theorem letterParse_letterEvent (kind : EventKind) (data : List UInt8) :
    letterParse (letterEvent kind data) = some (0, kind, data.map byteChar) := by
  have hletters : ((data.flatMap nibbles).map (· + 0x61)).map (· - 0x61) =
      data.flatMap nibbles := by
    rw [List.map_map]
    exact List.map_id'' (fun x => by simp) _
  have hdata : joinNibbles ((((letterEvent kind data).drop 2).dropLast).map (· - 0x61)) = data := by
    show joinNibbles ((((data.flatMap nibbles).map (· + 0x61) ++ [0x5D]).dropLast).map
      (· - 0x61)) = data
    rw [List.dropLast_concat, hletters, joinNibbles_flatMap]
  have hkind : [EventKind.o, .i, .r].find?
      (fun k => (letterEvent kind data)[1]? == some (kindByte k)) = some kind := by
    cases kind <;> rfl
  rw [letterParse, hkind, Option.map_some, hdata]

theorem newline_notMem_braces : (0x0A : UInt8) ∉ [0x7B, 0x7D] := by decide

def letterCodec : Codec where
  header _ _ _ := [0x7B, 0x7D]
  event _ kind data := letterEvent kind data
  parse := letterParse
  header_newline _ _ _ := newline_notMem_braces
  event_newline _ kind data := letterEvent_newline kind data
  event_head _ _ _ := rfl
  event_last _ _ _ := List.getLast?_concat
  parse_event _ kind data := ⟨0, data.map byteChar, letterParse_letterEvent kind data, fun _ => rfl⟩

end Moorgate.Cmdindex
