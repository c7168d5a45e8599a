import Moorgate.Recorder.Playback

/-!
# Keystrokes in batches: `cmdindex/extract.go`

An event that is split keeps its keys unless a sequence of its first part goes on in the second. If
one does, its runes there are read as keys, and the commands stay the same if the editor ignores
them (`batches_agree_iff`).
-/

namespace Moorgate.Cmdindex

open Framework Recorder

/-- `encoding/json` on the lines of a recording, which restores every text. -/
structure TextCodec extends Codec where
  parse_text : ∀ elapsed kind (s : List Char), ∃ ts,
    parse (event elapsed kind (s.flatMap String.utf8EncodeChar)) = some (ts, kind, s)

/-! ## Splitting an event -/

/-- The runes at the front of `b` that belong to a sequence which begins in `a`. -/
def pending : (skip : ℕ) → (a b : List Char) → ℕ
  | skip, [], _ => skip
  | skip + 1, _ :: a, b => pending skip a b
  | 0, r :: a, b => if r.toNat = 0x1b then pending (skipEscape (a ++ b)) a b else pending 0 a b

variable (a b : List Char)

/-- A sequence that ends in `a` is as long with what follows; one that does not takes all of `a`. -/
theorem skipEscape_append :
    skipEscape a = skipEscape (a ++ b) ∨
    (a.length ≤ skipEscape a ∧ a.length ≤ skipEscape (a ++ b)) := by
  cases a with
  | nil => exact .inr ⟨Nat.zero_le _, Nat.zero_le _⟩
  | cons c a =>
    rw [List.cons_append, skipEscape, skipEscape]
    split
    · rw [List.takeWhile_append]
      split
      · rename_i hall
        rw [hall, List.length_append, List.length_cons]
        omega
      · exact .inl rfl
    · exact .inl rfl

/-- What an event types, typed in two; `s` runes are left of a sequence in the part, `s'` in the
whole. -/
theorem keys_append_aux {s s' : ℕ} {a : List Char} (h : s = s' ∨ (a.length ≤ s ∧ a.length ≤ s')) :
    keys s' (a ++ b) = keys s a ++ keys (pending s' a b) b := by
  induction a generalizing s s' with
  | nil => cases s <;> cases s' <;> rfl
  | cons r a ih =>
    cases s with
    | zero =>
      obtain rfl : s' = 0 := by
        rcases h with h | ⟨h, -⟩
        · exact h.symm
        · exact absurd h (by rw [List.length_cons]; omega)
      rw [List.cons_append, keys, keys, pending]
      by_cases hesc : r.toNat = 0x1b
      · rw [if_pos hesc, if_pos hesc, if_pos hesc]
        exact ih (skipEscape_append a b)
      · rw [if_neg hesc, if_neg hesc, if_neg hesc, List.cons_append, ih (.inl rfl)]
    | succ s =>
      cases s' with
      | zero =>
        rcases h with h | ⟨-, h⟩
        · cases h
        · exact absurd h (by rw [List.length_cons]; omega)
      | succ s' =>
        apply ih
        rcases h with h | ⟨h, h'⟩
        · exact .inl (Nat.succ.inj h)
        · rw [List.length_cons] at h h'
          exact .inr ⟨by omega, by omega⟩

theorem keys_append : keys 0 (a ++ b) = keys 0 a ++ keys (pending 0 a b) b :=
  keys_append_aux b (.inl rfl)

def typed (s : List Char) (now : Instant) (nonce : Bytes 12) : Recorded :=
  ⟨.input (s.flatMap String.utf8EncodeChar), now, nonce⟩

theorem typedKeys_typed (C : TextCodec) (start : Instant) (s : List Char) (now : Instant)
    (nonce : Bytes 12) : typedKeys C.toCodec start [typed s now nonce] = keys 0 s := by
  obtain ⟨ts, hparse⟩ := C.parse_text (now - start) .i s
  have hdecoded : decoded C.toCodec start (typed s now nonce) = s := decoded_eq hparse
  rw [typedKeys, List.flatMap_singleton]
  show keys 0 (decoded C.toCodec start (typed s now nonce)) = keys 0 s
  rw [hdecoded]

def commandTexts (C : TextCodec) (cols rows startUnix : ℤ) (nonce : Bytes 12)
    (evs : List Recorded) : List String :=
  (extractCommands C.toCodec (linesOf (recordedLines C.toJson cols rows startUnix nonce evs))).map
    Command.text

/-- The control runes that do nothing, of which ESC is none. -/
def Ignored (r : Char) : Prop :=
  r.toNat < 0x20 ∧ r ≠ '\r' ∧ r ≠ '\n' ∧ r.toNat ∉ [0x03, 0x08, 0x15, 0x1b]

theorem key_of_ignored {r : Char} (h : Ignored r) (e : Editor) : e.key r = e := by
  obtain ⟨hlow, hcr, hlf, hnot⟩ := h
  simp only [List.mem_cons, List.not_mem_nil, or_false, not_or] at hnot
  unfold Editor.key
  rw [if_neg (by tauto), if_neg (by omega), if_neg (by omega), if_neg (by omega), if_pos hlow]

theorem foldl_keys_of_ignored {n : ℕ} {b : List Char} (h : ∀ r ∈ b.take n, Ignored r) (e : Editor) :
    (keys n b).foldl Editor.key e = (keys 0 b).foldl Editor.key e := by
  induction b generalizing n e with
  | nil => cases n <;> rfl
  | cons r b ih =>
    cases n with
    | zero => rfl
    | succ n =>
      rw [List.take_succ_cons, List.forall_mem_cons] at h
      have hesc : r.toNat ≠ 0x1b := fun hesc => h.1.2.2.2 (by rw [hesc]; decide)
      rw [keys, keys, if_neg hesc, List.foldl_cons, key_of_ignored h.1]
      exact ih h.2 e

section

variable (C : TextCodec) (cols rows startUnix : ℤ) (nonce : Bytes 12)

/-- The commands are those of the event in one and of the event in two. -/
def Agree (before after : List Recorded) (a b : List Char) (now : Instant)
    (n n₁ n₂ : Bytes 12) : Prop :=
  commandTexts C cols rows startUnix nonce (before ++ [typed (a ++ b) now n] ++ after) =
    commandTexts C cols rows startUnix nonce (before ++ [typed a now n₁, typed b now n₂] ++ after)

theorem agree_iff {before after : List Recorded} {now : Instant} {n n₁ n₂ : Bytes 12} :
    Agree C cols rows startUnix nonce before after a b now n n₁ n₂ ↔
      lines (typedKeys C.toCodec (startUnix * 1000000000) before ++
        (keys 0 a ++ keys (pending 0 a b) b) ++
          typedKeys C.toCodec (startUnix * 1000000000) after) =
        lines (typedKeys C.toCodec (startUnix * 1000000000) before ++ (keys 0 a ++ keys 0 b) ++
          typedKeys C.toCodec (startUnix * 1000000000) after) := by
  have happend : ∀ evs evs' : List Recorded, typedKeys C.toCodec (startUnix * 1000000000)
      (evs ++ evs') = typedKeys C.toCodec (startUnix * 1000000000) evs ++ typedKeys C.toCodec
      (startUnix * 1000000000) evs' :=
    fun _ _ => List.flatMap_append
  have hpair : [typed a now n₁, typed b now n₂] = [typed a now n₁] ++ [typed b now n₂] := rfl
  unfold Agree commandTexts
  rw [texts_eq_lines, texts_eq_lines, hpair]
  simp only [happend, typedKeys_typed]
  rw [keys_append]

theorem ignored_of_lines {r : Char} (hesc : r.toNat ≠ 0x1b)
    (hsubmit : lines ['x', 'y', '\r'] = lines ['x', r, 'y', '\r'])
    (herase : lines ['x', '\x7f', '\r'] = lines ['x', r, '\x7f', '\r']) : Ignored r := by
  by_cases henter : r = '\r' ∨ r = '\n'
  · rcases henter with rfl | rfl
    all_goals exact absurd hsubmit (by decide +kernel)
  have hkey (e : Editor) : e.key r =
      if r.toNat = 0x7f ∨ r.toNat = 0x08 then { e with buf := e.buf.dropLast }
      else if r.toNat = 0x15 then { e with buf := [] }
      else if r.toNat = 0x03 then { e with buf := [] }
      else if r.toNat < 0x20 then e
      else if e.buf.length < maxLineLen then { e with buf := e.buf ++ [r] }
      else e := by
    rw [Editor.key, if_neg henter]
  have htyped (c : Char) : lines ['x', r, c, '\r'] =
      (((Editor.mk ['x'] []).key r).key c |>.key '\r').texts := rfl
  rw [htyped, hkey] at hsubmit herase
  split_ifs at hsubmit herase with hdel hctrlU hctrlC hlow hroom
  · exact absurd hsubmit (by decide +kernel)
  · exact absurd hsubmit (by decide +kernel)
  · exact absurd hsubmit (by decide +kernel)
  · refine ⟨hlow, fun h => henter (.inl h), fun h => henter (.inr h), ?_⟩
    simp only [List.mem_cons, List.not_mem_nil, or_false, not_or]
    omega
  · -- the erasing key takes the rune, and not the one before it
    have hback : (Editor.mk (['x'] ++ [r]) []).key '\x7f' = ⟨['x'], []⟩ := rfl
    rw [hback] at herase
    exact absurd herase (by decide +kernel)
  · exact absurd (by decide) hroom

/-- **The commands do not depend on the batches** where the editor ignores what is read as keys of
a sequence that goes on. Of the runes that may follow an ESC in an event of their own, the ignored
ones alone leave every session its commands. -/
theorem batches_agree_iff :
    (∀ before after a b now n n₁ n₂, (∀ r ∈ b.take (pending 0 a b), Ignored r) →
      Agree C cols rows startUnix nonce before after a b now n n₁ n₂) ∧
    ∀ r : Char, r.toNat ≠ 0x1b →
      ((∀ before after, Agree C cols rows startUnix nonce before after ['\x1b'] [r] 0 nonce nonce
        nonce) ↔ Ignored r) := by
  have henough : ∀ before after a b now n n₁ n₂, (∀ r ∈ b.take (pending 0 a b), Ignored r) →
      Agree C cols rows startUnix nonce before after a b now n n₁ n₂ := by
    intro before after a b now n n₁ n₂ h
    rw [agree_iff]
    unfold lines
    simp only [List.foldl_append, foldl_keys_of_ignored h]
  refine ⟨henough, fun r hesc => ⟨fun h => ?_, fun h before after => ?_⟩⟩
  · have hlines : ∀ c, c.toNat ≠ 0x1b → lines ['x', c, '\r'] = lines ['x', r, c, '\r'] := by
      intro c hc
      have hsame := (agree_iff _ _ C cols rows startUnix nonce).mp
        (h [typed ['x'] 0 nonce] [typed [c, '\r'] 0 nonce])
      have hskipped : keys (pending 0 ['\x1b'] [r]) [r] = [] := by
        show keys (skipEscape [r]) [r] = []
        rw [skipEscape]
        split <;> rfl
      have hrune : keys 0 [r] = [r] := if_neg hesc
      have hafter : keys 0 [c, '\r'] = [c, '\r'] := if_neg hc
      rw [typedKeys_typed, typedKeys_typed, hskipped, hrune, hafter] at hsame
      exact hsame
    exact ignored_of_lines hesc (hlines 'y' (by decide)) (hlines '\x7f' (by decide))
  · refine henough before after _ _ 0 nonce nonce nonce fun c hc => ?_
    rwa [List.mem_singleton.mp (List.mem_of_mem_take hc)]

end

/-! ## A concrete session -/

def runeParse (raw : List UInt8) : Option (Duration × EventKind × List Char) :=
  (letterPlay (raw ++ [0x0A])).map fun e => (0, e.1, runes e.2)

theorem runeParse_letterEvent (kind : EventKind) (data : List UInt8) :
    runeParse (letterEvent kind data) = some (0, kind, runes data) := by
  rw [runeParse, letterPlay_letterEvent]
  rfl

theorem runes_of_ascii {data : List UInt8} (h : ∀ b ∈ data, b < 0x80) :
    runes data = data.map byteChar := by
  have hencode : ∀ b ∈ data, String.utf8EncodeChar (byteChar b) = [b] := by
    intro b hb
    have hlt := UInt8.lt_iff_toNat_lt.mp (h b hb)
    have hval : (byteChar b).val.toNat = b.toNat := toNat_byteChar (h b hb)
    rw [String.utf8EncodeChar, hval, if_pos (Nat.le_of_lt_succ hlt), UInt8.ofNat_toNat]
  have hflat : (data.map byteChar).flatMap String.utf8EncodeChar = data := by
    rw [List.flatMap_map, List.flatMap_congr hencode, List.flatMap_singleton']
  conv_lhs => rw [← hflat]
  exact runes_flatMap _

/-- A coding of events that can be evaluated. -/
def runeCodec : TextCodec where
  toCodec := { letterCodec with
    parse := runeParse
    parse_event _ kind data := ⟨0, runes data, runeParse_letterEvent kind data, runes_of_ascii⟩ }
  parse_text _ kind s :=
    ⟨0, (runeParse_letterEvent kind _).trans (congrArg (fun rs => some (0, kind, rs))
      (runes_flatMap s))⟩

/-- An arrow key and a command in one event, and the same with the ESC in an event of its own. -/
theorem batches_differ_at_arrow_key :
    commandTexts runeCodec 80 24 0 sampleNonce [typed ['\x1b', '[', 'A', 'l', 's',
      '\r'] 0 sampleNonce] = ["ls"] ∧ commandTexts runeCodec 80 24 0 sampleNonce
        [typed ['\x1b'] 0 sampleNonce, typed ['[', 'A', 'l', 's', '\r'] 0 sampleNonce] =
          ["[Als"] := by
  decide +kernel

end Moorgate.Cmdindex
