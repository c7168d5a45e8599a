import Moorgate.Cmdindex.Extract
import Moorgate.Framework.Base.Utf8

/-!
# What a recording plays: `recorder/asciicast.go`, `terminal/terminal.go`

The relay reads the output of the shell into a buffer of 4096 bytes and passes what it got to
`Output`, which writes it as one JSON string. A read can end within a character, and `json.Marshal`
replaces each byte of its two parts. A replaced byte becomes three, so what is played is the stream
exactly if every single piece is a text (`playback_faithful_iff`).
-/

set_option linter.dupNamespace false

namespace Moorgate.Recorder

open Framework Cmdindex

/-- `encoding/json` on the lines of a recording: a string is written with each byte that begins no
character replaced, and read back as it was written. -/
structure Player extends Json where
  parse : List UInt8 → Option (EventKind × ByteString)
  header_newline : ∀ cols rows startUnix, 0x0A ∉ header cols rows startUnix
  event_newline : ∀ elapsed kind data, 0x0A ∉ event elapsed kind data
  parse_event : ∀ elapsed kind data, parse (event elapsed kind data ++ [0x0A]) =
    some (kind, toText data)

/-- The data of the "o" events; the first line is the header. -/
def played (P : Player) (cast : List UInt8) : ByteString :=
  ((readLines [] cast).tail.filterMap P.parse).flatMap fun e => if e.1 = .o then e.2 else []

def outputs (evs : List Recorded) : List ByteString :=
  evs.filterMap fun e =>
    match e.event with
    | .output b => some b
    | _ => none

section

variable (P : Player) (cols rows startUnix : ℤ) (nonce : Bytes 12)

theorem played_events (start : Instant) (evs : List Recorded) :
    ((evs.map fun e => (framedEvent P.toJson start e).2).filterMap P.parse).flatMap
        (fun e => if e.1 = .o then e.2 else []) = ((outputs evs).map toText).flatten := by
  induction evs with
  | nil => rfl
  | cons e evs ih =>
    obtain ⟨event, now, nonce⟩ := e
    rw [List.map_cons, framedEvent, List.filterMap_cons_some (P.parse_event _ _ _),
      List.flatMap_cons, ih]
    cases event with
    | output b | input b | resize cols rows => rfl

theorem played_recorded (evs : List Recorded) :
    played P (linesOf (recordedLines P.toJson cols rows startUnix nonce evs)) =
      ((outputs evs).map toText).flatten := by
  have hlines : ∀ f ∈ recordedLines P.toJson cols rows startUnix nonce evs, ∃ l, 0x0A ∉ l ∧
      f.2 = l ++ [0x0A] := by
    intro f hf
    rcases List.mem_cons.mp hf with rfl | hf
    · exact ⟨_, P.header_newline cols rows startUnix, rfl⟩
    · obtain ⟨e, -, rfl⟩ := List.mem_map.mp hf
      exact ⟨_, P.event_newline _ _ _, rfl⟩
  rw [played, readLines_linesOf hlines, recordedLines, List.map_cons, List.tail_cons, List.map_map]
  exact played_events P _ evs

end

theorem eq_linesOf_of_readFile {A : Aead (Bytes 32) (Bytes 12)}
    {sha256 : List UInt8 → Bytes 32} {J : Json} {cols rows startUnix : ℤ} {key : List UInt8}
    {nonce : Bytes 12} {evs : List Recorded} {r : Recorder} {cast : List UInt8}
    (hr : newRecorder A sha256 J cols rows startUnix key nonce = .ok r)
    (hcast : readFile A sha256 key (r.events A J evs).file = .ok cast) :
    cast = linesOf (recordedLines J cols rows startUnix nonce evs) := by
  obtain ⟨r', hr', htook⟩ := took_recording A sha256 J cols rows startUnix key nonce evs
  cases Except.ok.inj (hr.symm.trans hr')
  by_cases hkey : key = []
  · subst hkey
    have hfile : (r.events A J evs).file =
        takenOf A none (whole (recordedLines J cols rows startUnix nonce evs)) := htook.file
    rw [takenOf_whole_none] at hfile
    unfold readFile at hcast
    split at hcast
    · cases hcast
      exact hfile
    · cases hcast
  · have hfit : ∀ f ∈ recordedLines J cols rows startUnix nonce evs,
        A.sealedLen f.2.length < 2 ^ 32 := by
      intro f hf
      by_contra hlong
      cases (readFile_of_long hkey htook hf (Nat.le_of_not_lt hlong)).symm.trans hcast
    have htrips : RoundTrips A sha256 key _ _ ((r.events A J evs).close sha256 0).1 :=
      roundTrips_of_fit hkey htook hfit
    exact Except.ok.inj (hcast.symm.trans htrips.whole)

/-- **A recording plays the stream** exactly if every piece that was passed to `Output` is a text.
-/
theorem playback_faithful_iff (A : Aead (Bytes 32) (Bytes 12)) (sha256 : List UInt8 → Bytes 32)
    (P : Player) (cols rows startUnix : ℤ) (key : List UInt8) (nonce : Bytes 12)
    (evs : List Recorded) (r : Recorder) (cast : List UInt8)
    (hr : newRecorder A sha256 P.toJson cols rows startUnix key nonce = .ok r)
    (hcast : readFile A sha256 key (r.events A P.toJson evs).file = .ok cast) :
    played P cast = (outputs evs).flatten ↔ ∀ b ∈ outputs evs, Utf8 b := by
  rw [eq_linesOf_of_readFile hr hcast, played_recorded]
  exact flatten_map_toText_iff

theorem ofNat_byteChar (b : UInt8) : UInt8.ofNat (byteChar b).toNat = b := by
  have hvalid : Nat.isValidChar b.toNat := .inl (by have := b.toNat_lt; omega)
  have hval : (byteChar b).toNat = b.toNat := by
    rw [byteChar, Char.ofNat, dif_pos hvalid]
    rfl
  rw [hval, UInt8.ofNat_toNat]

def letterPlay (raw : List UInt8) : Option (EventKind × ByteString) :=
  (letterParse raw.dropLast).map fun e => (e.2.1, e.2.2.map fun c => UInt8.ofNat c.toNat)

theorem letterPlay_letterEvent (kind : EventKind) (data : ByteString) :
    letterPlay (letterEvent kind data ++ [0x0A]) = some (kind, data) := by
  rw [letterPlay, List.dropLast_concat, letterParse_letterEvent, Option.map_some, List.map_map]
  exact congrArg (fun l => some (kind, l)) (List.map_id'' ofNat_byteChar _)

/-- A coding of events that can be evaluated. -/
def letterPlayer : Player where
  header _ _ _ := [0x7B, 0x7D]
  event _ kind data := letterEvent kind (toText data)
  parse := letterPlay
  header_newline _ _ _ := newline_notMem_braces
  event_newline _ kind data := letterEvent_newline kind (toText data)
  parse_event _ kind data := letterPlay_letterEvent kind (toText data)

/-- An `é` in one piece. -/
theorem playback_of_whole_character : ∃ r cast,
    newRecorder freeAead sampleSha256 letterPlayer.toJson 80 24 0 [] sampleNonce = .ok r ∧
      readFile freeAead sampleSha256 []
        (r.events freeAead letterPlayer.toJson [⟨.output [0xC3, 0xA9], 0, sampleNonce⟩]).file =
          .ok cast ∧
      played letterPlayer cast = [0xC3, 0xA9] :=
  ⟨_, _, rfl, rfl, (playback_faithful_iff freeAead sampleSha256 letterPlayer 80 24 0 [] sampleNonce
    [⟨.output [0xC3, 0xA9], 0, sampleNonce⟩] _ _ rfl rfl).mpr
      (List.forall_mem_singleton.mpr (utf8_encodeChar (Char.ofNat 0xE9)))⟩

/-- An `é` that two reads have cut in two is played as two replacement characters. -/
theorem playback_of_cut_character : Utf8 [0xC3, 0xA9] ∧ ∃ r cast,
    newRecorder freeAead sampleSha256 letterPlayer.toJson 80 24 0 [] sampleNonce = .ok r ∧
      readFile freeAead sampleSha256 [] (r.events freeAead letterPlayer.toJson
          [⟨.output [0xC3], 0, sampleNonce⟩, ⟨.output [0xA9], 0, sampleNonce⟩]).file = .ok cast ∧
      played letterPlayer cast = [0xEF, 0xBF, 0xBD, 0xEF, 0xBF, 0xBD] := by
  refine ⟨utf8_encodeChar (Char.ofNat 0xE9), _, _, rfl, rfl, ?_⟩
  decide +kernel

end Moorgate.Recorder
