import Moorgate.Framework.Base.Civil
import Moorgate.Framework.Base.Hex
import Moorgate.Recorder.Crypto

/-!
# Session recordings: `recorder/asciicast.go`

A recorder appends one line for the header and one for each event, plain or in a frame of its own,
and hashes the plaintext of what it writes. `Took` says what a recorder has written, as a list of
nonces and lines with what the file took of each. Of such a file, cut at any length, the readers
return the lines whose frames are whole, as long as each line fits its frame, whose length is
written in four bytes.
-/

set_option linter.dupNamespace false

namespace Moorgate.Recorder

open Framework

inductive EventKind where
  | o | i | r
deriving DecidableEq

/-- `json.Marshal` of the header and of an event. -/
structure Json where
  header : (cols rows startUnix : ℤ) → List UInt8
  event : Duration → EventKind → List UInt8 → List UInt8

/-- `file` is the content of the file, `hasher` what the hasher was fed. -/
structure Recorder where
  (file hasher : List UInt8)
  start : Instant
  bytes : ℕ
  closed : Bool
  gcm : Option (Bytes 32)

structure RecResult where
  sizeBytes : ℕ
  durationMS : ℤ
  sha256 : String
deriving DecidableEq

def hexEncode (b : List UInt8) : String := String.ofList (b.flatMap fun x => hexDigits 2 x.toNat)

/-- An event, the time it is recorded at and the nonce drawn for it. -/
inductive SessionEvent where
  | output (b : List UInt8)
  | input (b : List UInt8)
  | resize (cols rows : ℤ)

structure Recorded where
  event : SessionEvent
  now : Instant
  nonce : Bytes 12

def dimensions (cols rows : ℤ) : List UInt8 :=
  (toString cols ++ "x" ++ toString rows).toUTF8.data.toList

def SessionEvent.kind : SessionEvent → EventKind
  | .output _ => .o
  | .input _ => .i
  | .resize _ _ => .r

def SessionEvent.data : SessionEvent → List UInt8
  | .output b | .input b => b
  | .resize cols rows => dimensions cols rows

/-- What the file takes of the bytes of one write: all, or the first `j`. -/
def taken : Option ℕ → List UInt8 → List UInt8
  | none, b => b
  | some j, b => b.take j

section

variable (A : Aead (Bytes 32) (Bytes 12)) (sha256 : List UInt8 → Bytes 32) (J : Json)

/-- `n` is what the file takes of the write; the error of a short one is ignored. -/
def writeLineLocked (n : Option ℕ) (nonce : Bytes 12) (line : List UInt8) (r : Recorder) :
    Recorder :=
  let line := line ++ [0x0A]
  match r.gcm with
  | some gcm =>
    let b := taken n (sealFrame A gcm nonce line)
    { r with hasher := r.hasher ++ line, file := r.file ++ b, bytes := r.bytes + b.length }
  | none =>
    let b := taken n line
    { r with hasher := r.hasher ++ line, file := r.file ++ b, bytes := r.bytes + b.length }

/-- `New`, with what the file takes of the header; an empty key is none. -/
def newRecorderTaken (cols rows startUnix : ℤ) (key : List UInt8) (nonce : Bytes 12)
    (n : Option ℕ) : Except RecordError Recorder :=
  let r : Recorder := ⟨[], [], startUnix * 1000000000, 0, false, none⟩
  if key = [] then .ok (writeLineLocked A n nonce (J.header cols rows startUnix) r)
  else
    match recGCM sha256 key with
    | .error err => .error err
    | .ok gcm =>
      let r := { r with gcm := some gcm, file := recMagic, bytes := recMagic.length }
      .ok (writeLineLocked A n nonce (J.header cols rows startUnix) r)

def Recorder.eventTaken (r : Recorder) (e : Recorded × Option ℕ) : Recorder :=
  if r.closed then r
  else
    writeLineLocked A e.2 e.1.nonce (J.event (e.1.now - r.start) e.1.event.kind e.1.event.data) r

/-- `New` on a disk that takes everything, as the events below. -/
def newRecorder (cols rows startUnix : ℤ) (key : List UInt8) (nonce : Bytes 12) :
    Except RecordError Recorder :=
  newRecorderTaken A sha256 J cols rows startUnix key nonce none

def Recorder.event (e : Recorded) (r : Recorder) : Recorder := r.eventTaken A J (e, none)

def Recorder.events (evs : List Recorded) (r : Recorder) : Recorder :=
  evs.foldl (fun r e => r.event A J e) r

def Recorder.close (now : Instant) (r : Recorder) : RecResult × Recorder :=
  if r.closed then (⟨r.bytes, 0, ""⟩, r)
  else
    (⟨r.bytes, (now - r.start).tdiv 1000000, hexEncode (sha256 r.hasher).1⟩,
      { r with closed := true })

end

/-! ## What has been written -/

/-- A nonce and a line, with its newline. -/
abbrev Framed := Bytes 12 × List UInt8

def framedEvent (J : Json) (start : Instant) (e : Recorded) : Framed :=
  (e.nonce, J.event (e.now - start) e.event.kind e.event.data ++ [0x0A])

/-- The lines of a recording: the header, and the events. -/
def recordedLines (J : Json) (cols rows startUnix : ℤ) (nonce : Bytes 12) (evs : List Recorded) :
    List Framed :=
  (nonce, J.header cols rows startUnix ++ [0x0A]) ::
    evs.map (framedEvent J (startUnix * 1000000000))

def recordedWrites (J : Json) (cols rows startUnix : ℤ) (nonce : Bytes 12) (n : Option ℕ)
    (evs : List (Recorded × Option ℕ)) : List (Framed × Option ℕ) :=
  ((nonce, J.header cols rows startUnix ++ [0x0A]), n) ::
    evs.map fun e => (framedEvent J (startUnix * 1000000000) e.1, e.2)

def whole (l : List Framed) : List (Framed × Option ℕ) := l.map (·, none)

def linesOf (l : List Framed) : List UInt8 := l.flatMap Prod.snd

variable {r : Recorder} {start : Instant} {l : List Framed}

section

variable (A : Aead (Bytes 32) (Bytes 12)) (gcm : Bytes 32)

def sealFrames (l : List Framed) : List UInt8 := l.flatMap fun f => sealFrame A gcm f.1 f.2

/-- Of the frames that stand in a file from `off` on, the lines of those that end
within its first `n` bytes. -/
def linesWithin (n : ℕ) : (off : ℕ) → List Framed → List UInt8
  | _, [] => []
  | off, f :: l =>
    let ends := off + (sealFrame A gcm f.1 f.2).length
    (if ends ≤ n then f.2 else []) ++ linesWithin n ends l

/-- What is written for a line: its frame, or without a key the line. -/
def written : Option (Bytes 32) → Framed → List UInt8
  | some gcm, f => sealFrame A gcm f.1 f.2
  | none, f => f.2

def takenOf (gcm : Option (Bytes 32)) (l : List (Framed × Option ℕ)) : List UInt8 :=
  l.flatMap fun x => taken x.2 (written A gcm x.1)

def markOf (gcm : Option (Bytes 32)) : List UInt8 := if gcm.isSome then recMagic else []

def keyOf (sha256 : List UInt8 → Bytes 32) (key : List UInt8) : Option (Bytes 32) :=
  if key = [] then none else some (sha256 key)

/-- The recorder has made these writes under this key, and no others. -/
structure Recorder.Took (gcm : Option (Bytes 32)) (start : Instant) (l : List (Framed × Option ℕ))
    (r : Recorder) : Prop where
  start : r.start = start
  opened : r.closed = false
  key : r.gcm = gcm
  file : r.file = markOf gcm ++ takenOf A gcm l
  hasher : r.hasher = linesOf (l.map Prod.fst)
  bytes : r.bytes = r.file.length

variable {A gcm}

@[simp] theorem takenOf_whole (l : List Framed) :
    takenOf A (some gcm) (whole l) = sealFrames A gcm l :=
  List.flatMap_map ..

@[simp] theorem takenOf_whole_none (l : List Framed) : takenOf A none (whole l) = linesOf l :=
  List.flatMap_map ..

@[simp] theorem map_fst_whole (l : List Framed) : (whole l).map Prod.fst = l := by
  simp [whole, Function.comp_def]

section

variable {gcm : Option (Bytes 32)} {w : List (Framed × Option ℕ)}

theorem took_writeLineLocked (h : r.Took A gcm start w) (n : Option ℕ) (nonce : Bytes 12)
    (line : List UInt8) :
    (writeLineLocked A n nonce line r).Took A gcm start (w ++ [((nonce, line ++ [0x0A]), n)]) := by
  obtain ⟨hstart, hopened, rfl, hfile, hhasher, hbytes⟩ := h
  unfold writeLineLocked
  cases hkey : r.gcm with
  | none | some key =>
    rw [hkey] at hfile
    refine ⟨hstart, hopened, rfl, ?_, ?_, ?_⟩
    · simp [hfile, takenOf, written]
    · simp [hhasher, linesOf]
    · simp [hbytes]

theorem took_eventTaken (J : Json) (h : r.Took A gcm start w) (e : Recorded × Option ℕ) :
    (r.eventTaken A J e).Took A gcm start (w ++ [(framedEvent J start e.1, e.2)]) := by
  rw [Recorder.eventTaken, h.opened, if_neg Bool.false_ne_true, h.start]
  exact took_writeLineLocked h e.2 e.1.nonce _

theorem took_eventsTaken (J : Json) (h : r.Took A gcm start w) (evs : List (Recorded × Option ℕ)) :
    (evs.foldl (Recorder.eventTaken A J) r).Took A gcm start
      (w ++ evs.map fun e => (framedEvent J start e.1, e.2)) := by
  induction evs generalizing r w with
  | nil => simpa using h
  | cons e evs ih => simpa using ih (took_eventTaken J h e)

variable (A) in
theorem took_newRecorderTaken (sha256 : List UInt8 → Bytes 32) (J : Json)
    (cols rows startUnix : ℤ) (key : List UInt8) (nonce : Bytes 12) (n : Option ℕ) :
    ∃ r, newRecorderTaken A sha256 J cols rows startUnix key nonce n = .ok r ∧
      r.Took A (keyOf sha256 key) (startUnix * 1000000000)
        [((nonce, J.header cols rows startUnix ++ [0x0A]), n)] := by
  have hempty (gcm) : Recorder.Took A gcm (startUnix * 1000000000) []
      ⟨markOf gcm, [], startUnix * 1000000000, (markOf gcm).length, false, gcm⟩ :=
    ⟨rfl, rfl, rfl, (List.append_nil _).symm, rfl, rfl⟩
  unfold newRecorderTaken keyOf
  split_ifs with hkey
  · exact ⟨_, rfl, took_writeLineLocked (hempty none) n nonce _⟩
  · rw [recGCM, if_neg hkey]
    exact ⟨_, rfl, took_writeLineLocked (hempty (some (sha256 key))) n nonce _⟩

end

variable (A) in
theorem took_recording (sha256 : List UInt8 → Bytes 32) (J : Json) (cols rows startUnix : ℤ)
    (key : List UInt8) (nonce : Bytes 12) (evs : List Recorded) :
    ∃ r, newRecorder A sha256 J cols rows startUnix key nonce = .ok r ∧
      (r.events A J evs).Took A (keyOf sha256 key) (startUnix * 1000000000)
        (whole (recordedLines J cols rows startUnix nonce evs)) := by
  obtain ⟨r, hnew, htook⟩ :=
    took_newRecorderTaken A sha256 J cols rows startUnix key nonce none
  have hevents := took_eventsTaken J htook (evs.map (·, none))
  rw [List.foldl_map, List.map_map] at hevents
  refine ⟨r, hnew, ?_⟩
  rw [whole, recordedLines, List.map_cons, List.map_map]
  exact hevents

/-! ## Cut files -/

theorem linesWithin_of_lt {n off : ℕ} (h : n < off) (l : List Framed) :
    linesWithin A gcm n off l = [] := by
  induction l generalizing off with
  | nil => rfl
  | cons f l ih =>
    rw [linesWithin, if_neg (by omega), List.nil_append]
    exact ih (by omega)

theorem linesWithin_of_le {n off : ℕ} (h : off + (sealFrames A gcm l).length ≤ n) :
    linesWithin A gcm n off l = linesOf l := by
  induction l generalizing off with
  | nil => rfl
  | cons f l ih =>
    rw [sealFrames, List.flatMap_cons, List.length_append] at h
    have hrest : off + (sealFrame A gcm f.1 f.2).length + (sealFrames A gcm l).length ≤ n := by
      rw [sealFrames]
      omega
    rw [linesWithin, if_pos (by omega), ih hrest, linesOf, linesOf, List.flatMap_cons]

theorem readFrames_take (hfit : ∀ f ∈ l, A.sealedLen f.2.length < 2 ^ 32) {n off : ℕ}
    (hoff : off ≤ n) :
    readFrames A gcm ((sealFrames A gcm l).take (n - off)) = .ok (linesWithin A gcm n off l) := by
  induction l generalizing off with
  | nil => rw [sealFrames, List.flatMap_nil, List.take_nil, readFrames_short (by decide),
      linesWithin]
  | cons f l ih =>
    obtain ⟨hf, hl⟩ := List.forall_mem_cons.mp hfit
    rw [sealFrames, List.flatMap_cons, ← sealFrames, linesWithin]
    split_ifs with hends
    · have hsub : n - off = (sealFrame A gcm f.1 f.2).length +
          (n - (off + (sealFrame A gcm f.1 f.2).length)) := by omega
      rw [hsub, List.take_length_add_append, readFrames_sealFrame _ _ _ hf, ih hl hends]
      rfl
    · rw [List.take_append_of_le_length (by omega), readFrames_cut _ _ hf (by omega),
        linesWithin_of_lt (by omega), List.append_nil]

theorem readFrames_of_long {f : Framed} (hf : f ∈ l) (hlong : 2 ^ 32 ≤ A.sealedLen f.2.length)
    (rest : List UInt8) :
    readFrames A gcm (sealFrames A gcm l ++ rest) = .error .authentication := by
  induction l with
  | nil => cases hf
  | cons g l ih =>
    rw [sealFrames, List.flatMap_cons, ← sealFrames, List.append_assoc]
    rcases Nat.lt_or_ge (A.sealedLen g.2.length) (2 ^ 32) with hg | hg
    · have hmem : f ∈ l := by
        rcases List.mem_cons.mp hf with rfl | hmem
        · omega
        · exact hmem
      rw [readFrames_sealFrame _ _ _ hg, ih hmem]
      rfl
    · exact readFrames_long _ _ _ hg

end

/-! ## Recordings round-trip -/

section

variable (A : Aead (Bytes 32) (Bytes 12)) (sha256 : List UInt8 → Bytes 32)

variable {key : List UInt8}

theorem readFile_marked (hkey : key ≠ []) (body : List UInt8) :
    readFile A sha256 key (recMagic ++ body) = readFrames A (sha256 key) body := by
  rw [readFile, isEncrypted_marked, recGCM, if_neg hkey, List.drop_left]
  rfl

theorem readFile_sealFrames (hkey : key ≠ []) {l : List Framed}
    (hfit : ∀ f ∈ l, A.sealedLen f.2.length < 2 ^ 32) :
    readFile A sha256 key (recMagic ++ sealFrames A (sha256 key) l) = .ok (linesOf l) := by
  have hread : readFrames A (sha256 key) _ = _ :=
    readFrames_take hfit (Nat.zero_le (sealFrames A (sha256 key) l).length)
  rwa [Nat.sub_zero, List.take_length, linesWithin_of_le (Nat.zero_add _).le,
    ← readFile_marked A sha256 hkey] at hread

/-- A recording of these lines is read back as far as it goes, by both readers,
and described by what `Close` returns. -/
structure RoundTrips (key : List UInt8) (l : List Framed) (file : List UInt8) (result : RecResult) :
    Prop where
  cut : ∀ n ≥ 4, readFile A sha256 key (file.take n) = .ok (linesWithin A (sha256 key) n 4 l)
  streamed : ∀ n ≥ 4, ∀ sizes, OpenReadsTo A sha256 key (file.take n) sizes
    (linesWithin A (sha256 key) n 4 l)
  whole : readFile A sha256 key file = .ok (linesOf l)
  sha256 : result.sha256 = hexEncode (sha256 (linesOf l)).1
  sizeBytes : result.sizeBytes = file.length

variable {A sha256}

theorem file_of_took (hkey : key ≠ []) (h : r.Took A (keyOf sha256 key) start (whole l)) :
    r.file = recMagic ++ sealFrames A (sha256 key) l := by
  have hfile := h.file
  rwa [keyOf, if_neg hkey, takenOf_whole] at hfile

theorem roundTrips_of_fit (hkey : key ≠ []) {now : Instant}
    (h : r.Took A (keyOf sha256 key) start (whole l))
    (hfit : ∀ f ∈ l, A.sealedLen f.2.length < 2 ^ 32) :
    RoundTrips A sha256 key l r.file (r.close sha256 now).1 := by
  have hfile := file_of_took hkey h
  have hcut : ∀ n ≥ 4,
      readFile A sha256 key (r.file.take n) = .ok (linesWithin A (sha256 key) n 4 l) := by
    intro n hn
    have hsub : n = recMagic.length + (n - 4) := by
      show n = 4 + (n - 4)
      omega
    rw [hfile, hsub, List.take_length_add_append, readFile_marked _ _ hkey, ← hsub]
    exact readFrames_take hfit hn
  have hwhole : readFile A sha256 key r.file = .ok (linesOf l) := by
    rw [hfile]
    exact readFile_sealFrames _ _ hkey hfit
  refine ⟨hcut, fun n hn sizes => (openReadsTo_iff sha256 key _ sizes _).mpr (hcut n hn),
    hwhole, ?_, ?_⟩
  · simp [Recorder.close, h.opened, h.hasher]
  · simp [Recorder.close, h.opened, h.bytes]

theorem readFile_of_long (hkey : key ≠ []) (h : r.Took A (keyOf sha256 key) start (whole l))
    {f : Framed} (hf : f ∈ l) (hlong : 2 ^ 32 ≤ A.sealedLen f.2.length) :
    readFile A sha256 key r.file = .error .authentication := by
  rw [file_of_took hkey h, readFile_marked _ _ hkey, ← List.append_nil (sealFrames _ _ l)]
  exact readFrames_of_long hf hlong []

/-- The most that the relay records at a time: `conn.SetReadLimit(1 << 20)` bounds what is
typed, and its buffer for the output has 4096 bytes. -/
def relayLimit : ℕ := 2 ^ 20

/-- `json.Marshal` writes at most six bytes for one, and little around them. -/
structure Json.Bounded (J : Json) (cols rows startUnix : ℤ) : Prop where
  header : (J.header cols rows startUnix).length ≤ 1024
  event : ∀ elapsed kind data, (J.event elapsed kind data).length ≤ 6 * data.length + 64

theorem length_le_of_relayed {J : Json} {cols rows startUnix : ℤ} {nonce : Bytes 12}
    {evs : List Recorded} (hJ : J.Bounded cols rows startUnix)
    (hrelay : ∀ e ∈ evs, e.event.data.length ≤ relayLimit) {f : Framed}
    (hf : f ∈ recordedLines J cols rows startUnix nonce evs) : f.2.length ≤ 2 ^ 23 := by
  rw [recordedLines, List.mem_cons, List.mem_map] at hf
  rcases hf with rfl | ⟨e, he, rfl⟩
  · have hheader := hJ.header
    rw [List.length_append, List.length_singleton]
    omega
  · have hevent := hJ.event (e.now - startUnix * 1000000000) e.event.kind e.event.data
    have hdata : e.event.data.length ≤ 2 ^ 20 := hrelay e he
    rw [framedEvent, List.length_append, List.length_singleton]
    omega

variable (A sha256)

/-- What `json.Marshal` returns for text that needs no escape, at the time the
recording starts. -/
def plainJson : Json where
  header _ _ _ := [0x7B, 0x7D]
  event _ _ data := [0x5B, 0x30, 0x2C, 0x22, 0x6F, 0x22, 0x2C, 0x22] ++ data ++ [0x22, 0x5D]

def sampleSha256 (_ : List UInt8) : Bytes 32 := ⟨List.replicate 32 7, rfl⟩

def sampleNonce : Bytes 12 := ⟨List.replicate 12 0, rfl⟩

theorem plainJson_bounded : plainJson.Bounded 80 24 0 where
  header := by decide
  event _ _ data := by
    simp only [plainJson, List.length_append, List.length_cons, List.length_nil]
    omega

end

end Moorgate.Recorder
