import Moorgate.Framework.Base.Aead
import Moorgate.Framework.Base.Reader

/-!
# Recordings at rest: `recorder/crypto.go`

An encrypted recording is a mark and a sequence of frames: the length of the ciphertext in four
bytes, a nonce, the ciphertext. `readFile` slices the whole file; `openFile` returns a reader that
takes a frame at a time. A last frame that is cut short ends both, a frame that does not open fails
both, and the two agree on every file (`openReadsTo_iff`). A frame whose ciphertext is too long for
four bytes does not open (`readFrames_long`).
-/

namespace Moorgate.Recorder

open Framework

def recMagic : List UInt8 := [0xF1, 0x33, 0x7C, 0x01]

def recNonceLen : ℕ := 12

inductive RecordError where
  | emptyKey -- "recorder: empty encryption key"
  | authentication -- of `gcm.Open`
deriving DecidableEq

inductive FullError where
  | eof | unexpectedEOF

/-- The two errors of `next`: `io.EOF`, and those that `Read` passes on. -/
inductive NextError where
  | eof
  | failed (err : RecordError)

def isEncrypted (head : List UInt8) : Bool := recMagic.isPrefixOf head

section

variable (A : Aead (Bytes 32) (Bytes 12)) (sha256 : List UInt8 → Bytes 32)

def recGCM (key : List UInt8) : Except RecordError (Bytes 32) :=
  if key = [] then .error .emptyKey else .ok (sha256 key)

def sealFrame (gcm : Bytes 32) (nonce : Bytes 12) (plaintext : List UInt8) : List UInt8 :=
  let ct := A.encrypt gcm nonce plaintext
  (putUint32 ct.length).1 ++ nonce.1 ++ ct

variable {body : List UInt8}

theorem length_take_four (hlen : 4 + recNonceLen ≤ body.length) : (body.take 4).length = 4 := by
  rw [List.length_take]
  omega

theorem length_take_nonce (hlen : 4 + recNonceLen ≤ body.length) :
    ((body.drop 4).take recNonceLen).length = 12 := by
  have hbody : 16 ≤ body.length := hlen
  rw [List.length_take, List.length_drop]
  exact min_eq_left (by simp only [recNonceLen]; omega)

theorem length_drop_frame_lt (hlen : 4 + recNonceLen ≤ body.length) (n : ℕ) :
    (body.drop (4 + recNonceLen + n)).length < body.length := by
  rw [List.length_drop]
  omega

def readFrames (gcm : Bytes 32) (body : List UInt8) : Except RecordError (List UInt8) :=
  if hlen : 4 + recNonceLen ≤ body.length then
    let n := uint32 ⟨body.take 4, length_take_four hlen⟩
    if body.length < 4 + recNonceLen + n then .ok []
    else
      match A.decrypt gcm ⟨(body.drop 4).take recNonceLen, length_take_nonce hlen⟩
          ((body.drop (4 + recNonceLen)).take n) with
      | none => .error .authentication
      | some pt => (readFrames gcm (body.drop (4 + recNonceLen + n))).map (pt ++ ·)
  else .ok []
termination_by body.length
decreasing_by exact length_drop_frame_lt hlen _

def readFile (key raw : List UInt8) : Except RecordError (List UInt8) :=
  if isEncrypted raw = false then .ok raw
  else
    match recGCM sha256 key with
    | .error err => .error err
    | .ok gcm => readFrames A gcm (raw.drop recMagic.length)

/-! ## The streaming reader -/

/-- `io.ReadFull`: exactly `n` bytes, and what is left of the source. -/
def readFull (n : ℕ) (src : List UInt8) : Except FullError (Bytes n × List UInt8) :=
  match splitBytes n src with
  | some x => .ok x
  | none => if src = [] then .error .eof else .error .unexpectedEOF

/-- `br` is what the buffered file reader still has. -/
structure FrameReader where
  br : List UInt8
  gcm : Bytes 32
  buf : List UInt8
  eof : Bool

def FrameReader.next (r : FrameReader) : Except NextError FrameReader :=
  match readFull 4 r.br with
  | .error .unexpectedEOF | .error .eof => .error .eof
  | .ok (lenBuf, br) =>
    match readFull (recNonceLen + uint32 lenBuf) br with
    | .error .unexpectedEOF | .error .eof => .error .eof
    | .ok (frame, br) =>
      match A.decrypt r.gcm ⟨frame.1.take recNonceLen, by
          rw [List.length_take, frame.2]; simp only [recNonceLen]; omega⟩
          (frame.1.drop recNonceLen) with
      | none => .error (.failed .authentication)
      | some pt => .ok { r with br, buf := r.buf ++ pt }

theorem readFull_eq_ok {n : ℕ} {src rest : List UInt8} {x : Bytes n}
    (h : readFull n src = .ok (x, rest)) : src = x.1 ++ rest := by
  unfold readFull at h
  split at h
  · rename_i y hsplit
    cases h
    exact splitBytes_eq_some hsplit
  · split at h <;> cases h

variable {A} in
theorem FrameReader.next_br_lt {r r' : FrameReader} (h : r.next A = .ok r') :
    r'.br.length < r.br.length := by
  revert h
  fun_cases next A r with
  | case6 lenBuf br hlen frame br' hframe =>
    rintro ⟨⟩
    rw [readFull_eq_ok hlen, readFull_eq_ok hframe, List.length_append, List.length_append,
      lenBuf.2]
    show br'.length < _
    omega
  | _ => rintro ⟨⟩

def FrameReader.fill (r : FrameReader) : Except RecordError FrameReader :=
  if r.buf = [] ∧ r.eof = false then
    match _hnext : r.next A with
    | .ok r' => FrameReader.fill r'
    | .error .eof => .ok { r with eof := true }
    | .error (.failed err) => .error err
  else .ok r
termination_by r.br.length
decreasing_by exact FrameReader.next_br_lt _hnext

def FrameReader.read (n : ℕ) (r : FrameReader) : ReadResult FrameReader RecordError UInt8 :=
  match r.fill A with
  | .error err => .failed err
  | .ok r =>
    if r.buf = [] then .eof
    else .piece (r.buf.take n) { r with buf := r.buf.drop n }

/-- What `Open` returns: the file itself, or a reader of frames over it. -/
inductive Recording where
  | plain (rest : List UInt8)
  | frames (r : FrameReader)

def Recording.read (n : ℕ) : Recording → ReadResult Recording RecordError UInt8
  | .plain rest => if rest = [] then .eof else .piece (rest.take n) (.plain (rest.drop n))
  | .frames r =>
    match r.read A n with
    | .piece p r' => .piece p (.frames r')
    | .eof => .eof
    | .failed err => .failed err

def readHead (f : List UInt8) (n : ℕ) : List UInt8 := f.take n

def openFile (key f : List UInt8) : Except RecordError Recording :=
  if isEncrypted (readHead f recMagic.length) = false then .ok (.plain f)
  else
    match recGCM sha256 key with
    | .error err => .error err
    | .ok gcm => .ok (.frames ⟨f.drop recMagic.length, gcm, [], false⟩)

end

/-! ## One frame -/

section

variable {A : Aead (Bytes 32) (Bytes 12)} {gcm : Bytes 32}

theorem short_or_framed (body : List UInt8) : body.length < 4 + recNonceLen ∨
      ∃ (len : Bytes 4) (nonce : Bytes 12) (rest : List UInt8),
        body = len.1 ++ (nonce.1 ++ rest) := by
  rcases Nat.lt_or_ge body.length (4 + recNonceLen) with h | h
  · exact .inl h
  simp only [recNonceLen] at h
  refine .inr ⟨⟨body.take 4, by rw [List.length_take]; omega⟩,
    ⟨(body.drop 4).take 12, by rw [List.length_take, List.length_drop]; omega⟩,
    (body.drop 4).drop 12, ?_⟩
  rw [List.take_append_drop, List.take_append_drop]

theorem readFrames_short {body : List UInt8} (h : body.length < 4 + recNonceLen) :
    readFrames A gcm body = .ok [] := by
  rw [readFrames, dif_neg (by omega)]

theorem readFrames_framed (len : Bytes 4) (nonce : Bytes 12) (rest : List UInt8) :
    readFrames A gcm (len.1 ++ (nonce.1 ++ rest)) =
      if rest.length < uint32 len then .ok [] else
        match A.decrypt gcm nonce (rest.take (uint32 len)) with
        | none => .error .authentication
        | some pt => (readFrames A gcm (rest.drop (uint32 len))).map (pt ++ ·) := by
  have hlen : (len.1 ++ (nonce.1 ++ rest)).length = 16 + rest.length := by
    rw [List.length_append, List.length_append, len.2, nonce.2]
    omega
  have hhead : (len.1 ++ (nonce.1 ++ rest)).take 4 = len.1 := List.take_left' len.2
  have hnonce : ((len.1 ++ (nonce.1 ++ rest)).drop 4).take recNonceLen = nonce.1 := by
    rw [List.drop_left' len.2]
    exact List.take_left' nonce.2
  have hrest : (len.1 ++ (nonce.1 ++ rest)).drop (4 + recNonceLen) = rest := by
    rw [← List.drop_drop, List.drop_left' len.2]
    exact List.drop_left' nonce.2
  have hdrop (n : ℕ) : (len.1 ++ (nonce.1 ++ rest)).drop (4 + recNonceLen + n) = rest.drop n := by
    rw [← List.drop_drop, hrest]
  rw [readFrames, dif_pos (by rw [hlen]; simp only [recNonceLen]; omega)]
  simp only [hhead, hnonce, hrest, hdrop, hlen, Subtype.coe_eta]
  have hcond : 16 + rest.length < 4 + recNonceLen + uint32 len ↔ rest.length < uint32 len := by
    simp only [recNonceLen]
    omega
  simp only [hcond]

variable (nonce : Bytes 12)

theorem readFrames_sealFrame (line rest : List UInt8) (h : A.sealedLen line.length < 2 ^ 32) :
    readFrames A gcm (sealFrame A gcm nonce line ++ rest) = (readFrames A gcm rest).map
      (line ++ ·) := by
  have hn : uint32 (putUint32 (A.encrypt gcm nonce line).length) =
      (A.encrypt gcm nonce line).length := by
    rw [uint32_putUint32, A.length_encrypt, Nat.mod_eq_of_lt h]
  rw [sealFrame, List.append_assoc, List.append_assoc, readFrames_framed, hn, List.length_append,
    if_neg (by omega), List.take_left, List.drop_left, A.decrypt_encrypt]

theorem readFrames_cut (line : List UInt8) (h : A.sealedLen line.length < 2 ^ 32)
    {j : ℕ} (hj : j < (sealFrame A gcm nonce line).length) :
    readFrames A gcm ((sealFrame A gcm nonce line).take j) = .ok [] := by
  set ct := A.encrypt gcm nonce line with hct
  have hn : uint32 (putUint32 ct.length) = ct.length := by
    rw [uint32_putUint32, hct, A.length_encrypt, Nat.mod_eq_of_lt h]
  have hframe : sealFrame A gcm nonce line = (putUint32 ct.length).1 ++ (nonce.1 ++ ct) := by
    rw [sealFrame, List.append_assoc]
  have hlen : (sealFrame A gcm nonce line).length = 16 + ct.length := by
    rw [hframe, List.length_append, List.length_append, nonce.2, (putUint32 _).2]
    omega
  rcases Nat.lt_or_ge j 16 with hshort | hlong
  · apply readFrames_short
    rw [List.length_take, recNonceLen]
    omega
  · obtain ⟨k, rfl⟩ := Nat.exists_eq_add_of_le hlong
    have htake : ((putUint32 ct.length).1 ++ (nonce.1 ++ ct)).take (16 + k) =
        (putUint32 ct.length).1 ++ (nonce.1 ++ ct.take k) := by
      have hhead : ((putUint32 ct.length).1 ++ nonce.1).length = 16 := by
        rw [List.length_append, nonce.2, (putUint32 _).2]
      rw [← List.append_assoc, ← hhead, List.take_length_add_append, List.append_assoc]
    rw [hframe, htake, readFrames_framed, hn, List.length_take, if_pos (by omega)]

theorem readFrames_long (line rest : List UInt8) (h : 2 ^ 32 ≤ A.sealedLen line.length) :
    readFrames A gcm (sealFrame A gcm nonce line ++ rest) = .error .authentication := by
  have hlen := A.length_encrypt gcm nonce line
  have hn : uint32 (putUint32 (A.encrypt gcm nonce line).length) <
      (A.encrypt gcm nonce line).length := by
    rw [uint32_putUint32, hlen]
    exact lt_of_lt_of_le (Nat.mod_lt _ (by decide)) h
  rw [sealFrame, List.append_assoc, List.append_assoc, readFrames_framed, List.length_append,
    if_neg (by omega), List.take_append_of_le_length hn.le, A.decrypt_take hn]

end

/-! ## The two readers -/

section

variable {A : Aead (Bytes 32) (Bytes 12)}

variable {n : ℕ}

theorem readFull_append (x : Bytes n) (rest : List UInt8) :
    readFull n (x.1 ++ rest) = .ok (x, rest) := by
  rw [readFull, splitBytes_append]

theorem readFull_short {src : List UInt8} (h : src.length < n) :
    readFull n src = .error .eof ∨ readFull n src = .error .unexpectedEOF := by
  rw [readFull, splitBytes_eq_none.mpr h]
  dsimp only
  split
  · exact .inl rfl
  · exact .inr rfl

namespace FrameReader

variable {r : FrameReader}

theorem next_short (h : r.br.length < 4 + recNonceLen) : r.next A = .error .eof := by
  unfold next
  split
  · rfl
  · rfl
  rename_i lenBuf br hlen
  have hbr : br.length < recNonceLen + uint32 lenBuf := by
    rw [readFull_eq_ok hlen, List.length_append, lenBuf.2] at h
    omega
  rcases readFull_short hbr with heof | heof <;> simp only [heof]

theorem next_framed {len : Bytes 4} {nonce : Bytes 12} {rest : List UInt8}
    (hbr : r.br = len.1 ++ (nonce.1 ++ rest)) : r.next A =
      if rest.length < uint32 len then .error .eof else
        match A.decrypt r.gcm nonce (rest.take (uint32 len)) with
        | none => .error (.failed .authentication)
        | some pt => .ok { r with br := rest.drop (uint32 len), buf := r.buf ++ pt } := by
  unfold next
  rw [hbr, readFull_append]
  dsimp only
  split_ifs with hshort
  · have hlt : (nonce.1 ++ rest).length < recNonceLen + uint32 len := by
      rw [List.length_append, nonce.2, recNonceLen]
      omega
    rcases readFull_short hlt with heof | heof <;> simp only [heof]
  · have hframe : (nonce.1 ++ rest.take (uint32 len)).length = recNonceLen + uint32 len := by
      rw [List.length_append, nonce.2, List.length_take, recNonceLen]
      omega
    have hsplit : nonce.1 ++ rest = (nonce.1 ++ rest.take (uint32 len)) ++
        rest.drop (uint32 len) := by
      rw [List.append_assoc, List.take_append_drop]
    have hnonce : (nonce.1 ++ rest.take (uint32 len)).take recNonceLen = nonce.1 :=
      List.take_left' nonce.2
    have hct : (nonce.1 ++ rest.take (uint32 len)).drop recNonceLen = rest.take (uint32 len) :=
      List.drop_left' nonce.2
    rw [hsplit, readFull_append ⟨_, hframe⟩]
    simp only [hnonce, hct, Subtype.coe_eta]

variable (A) in
def content (r : FrameReader) : Except RecordError (List UInt8) :=
  if r.eof then .ok r.buf else (readFrames A r.gcm r.br).map (r.buf ++ ·)

/-- `next` on an empty buffer agrees with the slicing reader on the frame. -/
theorem content_of_next (hbuf : r.buf = []) (heof : r.eof = false) : r.content A =
      match r.next A with
      | .ok r' => r'.content A
      | .error .eof => .ok []
      | .error (.failed err) => .error err := by
  have hcontent : r.content A = readFrames A r.gcm r.br := by
    rw [content, heof, hbuf]
    cases readFrames A r.gcm r.br <;> rfl
  rw [hcontent]
  rcases short_or_framed r.br with hshort | ⟨len, nonce, rest, hbr⟩
  · rw [next_short hshort, readFrames_short hshort]
  rw [next_framed hbr, hbr, readFrames_framed]
  split
  · rfl
  split
  · rfl
  · dsimp only [content]
    rw [heof, hbuf]
    rfl

theorem content_eq_fill (r : FrameReader) : r.content A =
      match r.fill A with
      | .ok r' => r'.content A
      | .error err => .error err := by
  induction r using FrameReader.fill.induct A with
  | case1 r hempty r' hnext ih =>
    rw [fill, if_pos hempty, content_of_next hempty.1 hempty.2, hnext]
    exact ih
  | case2 r hempty hnext =>
    rw [fill, if_pos hempty, content_of_next hempty.1 hempty.2, hnext]
    simp only [content, hempty.1, if_true]
  | case3 r hempty err hnext => rw [fill, if_pos hempty, content_of_next hempty.1 hempty.2, hnext]
  | case4 r hfull => rw [fill, if_neg hfull]

theorem fill_eq_ok {r' : FrameReader} (h : r.fill A = .ok r') :
    (r'.buf = [] → r'.eof) ∧ (r'.buf ≠ [] → r' = r ∨ r'.br.length < r.br.length) := by
  induction r using FrameReader.fill.induct A with
  | case1 r hempty r'' hnext ih =>
    rw [fill, if_pos hempty, hnext] at h
    obtain ⟨hend, hnear⟩ := ih h
    refine ⟨hend, fun hbuf => .inr ?_⟩
    rcases hnear hbuf with rfl | hlt
    · exact next_br_lt hnext
    · exact hlt.trans (next_br_lt hnext)
  | case2 r hempty hnext =>
    rw [fill, if_pos hempty, hnext] at h
    cases h
    exact ⟨fun _ => rfl, fun hbuf => absurd hempty.1 hbuf⟩
  | case3 r hempty err hnext =>
    rw [fill, if_pos hempty, hnext] at h
    cases h
  | case4 r hfull =>
    rw [fill, if_neg hfull] at h
    cases h
    refine ⟨fun hbuf => ?_, fun _ => .inl rfl⟩
    by_contra heof
    exact hfull ⟨hbuf, Bool.eq_false_iff.mpr heof⟩

theorem content_drop (r : FrameReader) (n : ℕ) :
    r.content A = (content A { r with buf := r.buf.drop n }).map (r.buf.take n ++ ·) := by
  unfold content
  split
  · exact congrArg Except.ok (List.take_append_drop n r.buf).symm
  cases readFrames A r.gcm r.br with
  | error err => rfl
  | ok p =>
    show Except.ok (r.buf ++ p) = Except.ok (r.buf.take n ++ (r.buf.drop n ++ p))
    rw [← List.append_assoc, List.take_append_drop]

variable {n : ℕ}

theorem read_eof (h : r.read A n = .eof) : r.content A = .ok [] := by
  rw [content_eq_fill]
  unfold read at h
  split at h
  · cases h
  rename_i r' hfill
  rw [hfill]
  split at h
  · next hbuf => simp only [content, (fill_eq_ok hfill).1 hbuf, hbuf, if_true]
  · cases h

theorem read_failed {err : RecordError} (h : r.read A n = .failed err) :
    r.content A = .error err := by
  rw [content_eq_fill]
  unfold read at h
  split at h
  · rename_i err' hfill
    cases h
    rw [hfill]
  · split at h <;> cases h

theorem read_piece {r' : FrameReader} {p : List UInt8} (h : r.read A n = .piece p r') :
    r.content A = (r'.content A).map (p ++ ·) ∧
      (0 < n → r'.br.length < r.br.length ∨ r'.br.length = r.br.length ∧
        r'.buf.length < r.buf.length) := by
  unfold read at h
  split at h
  · cases h
  rename_i r'' hfill
  split at h
  · cases h
  rename_i hbuf
  cases h
  refine ⟨?_, fun hn => ?_⟩
  · rw [content_eq_fill, hfill]
    exact content_drop r'' n
  · rcases (fill_eq_ok hfill).2 hbuf with rfl | hlt
    · refine .inr ⟨rfl, ?_⟩
      show (List.drop n _).length < _
      rw [List.length_drop]
      have hpos := List.length_pos_iff.mpr hbuf
      omega
    · exact .inl hlt

end FrameReader

namespace Recording

variable (A) in
def content : Recording → Except RecordError (List UInt8)
  | .plain rest => .ok rest
  | .frames r => r.content A

/-- Bytes of the file left, and then bytes of the buffer. -/
def left : Recording → ℕ ×ₗ ℕ
  | .plain rest => toLex (rest.length, 0)
  | .frames r => toLex (r.br.length, r.buf.length)

theorem serves : Serves (Recording.read A) (content A) (fun s' s => s'.left < s.left) where
  wf := InvImage.wf left wellFounded_lt
  eof {n s} h := by
    revert h
    fun_cases Recording.read A n s with
    | case1 => exact fun _ => rfl
    | case4 r hread => exact fun _ => FrameReader.read_eof hread
    | _ => rintro ⟨⟩
  failed {n s err} h := by
    revert h
    fun_cases Recording.read A n s with
    | case5 r err' hread =>
      rintro ⟨⟩
      exact FrameReader.read_failed hread
    | _ => rintro ⟨⟩
  piece {n s p s'} h := by
    revert h
    fun_cases Recording.read A n s with
    | case2 rest =>
      rintro ⟨⟩
      exact congrArg Except.ok (List.take_append_drop n rest).symm
    | case3 r p' r' hread =>
      rintro ⟨⟩
      exact (FrameReader.read_piece hread).1
    | _ => rintro ⟨⟩
  progress {n s p s'} hn h := by
    revert h
    fun_cases Recording.read A n s with
    | case2 rest hrest =>
      rintro ⟨⟩
      have hpos := List.length_pos_iff.mpr hrest
      refine Prod.Lex.toLex_lt_toLex.mpr (.inl ?_)
      show (List.drop n rest).length < rest.length
      rw [List.length_drop]
      omega
    | case3 r p' r' hread =>
      rintro ⟨⟩
      exact Prod.Lex.toLex_lt_toLex.mpr ((FrameReader.read_piece hread).2 hn)
    | _ => rintro ⟨⟩

end Recording

theorem isEncrypted_marked (body : List UInt8) : isEncrypted (recMagic ++ body) := by
  rw [isEncrypted, List.isPrefixOf_iff_prefix]
  exact List.prefix_append _ _

theorem isEncrypted_readHead (f : List UInt8) :
    isEncrypted (readHead f recMagic.length) = isEncrypted f := by
  rw [Bool.eq_iff_iff, isEncrypted, isEncrypted, List.isPrefixOf_iff_prefix,
    List.isPrefixOf_iff_prefix]
  constructor
  · exact fun h => h.trans (List.take_prefix _ _)
  · exact fun h => List.prefix_take_iff.mpr ⟨h, le_rfl⟩

/-- Reading what `Open` returns to the end, with buffers of these sizes, succeeds
with `p`. -/
def OpenReadsTo (A : Aead (Bytes 32) (Bytes 12)) (sha256 : List UInt8 → Bytes 32)
    (key f : List UInt8) (sizes : ℕ → ℕ+) (p : List UInt8) : Prop :=
  ∃ r, openFile sha256 key f = .ok r ∧ ReadsTo (Recording.read A) sizes r (.ok p)

/-- **The two readers succeed on the same files, with the same plaintext.** -/
theorem openReadsTo_iff (sha256 : List UInt8 → Bytes 32) (key f : List UInt8) (sizes : ℕ → ℕ+)
    (p : List UInt8) : OpenReadsTo A sha256 key f sizes p ↔ readFile A sha256 key f = .ok p := by
  simp only [OpenReadsTo, Recording.serves.readsTo_iff]
  unfold openFile readFile
  rw [isEncrypted_readHead]
  split
  · simp [Recording.content]
  cases hgcm : recGCM sha256 key with
  | error err => simp
  | ok gcm =>
    simp only [Except.ok.injEq, exists_eq_left', Recording.content, FrameReader.content]
    cases readFrames A gcm (f.drop recMagic.length) <;> simp [Except.map]

end

end Moorgate.Recorder
