import Moorgate.Recorder.Asciicast

/-!
# A write that fails: `recorder/asciicast.go`, `recorder/crypto.go`

`writeLineLocked` ignores the error of a write, so after a short one the next frame stands behind a
piece of one. `ReadFile` takes the length of the piece, or whatever stands where a length should,
and returns the error alone when the frame that this gives does not open. The lines before the
short write are returned exactly if what stands behind them still reads as a recording
(`WellFramed`).
-/

set_option linter.dupNamespace false

namespace Moorgate.Recorder

open Framework

section

variable (A : Aead (Bytes 32) (Bytes 12)) (gcm : Bytes 32)

/-- Bytes in the format of a recording: whole frames, and then the end, less than a length and a
nonce or less than the length there asks for. -/
inductive WellFramed : List UInt8 → Prop where
  | ends {body : List UInt8} : body.length < 4 + recNonceLen → WellFramed body
  | cut {len : Bytes 4} {nonce : Bytes 12} {rest : List UInt8} :
      rest.length < uint32 len → WellFramed (len.1 ++ (nonce.1 ++ rest))
  | frame {len : Bytes 4} {nonce : Bytes 12} {line rest : List UInt8} :
      uint32 len = (A.encrypt gcm nonce line).length → WellFramed rest →
        WellFramed (len.1 ++ (nonce.1 ++ (A.encrypt gcm nonce line ++ rest)))

variable {A gcm} {body : List UInt8}

theorem WellFramed.exists_readFrames (h : WellFramed A gcm body) :
    ∃ out, readFrames A gcm body = .ok out := by
  induction h with
  | ends hshort => exact ⟨[], readFrames_short hshort⟩
  | cut hcut => exact ⟨[], by rw [readFrames_framed, if_pos hcut]⟩
  | @frame len nonce line rest hlen _ ih =>
    obtain ⟨out, hout⟩ := ih
    refine ⟨line ++ out, ?_⟩
    rw [readFrames_framed, hlen, List.length_append, if_neg (by omega), List.take_left,
      List.drop_left, A.decrypt_encrypt, hout]
    rfl

theorem wellFramed_of_readFrames {out : List UInt8} (h : readFrames A gcm body = .ok out) :
    WellFramed A gcm body := by
  induction hn : body.length using Nat.strong_induction_on generalizing body out with
  | _ n ih =>
    rcases short_or_framed body with hshort | ⟨len, nonce, rest, rfl⟩
    · exact .ends hshort
    rw [readFrames_framed] at h
    split at h
    · next hcut => exact .cut hcut
    next hcut =>
    split at h
    · cases h
    next line hopen =>
    -- only a sealed text opens, so the rest is one and what `ReadFile` goes on with
    have hsealed := A.encrypt_of_decrypt hopen
    have hlen := congrArg List.length hsealed
    rw [List.length_take, Nat.min_eq_left (Nat.le_of_not_lt hcut)] at hlen
    rw [← List.take_append_drop (uint32 len) rest, hsealed]
    cases hrest : readFrames A gcm (rest.drop (uint32 len)) with
    | error err =>
      rw [hrest] at h
      cases h
    | ok out' =>
      refine .frame hlen (ih _ ?_ hrest rfl)
      rw [← hn, List.length_append, List.length_append, List.length_drop, len.2]
      omega

theorem readFrames_sealFrames {l : List Framed} (hfit : ∀ f ∈ l, A.sealedLen f.2.length < 2 ^ 32)
    (rest : List UInt8) :
    readFrames A gcm (sealFrames A gcm l ++ rest) = (readFrames A gcm rest).map
      (linesOf l ++ ·) := by
  induction l with
  | nil =>
    show readFrames A gcm rest = _
    cases readFrames A gcm rest <;> rfl
  | cons f l ih =>
    obtain ⟨hf, hl⟩ := List.forall_mem_cons.mp hfit
    rw [sealFrames, List.flatMap_cons, ← sealFrames, List.append_assoc,
      readFrames_sealFrame _ _ _ hf, ih hl]
    cases readFrames A gcm rest with
    | error err => rfl
    | ok out =>
      show Except.ok (f.2 ++ (linesOf l ++ out)) = Except.ok (linesOf (f :: l) ++ out)
      rw [linesOf, linesOf, List.flatMap_cons, List.append_assoc]

/-- The lines before come back exactly if they fit and what follows is in the format. -/
theorem readFrames_spares_iff {l : List Framed} {rest : List UInt8} :
    (∃ p, readFrames A gcm (sealFrames A gcm l ++ rest) = .ok (linesOf l ++ p)) ↔
      (∀ f ∈ l, A.sealedLen f.2.length < 2 ^ 32) ∧ WellFramed A gcm rest := by
  constructor
  · rintro ⟨p, hp⟩
    have hfit : ∀ f ∈ l, A.sealedLen f.2.length < 2 ^ 32 := by
      intro f hf
      by_contra hlong
      cases (readFrames_of_long hf (Nat.le_of_not_lt hlong) rest).symm.trans hp
    rw [readFrames_sealFrames hfit] at hp
    cases hread : readFrames A gcm rest with
    | error err =>
      rw [hread] at hp
      cases hp
    | ok out => exact ⟨hfit, wellFramed_of_readFrames hread⟩
  · rintro ⟨hfit, hframed⟩
    obtain ⟨out, hread⟩ := hframed.exists_readFrames
    exact ⟨out, by rw [readFrames_sealFrames hfit, hread]; rfl⟩

end

/-- **A failed write spares the lines before it** exactly if each of them fits its frame and what
is left of the frame that was cut reads, with the frames behind it, as a recording. -/
theorem short_write_spares_iff (A : Aead (Bytes 32) (Bytes 12)) (sha256 : List UInt8 → Bytes 32)
    (J : Json) (cols rows startUnix : ℤ) (key : List UInt8) (nonce : Bytes 12) (n : Option ℕ)
    (evs : List (Recorded × Option ℕ)) (l₁ : List Framed) (f : Framed) (l₂ : List Framed) (j : ℕ)
    (hkey : key ≠ [])
    (hone : recordedWrites J cols rows startUnix nonce n evs =
      whole l₁ ++ (f, some j) :: whole l₂) :
    ∃ r, newRecorderTaken A sha256 J cols rows startUnix key nonce n = .ok r ∧
      ((∃ p, readFile A sha256 key (evs.foldl (Recorder.eventTaken A J) r).file =
          .ok (linesOf l₁ ++ p)) ↔
        (∀ g ∈ l₁, A.sealedLen g.2.length < 2 ^ 32) ∧
          WellFramed A (sha256 key)
            ((sealFrame A (sha256 key) f.1 f.2).take j ++ sealFrames A (sha256 key) l₂)) := by
  obtain ⟨r, hnew, hheader⟩ := took_newRecorderTaken A sha256 J cols rows startUnix key nonce n
  have hfile := (took_eventsTaken J hheader evs).file
  rw [List.singleton_append, ← recordedWrites, hone, keyOf, if_neg hkey, takenOf,
    List.flatMap_append, List.flatMap_cons, ← takenOf, ← takenOf, takenOf_whole,
    takenOf_whole] at hfile
  refine ⟨r, hnew, ?_⟩
  rw [hfile]
  show (∃ p, readFile A sha256 key (recMagic ++ _) = _) ↔ _
  rw [readFile_marked A sha256 hkey]
  exact readFrames_spares_iff

def outputOf (data : List UInt8) : Recorded := ⟨.output data, 0, sampleNonce⟩

/-- The last write is short: the header is returned. -/
theorem short_write_spares_header :
    ∃ r, newRecorderTaken freeAead sampleSha256 plainJson 80 24 0 [1] sampleNonce none = .ok r ∧
      ∃ p, readFile freeAead sampleSha256 [1]
        ([(outputOf [0x61], some 20)].foldl (Recorder.eventTaken freeAead plainJson) r).file =
          .ok ([0x7B, 0x7D, 0x0A] ++ p) := by
  obtain ⟨r, hnew, hiff⟩ := short_write_spares_iff freeAead sampleSha256 plainJson 80 24 0 [1]
    sampleNonce none [(outputOf [0x61], some 20)] [(sampleNonce, [0x7B, 0x7D, 0x0A])]
    (framedEvent plainJson 0 (outputOf [0x61])) [] 20 (by decide) rfl
  refine ⟨r, hnew, hiff.mpr ⟨by decide, ?_⟩⟩
  have hcut : readFrames freeAead (sampleSha256 [1]) ((sealFrame freeAead (sampleSha256 [1])
      sampleNonce (framedEvent plainJson 0 (outputOf [0x61])).2).take 20) = .ok [] :=
    readFrames_cut _ _ (by decide) (by decide +kernel)
  rw [← List.append_nil (List.take 20 _)] at hcut
  exact wellFramed_of_readFrames hcut

/-- Of the second frame only the length and the nonce are written, then a third frame: nothing is
returned, not even the header. -/
theorem short_write_loses_header :
    ∃ r, newRecorderTaken freeAead sampleSha256 plainJson 80 24 0 [1] sampleNonce none = .ok r ∧
      readFile freeAead sampleSha256 [1]
        ([(outputOf [0x61], some 16), (outputOf [0x61, 0x62], none)].foldl
          (Recorder.eventTaken freeAead plainJson) r).file = .error .authentication := by
  have hkey : ([1] : List UInt8) ≠ [] := by decide
  obtain ⟨r, hnew, hheader⟩ :=
    took_newRecorderTaken freeAead sampleSha256 plainJson 80 24 0 [1] sampleNonce none
  refine ⟨r, hnew, ?_⟩
  rw [(took_eventsTaken plainJson hheader _).file]
  -- the header, then the length and the nonce of the second frame, and the third
  let len := putUint32 (freeAead.encrypt (sampleSha256 [1]) sampleNonce
    (framedEvent plainJson 0 (outputOf [0x61])).2).length
  let third := sealFrame freeAead (sampleSha256 [1]) sampleNonce
    (framedEvent plainJson 0 (outputOf [0x61, 0x62])).2
  have hpiece : ¬ third.length < uint32 len ∧
      freeAead.decrypt (sampleSha256 [1]) sampleNonce (third.take (uint32 len)) = none := by
    decide +kernel
  show readFile freeAead sampleSha256 [1] (recMagic ++
    (sealFrames freeAead (sampleSha256 [1]) [(sampleNonce, [0x7B, 0x7D, 0x0A])] ++
      (len.1 ++ (sampleNonce.1 ++ third)))) = _
  rw [readFile_marked _ _ hkey, readFrames_sealFrames (by decide), readFrames_framed,
    if_neg hpiece.1, hpiece.2]
  rfl

end Moorgate.Recorder
