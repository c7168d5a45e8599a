import Moorgate.Framework.Base.Aead
import Moorgate.Framework.Base.Runs

/-!
# Sealed secrets: `secretbox/secretbox.go`

A sealed secret is an envelope in one of three layouts: v2 and v3 are a mark, a salt, a nonce and
the ciphertext, the legacy layout is a nonce and the ciphertext. The mode of the process selects
the layout of new envelopes, and `openBytes` tries all three. All it can present to the cipher is a
tail of the blob, and so is the true ciphertext. Of two tails of one list one is a tail of the
other, and of an ideal cipher such a pair opens to one plaintext (`eq_of_openBytes`).
-/

namespace Moorgate.Secretbox

open Framework

inductive BoxError where
  | randomSource | kdf
  | tooShort -- "ciphertext too short"
  | authentication -- of `gcm.Open`
  | verification -- "reseal verification failed"
  | base64
deriving DecidableEq

/-- AES-256-GCM and the three ways to a key. `pbkdf2.Key` can refuse. -/
structure Crypto where
  aead : Aead (Bytes 32) (Bytes 12)
  argonKey : List UInt8 → Bytes 16 → Bytes 32
  pbkdf2Key : List UInt8 → Bytes 16 → Option (Bytes 32)
  sha256 : List UInt8 → Bytes 32

/-- What the random source yields for one envelope. -/
structure Draws where
  salt : Option (Bytes 16)
  nonce : Option (Bytes 12)

def magic : List UInt8 := [0xF1, 0x33, 0x7B, 0x02]
def magicV3 : List UInt8 := [0xF1, 0x33, 0x7B, 0x03]

def sealKey (C : Crypto) (useFIPS : Bool) (passphrase : List UInt8) (salt : Bytes 16) :
    Option (List UInt8 × Bytes 32) :=
  if useFIPS then (C.pbkdf2Key passphrase salt).map fun key => (magicV3, key)
  else some (magic, C.argonKey passphrase salt)

def sealBytes (C : Crypto) (useFIPS : Bool) (r : Draws) (passphrase plaintext : List UInt8) :
    Except BoxError (List UInt8) :=
  match r.salt with
  | none => .error .randomSource
  | some salt =>
    match sealKey C useFIPS passphrase salt with
    | none => .error .kdf
    | some (mark, key) =>
      match r.nonce with
      | none => .error .randomSource
      | some nonce => .ok (mark ++ salt.1 ++ nonce.1 ++ C.aead.encrypt key nonce plaintext)

def openTail (C : Crypto) (key : Bytes 32) (rest : List UInt8) : Except BoxError (List UInt8) :=
  match splitBytes 12 rest with
  | none => .error .tooShort
  | some (nonce, ct) =>
    match C.aead.decrypt key nonce ct with
    | none => .error .authentication
    | some pt => .ok pt

def openSalted (C : Crypto) (derive : Bytes 16 → Option (Bytes 32)) (body : List UInt8) :
    Except BoxError (List UInt8) :=
  match splitBytes 16 body with
  | none => .error .tooShort
  | some (salt, rest) =>
    match derive salt with
    | none => .error .kdf
    | some key => openTail C key rest

def openV3 (C : Crypto) (passphrase : List UInt8) : List UInt8 → Except BoxError (List UInt8) :=
  openSalted C (C.pbkdf2Key passphrase)

def openV2 (C : Crypto) (passphrase : List UInt8) : List UInt8 → Except BoxError (List UInt8) :=
  openSalted C fun salt => some (C.argonKey passphrase salt)

def openLegacy (C : Crypto) (passphrase : List UInt8) : List UInt8 → Except BoxError (List UInt8) :=
  openTail C (C.sha256 passphrase)

/-- `none` when the blob does not start with the mark or does not open. -/
def openMarked (mark : List UInt8) (openBody : List UInt8 → Except BoxError (List UInt8))
    (raw : List UInt8) : Option (List UInt8) :=
  if mark <+: raw then (openBody (raw.drop mark.length)).toOption else none

def openBytes (C : Crypto) (passphrase raw : List UInt8) : Except BoxError (List UInt8) :=
  match openMarked magicV3 (openV3 C passphrase) raw with
  | some pt => .ok pt
  | none =>
    match openMarked magic (openV2 C passphrase) raw with
    | some pt => .ok pt
    | none => openLegacy C passphrase raw

def isLegacy (raw : List UInt8) : Bool := !decide (magic <+: raw) && !decide (magicV3 <+: raw)

def needsReseal (useFIPS : Bool) (raw : List UInt8) : Bool :=
  if useFIPS then !decide (magicV3 <+: raw) else isLegacy raw

structure Resealed (β : Type) where
  out : β
  changed : Bool
  err : Option BoxError
deriving DecidableEq

def resealBytes (C : Crypto) (useFIPS : Bool) (r : Draws) (passphrase raw : List UInt8) :
    Resealed (List UInt8) :=
  if needsReseal useFIPS raw = false then ⟨raw, false, none⟩
  else
    match openBytes C passphrase raw with
    | .error err => ⟨raw, false, some err⟩
    | .ok plain =>
      match sealBytes C useFIPS r passphrase plain with
      | .error err => ⟨raw, false, some err⟩
      | .ok sealed =>
        if (openBytes C passphrase sealed).toOption = some plain then ⟨sealed, true, none⟩
        else ⟨raw, false, some .verification⟩

/-! ## Envelopes as text -/

/-- `base64.StdEncoding` -/
structure Base64 where
  encodeToString : List UInt8 → String
  decodeString : String → Option (List UInt8)
  decode_encode : ∀ raw, decodeString (encodeToString raw) = some raw

def secretboxSeal (C : Crypto) (B : Base64) (useFIPS : Bool) (r : Draws)
    (passphrase plaintext : List UInt8) : Except BoxError String :=
  match sealBytes C useFIPS r passphrase plaintext with
  | .error err => .error err
  | .ok raw => .ok (B.encodeToString raw)

def secretboxOpen (C : Crypto) (B : Base64) (passphrase : List UInt8) (encoded : String) :
    Except BoxError (List UInt8) :=
  match B.decodeString encoded with
  | none => .error .base64
  | some raw => openBytes C passphrase raw

def resealString (C : Crypto) (B : Base64) (useFIPS : Bool) (r : Draws) (passphrase : List UInt8)
    (encoded : String) : Resealed String :=
  if encoded = "" then ⟨encoded, false, none⟩
  else
    match B.decodeString encoded with
    | none => ⟨encoded, false, some .base64⟩
    | some raw =>
      let res := resealBytes C useFIPS r passphrase raw
      if res.err.isSome ∨ res.changed = false then ⟨encoded, false, res.err⟩
      else ⟨B.encodeToString res.out, true, none⟩

/-! ## What opens -/

/-- The blob is an envelope of the plaintext, in one of the layouts. -/
inductive SealedAs (C : Crypto) (passphrase plaintext : List UInt8) : List UInt8 → Prop
  | v3 (salt : Bytes 16) (nonce : Bytes 12) (key : Bytes 32)
      (hkey : C.pbkdf2Key passphrase salt = some key) :
      SealedAs C passphrase plaintext
        (magicV3 ++ salt.1 ++ nonce.1 ++ C.aead.encrypt key nonce plaintext)
  | v2 (salt : Bytes 16) (nonce : Bytes 12) :
      SealedAs C passphrase plaintext
        (magic ++ salt.1 ++ nonce.1 ++ C.aead.encrypt (C.argonKey passphrase salt) nonce plaintext)
  | legacy (nonce : Bytes 12) :
      SealedAs C passphrase plaintext
        (nonce.1 ++ C.aead.encrypt (C.sha256 passphrase) nonce plaintext)

variable {C : Crypto} {B : Base64} {useFIPS : Bool} {r : Draws}
  {passphrase plaintext raw pt : List UInt8}

theorem sealedAs_of_sealBytes (h : sealBytes C useFIPS r passphrase plaintext = .ok raw) :
    SealedAs C passphrase plaintext raw := by
  unfold sealBytes at h
  split at h
  · cases h
  rename_i salt _
  split at h
  · cases h
  rename_i mark key hkey
  split at h
  · cases h
  rename_i nonce _
  cases h
  cases useFIPS with
  | true =>
    obtain ⟨key', hkey', ⟨⟩⟩ := Option.map_eq_some_iff.mp hkey
    exact .v3 salt nonce key hkey'
  | false =>
    cases hkey
    exact .v2 salt nonce

theorem needsReseal_sealBytes (h : sealBytes C useFIPS r passphrase plaintext = .ok raw) :
    needsReseal useFIPS raw = false := by
  unfold sealBytes at h
  split at h
  · cases h
  split at h
  · cases h
  rename_i mark key hkey
  split at h
  · cases h
  cases h
  cases useFIPS with
  | true =>
    obtain ⟨key', -, ⟨⟩⟩ := Option.map_eq_some_iff.mp hkey
    simp [needsReseal]
  | false =>
    cases hkey
    simp [needsReseal, isLegacy]

theorem suffix_of_openTail {key : Bytes 32} {rest : List UInt8} (h : openTail C key rest = .ok pt) :
    ∃ k n c, c <:+ rest ∧ C.aead.decrypt k n c = some pt := by
  unfold openTail at h
  split at h
  · cases h
  rename_i nonce ct hsplit
  split at h
  · cases h
  · rename_i hdec
    cases h
    exact ⟨key, nonce, ct, ⟨nonce.1, (splitBytes_eq_some hsplit).symm⟩, hdec⟩

variable {derive : Bytes 16 → Option (Bytes 32)}

theorem suffix_of_openSalted {body : List UInt8} (h : openSalted C derive body = .ok pt) :
    ∃ k n c, c <:+ body ∧ C.aead.decrypt k n c = some pt := by
  unfold openSalted at h
  split at h
  · cases h
  rename_i salt rest hsplit
  split at h
  · cases h
  · obtain ⟨k, n, c, hc, hdec⟩ := suffix_of_openTail h
    exact ⟨k, n, c, hc.trans ⟨salt.1, (splitBytes_eq_some hsplit).symm⟩, hdec⟩

theorem openMarked_eq_some {mark : List UInt8}
    {openBody : List UInt8 → Except BoxError (List UInt8)}
    (h : openMarked mark openBody raw = some pt) : openBody (raw.drop mark.length) = .ok pt := by
  unfold openMarked at h
  split at h
  · cases hbody : openBody (raw.drop mark.length) with
    | error err =>
      rw [hbody] at h
      cases h
    | ok q =>
      rw [hbody] at h
      cases h
      rfl
  · cases h

/-- Whatever `openBytes` returns, a tail of the blob has opened to it. -/
theorem suffix_of_openBytes (h : openBytes C passphrase raw = .ok pt) :
    ∃ k n c, c <:+ raw ∧ C.aead.decrypt k n c = some pt := by
  have hmarked {mark : List UInt8} {derive : Bytes 16 → Option (Bytes 32)} {q : List UInt8}
      (hq : openMarked mark (openSalted C derive) raw = some q) :
      ∃ k n c, c <:+ raw ∧ C.aead.decrypt k n c = some q := by
    obtain ⟨k, n, c, hc, hdec⟩ := suffix_of_openSalted (openMarked_eq_some hq)
    exact ⟨k, n, c, hc.trans (List.drop_suffix _ _), hdec⟩
  unfold openBytes at h
  split at h
  · rename_i hv3
    cases h
    exact hmarked hv3
  · split at h
    · rename_i hv2
      cases h
      exact hmarked hv2
    · exact suffix_of_openTail h

theorem SealedAs.suffix (h : SealedAs C passphrase plaintext raw) :
    ∃ k n, C.aead.encrypt k n plaintext <:+ raw := by
  cases h with
  | v3 salt nonce key hkey => exact ⟨key, nonce, List.suffix_append _ _⟩
  | v2 salt nonce | legacy nonce => exact ⟨_, nonce, List.suffix_append _ _⟩

/-- **An envelope opens to its plaintext or not at all**, whatever passphrase is
tried. -/
theorem eq_of_openBytes {other : List UInt8} (h : SealedAs C passphrase plaintext raw)
    (hopen : openBytes C other raw = .ok pt) : pt = plaintext := by
  obtain ⟨k, n, c, hc, hdec⟩ := suffix_of_openBytes hopen
  obtain ⟨k', n', hsealed⟩ := h.suffix
  exact C.aead.eq_of_decrypt_of_suffix hdec (List.suffix_or_suffix_of_suffix hc hsealed)

theorem openTail_append (key : Bytes 32) (nonce : Bytes 12) :
    openTail C key (nonce.1 ++ C.aead.encrypt key nonce plaintext) = .ok plaintext := by
  simp only [openTail, splitBytes_append, C.aead.decrypt_encrypt]

theorem openMarked_envelope {mark : List UInt8}
    {salt : Bytes 16} {key : Bytes 32} (hkey : derive salt = some key) (nonce : Bytes 12) :
    openMarked mark (openSalted C derive)
      (mark ++ salt.1 ++ nonce.1 ++ C.aead.encrypt key nonce plaintext) = some plaintext := by
  have hbody : openSalted C derive (salt.1 ++ (nonce.1 ++ C.aead.encrypt key nonce plaintext)) =
      .ok plaintext := by
    simp only [openSalted, splitBytes_append, hkey, openTail_append]
  rw [List.append_assoc, List.append_assoc, openMarked, if_pos (List.prefix_append _ _),
    List.drop_left, hbody]
  rfl

/-- The layout of the envelope is one of those tried, so something opens. -/
theorem SealedAs.opens (h : SealedAs C passphrase plaintext raw) :
    ∃ q, openBytes C passphrase raw = .ok q := by
  unfold openBytes
  split
  · exact ⟨_, rfl⟩
  next hv3 =>
  split
  · exact ⟨_, rfl⟩
  next hv2 =>
  cases h with
  | v3 salt nonce key hkey => cases hv3.symm.trans (openMarked_envelope hkey nonce)
  | v2 salt nonce => cases hv2.symm.trans (openMarked_envelope rfl nonce)
  | legacy nonce => exact ⟨plaintext, openTail_append _ nonce⟩

theorem openBytes_of_sealedAs (h : SealedAs C passphrase plaintext raw) :
    openBytes C passphrase raw = .ok plaintext := by
  obtain ⟨q, hq⟩ := h.opens
  rw [hq, eq_of_openBytes h hq]

/-! ## Resealing -/

theorem SealedAs.resealBytes (h : SealedAs C passphrase plaintext raw) :
    SealedAs C passphrase plaintext (resealBytes C useFIPS r passphrase raw).out := by
  fun_cases Secretbox.resealBytes C useFIPS r passphrase raw with
  | case4 _ plain hopen sealed hseal =>
    obtain rfl := eq_of_openBytes h hopen
    exact sealedAs_of_sealBytes hseal
  | _ => exact h

/-- A secret as it is kept: as it is, or as text. -/
inductive Stored where
  | bytes (raw : List UInt8)
  | text (encoded : String)

def Stored.opens (C : Crypto) (B : Base64) (passphrase : List UInt8) :
    Stored → Except BoxError (List UInt8)
  | .bytes raw => openBytes C passphrase raw
  | .text encoded => secretboxOpen C B passphrase encoded

def Stored.reseal (C : Crypto) (B : Base64) (useFIPS : Bool) (r : Draws) (passphrase : List UInt8) :
    Stored → Stored
  | .bytes raw => .bytes (resealBytes C useFIPS r passphrase raw).out
  | .text encoded => .text (resealString C B useFIPS r passphrase encoded).out

inductive BoxCall where
  | setFIPS (on : Bool)
  | sealing (r : Draws) (plaintext : List UInt8)
  | resealing (r : Draws)
  | opening

/-- The mode of the process, and a secret that is kept in it. -/
structure BoxState where
  useFIPS : Bool
  value : Stored

/-- Sealing something else and opening leave both as they are. -/
def boxStep (C : Crypto) (B : Base64) (passphrase : List UInt8) (s : BoxState) : BoxCall → BoxState
  | .setFIPS on => { s with useFIPS := on }
  | .sealing _ _ => s
  | .resealing r => { s with value := s.value.reseal C B s.useFIPS r passphrase }
  | .opening => s

def Stored.sealedAs (C : Crypto) (B : Base64) (passphrase plaintext : List UInt8) : Stored → Prop
  | .bytes raw => SealedAs C passphrase plaintext raw
  | .text encoded => ∃ raw, B.decodeString encoded = some raw ∧ SealedAs C passphrase plaintext raw

theorem Stored.sealedAs.opens {v : Stored} (h : v.sealedAs C B passphrase plaintext) :
    v.opens C B passphrase = .ok plaintext := by
  cases v with
  | bytes raw => exact openBytes_of_sealedAs h
  | text encoded =>
    obtain ⟨raw, hdec, hsealed⟩ := h
    rw [Stored.opens, secretboxOpen, hdec]
    exact openBytes_of_sealedAs hsealed

theorem Stored.sealedAs.reseal {v : Stored} (h : v.sealedAs C B passphrase plaintext) :
    (v.reseal C B useFIPS r passphrase).sealedAs C B passphrase plaintext := by
  cases v with
  | bytes raw => exact SealedAs.resealBytes h
  | text encoded =>
    obtain ⟨raw, hdec, hsealed⟩ := h
    simp only [Stored.reseal, resealString, hdec]
    split
    · exact ⟨raw, hdec, hsealed⟩
    · split
      · exact ⟨raw, hdec, hsealed⟩
      · exact ⟨_, B.decode_encode _, hsealed.resealBytes⟩

theorem sealedAs_of_secretboxSeal {encoded : String}
    (h : secretboxSeal C B useFIPS r passphrase plaintext = .ok encoded) :
    (Stored.text encoded).sealedAs C B passphrase plaintext := by
  unfold secretboxSeal at h
  split at h
  · cases h
  · rename_i raw hseal
    cases h
    exact ⟨raw, B.decode_encode raw, sealedAs_of_sealBytes hseal⟩

theorem eq_of_secretboxOpen {other : List UInt8} {encoded : String}
    (h : (Stored.text encoded).sealedAs C B passphrase plaintext)
    (hopen : secretboxOpen C B other encoded = .ok pt) : pt = plaintext := by
  obtain ⟨raw, hdec, hsealed⟩ := h
  rw [secretboxOpen, hdec] at hopen
  exact eq_of_openBytes hsealed hopen

theorem boxStep_sealedAs {s : BoxState} {c : BoxCall}
    (h : s.value.sealedAs C B passphrase plaintext) :
    (boxStep C B passphrase s c).value.sealedAs C B passphrase plaintext := by
  cases c with
  | setFIPS on | sealing r pt | opening => exact h
  | resealing r => exact h.reseal

/-- First written by `SealBytes` in some mode, or by the build that had only the
legacy layout. -/
def FirstWritten (C : Crypto) (passphrase plaintext raw : List UInt8) : Prop :=
  (∃ useFIPS r, sealBytes C useFIPS r passphrase plaintext = .ok raw) ∨
  (∃ nonce : Bytes 12, raw = nonce.1 ++ C.aead.encrypt (C.sha256 passphrase) nonce plaintext)

theorem FirstWritten.sealedAs (h : FirstWritten C passphrase plaintext raw) :
    SealedAs C passphrase plaintext raw := by
  rcases h with ⟨useFIPS, r, hseal⟩ | ⟨nonce, rfl⟩
  · exact sealedAs_of_sealBytes hseal
  · exact .legacy nonce

theorem foldl_boxStep_sealedAs (calls : List BoxCall) (s : BoxState)
    (h : s.value.sealedAs C B passphrase plaintext) :
    (calls.foldl (boxStep C B passphrase) s).value.sealedAs C B passphrase plaintext := by
  induction calls generalizing s with
  | nil => exact h
  | cons c calls ih => exact ih _ (boxStep_sealedAs h)

/-- **Envelopes survive changes of the key derivation.** A secret opens to its
plaintext after any history of calls in any modes; `ResealBytes` changes a blob
only into one that matches the mode, has nothing left to do afterwards, and leaves
the blob alone when it fails. -/
theorem envelopes_survive_profile_changes (C : Crypto) (B : Base64) (passphrase : List UInt8) :
    (∀ (plaintext raw : List UInt8) (v : Stored) (useFIPS : Bool) (calls : List BoxCall),
      FirstWritten C passphrase plaintext raw →
      (v = .bytes raw ∨ v = .text (B.encodeToString raw)) →
      (calls.foldl (boxStep C B passphrase) ⟨useFIPS, v⟩).value.opens C B passphrase =
        .ok plaintext) ∧
    (∀ useFIPS r raw, (resealBytes C useFIPS r passphrase raw).changed →
      needsReseal useFIPS (resealBytes C useFIPS r passphrase raw).out = false) ∧
    (∀ useFIPS r r' raw, (resealBytes C useFIPS r passphrase raw).err = none →
      resealBytes C useFIPS r' passphrase (resealBytes C useFIPS r passphrase raw).out =
        ⟨(resealBytes C useFIPS r passphrase raw).out, false, none⟩) ∧
    (∀ useFIPS r raw, (resealBytes C useFIPS r passphrase raw).err ≠ none →
      (resealBytes C useFIPS r passphrase raw).out = raw ∧
      (resealBytes C useFIPS r passphrase raw).changed = false) := by
  refine ⟨?_, ?_, ?_, ?_⟩
  · intro plaintext raw v useFIPS calls hfirst hv
    apply Stored.sealedAs.opens
    apply foldl_boxStep_sealedAs
    rcases hv with rfl | rfl
    · exact hfirst.sealedAs
    · exact ⟨raw, B.decode_encode raw, hfirst.sealedAs⟩
  · intro useFIPS r raw
    fun_cases resealBytes C useFIPS r passphrase raw with
    | case4 _ plain _ sealed hseal => exact fun _ => needsReseal_sealBytes hseal
    | _ => rintro ⟨⟩
  · intro useFIPS r r' raw herr
    have hdone : needsReseal useFIPS (resealBytes C useFIPS r passphrase raw).out = false := by
      revert herr
      fun_cases resealBytes C useFIPS r passphrase raw with
      | case1 hneeds => exact fun _ => hneeds
      | case4 _ plain _ sealed hseal => exact fun _ => needsReseal_sealBytes hseal
      | _ => rintro ⟨⟩
    rw [resealBytes, if_pos hdone]
  · intro useFIPS r raw
    fun_cases resealBytes C useFIPS r passphrase raw with
    | case1 | case4 => exact absurd rfl
    | _ => exact fun _ => ⟨rfl, rfl⟩

/-! ## A legacy blob whose nonce spells the mark of v3 -/

def zeros (n : ℕ) : Bytes n := ⟨List.replicate n 0, List.length_replicate⟩

/-- The key tells the derivation and holds the first bytes of the passphrase. -/
def tagKey (tag : UInt8) (passphrase : List UInt8) : Bytes 32 :=
  ⟨tag :: (passphrase.take 31 ++ List.replicate (31 - (passphrase.take 31).length) 0), by
    simp only [List.length_cons, List.length_append, List.length_replicate, List.length_take]
    omega⟩

def freeCrypto : Crypto where
  aead := freeAead
  argonKey passphrase _ := tagKey 2 passphrase
  pbkdf2Key passphrase _ := some (tagKey 3 passphrase)
  sha256 passphrase := tagKey 1 passphrase

/-- Half bytes as letters. -/
def letter (n : UInt8) : Char := Char.ofNat (65 + n.toNat)

theorem utf8EncodeChar_letter {n : UInt8} (h : n < 16) :
    String.utf8EncodeChar (letter n) = [UInt8.ofNat (65 + n.toNat)] := by
  have hall : ∀ k : Fin 16, String.utf8EncodeChar (Char.ofNat (65 + k)) =
      [UInt8.ofNat (65 + k)] := by
    decide
  exact hall ⟨n.toNat, by simpa [UInt8.lt_iff_toNat_lt] using h⟩

theorem flatMap_letters {l : List UInt8} (h : ∀ n ∈ l, n < 16) :
    ((l.map letter).flatMap String.utf8EncodeChar).map (· - 65) = l := by
  induction l with
  | nil => rfl
  | cons n l ih =>
    have hn : UInt8.ofNat (65 + n.toNat) - 65 = n := by
      apply UInt8.toNat.inj
      have hlt := n.toNat_lt
      show (2 ^ 8 - 65 + (65 + n.toNat) % 2 ^ 8) % 2 ^ 8 = n.toNat
      omega
    rw [List.map_cons, List.flatMap_cons, utf8EncodeChar_letter (h n List.mem_cons_self),
      List.singleton_append, List.map_cons, hn, ih fun k hk => h k (List.mem_cons_of_mem _ hk)]

/-- Decoding looks at the bytes of the text. -/
def letterBase64 : Base64 where
  encodeToString raw := String.ofList ((raw.flatMap nibbles).map letter)
  decodeString s := some (joinNibbles (s.toByteArray.data.toList.map (· - 65)))
  decode_encode raw := by
    have hbytes (l : List Char) : (String.ofList l).toByteArray.data.toList =
        l.flatMap String.utf8EncodeChar := by
      simp [List.utf8Encode]
    rw [hbytes, flatMap_letters fun n hn => lt_of_mem_nibbles hn, joinNibbles_flatMap]

def drawn : Draws := ⟨some (zeros 16), some (zeros 12)⟩

/-- A nonce that starts like a v3 envelope. -/
def markedNonce : Bytes 12 := ⟨magicV3 ++ List.replicate 8 0, rfl⟩

def legacyBlob : List UInt8 :=
  markedNonce.1 ++ freeAead.encrypt (freeCrypto.sha256 [112]) markedNonce [42]

def plainBlob : List UInt8 :=
  (zeros 12).1 ++ freeAead.encrypt (freeCrypto.sha256 [112]) (zeros 12) [42]

/-- The first blob opens after resealing in both modes, the second is resealed
once, and an empty one is not. -/
theorem envelopes_survive_profile_changes_marked :
    (([.resealing drawn, .setFIPS false, .opening, .resealing drawn, .setFIPS true,
      .resealing drawn] :
        List BoxCall).foldl (boxStep freeCrypto letterBase64 [112])
      ⟨true, .bytes legacyBlob⟩).value.opens freeCrypto letterBase64 [112] = .ok [42] ∧
    (resealBytes freeCrypto true drawn [112] plainBlob).changed ∧
    needsReseal true (resealBytes freeCrypto true drawn [112] plainBlob).out = false ∧
    resealBytes freeCrypto true drawn [112]
      (resealBytes freeCrypto true drawn [112] plainBlob).out =
      ⟨(resealBytes freeCrypto true drawn [112] plainBlob).out, false, none⟩ ∧
    (resealBytes freeCrypto false drawn [112] []).err = some .tooShort ∧
    (resealBytes freeCrypto false drawn [112] []).out = [] := by
  obtain ⟨hopens, hmatches, honce, hfails⟩ :=
    envelopes_survive_profile_changes freeCrypto letterBase64 [112]
  have hchanged : (resealBytes freeCrypto true drawn [112] plainBlob).changed := by
    decide +kernel
  have herr : (resealBytes freeCrypto false drawn [112] []).err = some .tooShort := by
    decide +kernel
  refine ⟨?_, hchanged, hmatches true drawn plainBlob hchanged, ?_, herr, ?_⟩
  · exact hopens [42] legacyBlob (.bytes legacyBlob) true _ (.inr ⟨markedNonce, rfl⟩) (.inl rfl)
  · exact honce true drawn drawn plainBlob (by decide +kernel)
  · exact (hfails false drawn [] (by rw [herr]; simp)).1

end Moorgate.Secretbox
