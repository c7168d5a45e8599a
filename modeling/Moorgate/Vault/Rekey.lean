import Moorgate.Framework.Base.Calls
import Moorgate.Secretbox.Envelope
import Moorgate.Store.Vault

/-!
# Rotation of the vault's master key: `vault/rekey.go`

`RekeySecrets` reads all sealed versions and replaces them one by one, with no transaction around
them. A call that stops stays where it stands, and later calls find what it left. All that a write
can put into the table is an envelope of the version's plaintext under the new key. So a row is at
any time the one it was at the beginning or one that the new key opens.
-/

namespace Moorgate.Vault

open Framework Models Store Secretbox

structure RekeyResult where
  (rekeyed alreadyNew external : ℕ)
deriving DecidableEq

def RekeyResult.total (res : RekeyResult) : ℕ := res.rekeyed + res.alreadyNew + res.external

inductive RekeyError where
  | identicalKeys -- "old and new vault keys are identical — nothing to rotate"
  | load
  | cannotDecrypt (id : UUID) (err : BoxError)
  | resealFailed (id : UUID) (err : BoxError)
  | verification (id : UUID)
  | writeFailed (id : UUID)
deriving DecidableEq

inductive VersionOutcome where
  | external | alreadyNew
  | rewrite (sealed : String)
  | failed (err : RekeyError)
deriving DecidableEq

def rekeyVersion (C : Crypto) (B : Base64) (useFIPS : Bool) (r : Draws) (oldKey newKey : List UInt8)
    (v : VaultVersionSeal) : VersionOutcome :=
  if v.sealed = "" then .external
  else
    match secretboxOpen C B newKey v.sealed with
    | .ok _ => .alreadyNew
    | .error _ =>
      match secretboxOpen C B oldKey v.sealed with
      | .error err => .failed (.cannotDecrypt v.id err)
      | .ok plain =>
        match secretboxSeal C B useFIPS r newKey plain with
        | .error err => .failed (.resealFailed v.id err)
        | .ok sealed =>
          if (secretboxOpen C B newKey sealed).toOption = some plain then .rewrite sealed
          else .failed (.verification v.id)

/-- A write that is reported as failed may have been performed. -/
inductive WriteOutcome where
  | written | lost | writtenUnreported
deriving DecidableEq

structure RekeyInput where
  useFIPS : Bool
  draws : Draws
  loads : Bool
  write : WriteOutcome

inductive RekeyPc where
  | loading -- `AllVaultVersionSeals`
  | working (rest : List VaultVersionSeal) (res : RekeyResult)
  | writing (v : VaultVersionSeal) (sealed : String) (rest : List VaultVersionSeal)
      (res : RekeyResult) -- `UpdateVaultVersionSeal`
  | returned (res : RekeyResult) (err : Option RekeyError)
deriving DecidableEq

def rekeyStart (oldKey newKey : List UInt8) (_ : Unit) : RekeyPc :=
  if oldKey = newKey then .returned ⟨0, 0, 0⟩ (some .identicalKeys) else .loading

def rekeyAct (C : Crypto) (B : Base64) (oldKey newKey : List UInt8) (i : RekeyInput)
    (t : VaultVersions) : RekeyPc → Option (VaultVersions × RekeyPc)
  | .loading =>
    if i.loads then some (t, .working (allVaultVersionSeals t) ⟨0, 0, 0⟩)
    else some (t, .returned ⟨0, 0, 0⟩ (some .load))
  | .working [] res => some (t, .returned res none)
  | .working (v :: rest) res =>
    match rekeyVersion C B i.useFIPS i.draws oldKey newKey v with
    | .external => some (t, .working rest { res with external := res.external + 1 })
    | .alreadyNew => some (t, .working rest { res with alreadyNew := res.alreadyNew + 1 })
    | .rewrite sealed => some (t, .writing v sealed rest res)
    | .failed err => some (t, .returned res (some err))
  | .writing v sealed rest res =>
    match i.write with
    | .written => some (updateVaultVersionSeal v.id sealed t,
        .working rest { res with rekeyed := res.rekeyed + 1 })
    | .lost => some (t, .returned res (some (.writeFailed v.id)))
    | .writtenUnreported =>
      some (updateVaultVersionSeal v.id sealed t, .returned res (some (.writeFailed v.id)))
  | .returned _ _ => none

abbrev RekeyPool := Pool VaultVersions RekeyPc
abbrev RekeyMove := Move Unit RekeyInput

def rekeyStep (C : Crypto) (B : Base64) (oldKey newKey : List UInt8) :
    RekeyPool → RekeyMove → Option RekeyPool :=
  poolStep (rekeyStart oldKey newKey) (rekeyAct C B oldKey newKey)

section

variable (C : Crypto) (B : Base64) (oldKey newKey : List UInt8) (plain : UUID → List UInt8)
  (t₀ : VaultVersions)

def SealedUnder (key : List UInt8) (id : UUID) (sealed : String) : Prop :=
  (Stored.text sealed).sealedAs C B key (plain id)

/-- Each version is external or sealed under one of the keys, in any layout. -/
def WellSealed (t : VaultVersions) : Prop :=
  ∀ v ∈ t.rows, v.sealed = "" ∨ SealedUnder C B plain oldKey v.id v.sealed ∨
    SealedUnder C B plain newKey v.id v.sealed

/-- The value is the one of the beginning, or has been replaced. -/
def Preserved (id : UUID) (sealed : String) : Prop :=
  ∃ v₀ ∈ t₀.rows, v₀.id = id ∧
    (sealed = v₀.sealed ∨ (v₀.sealed ≠ "" ∧ SealedUnder C B plain newKey id sealed))

def Migrated (t : VaultVersions) (id : UUID) : Prop :=
  ∀ v ∈ t.rows, v.id = id → v.sealed = "" ∨ secretboxOpen C B newKey v.sealed = .ok (plain id)

/-- What a call has read of a version is still there, or has been replaced. -/
def UpToDate (t : VaultVersions) (w : VaultVersionSeal) : Prop :=
  ∀ v ∈ t.rows, v.id = w.id → v.sealed = w.sealed ∨ SealedUnder C B plain newKey w.id v.sealed

/-- The versions `done` are migrated and counted, and `rest` is to be done. -/
structure Progress (t : VaultVersions) (done : List UUID) (rest : List VaultVersionSeal)
    (res : RekeyResult) : Prop where
  ids : t₀.rows.map VaultVersion.id = done ++ rest.map VaultVersionSeal.id
  counted : res.total = done.length
  migrated : ∀ id ∈ done, Migrated C B newKey plain t id
  preserved : ∀ w ∈ rest, Preserved C B newKey plain t₀ w.id w.sealed
  upToDate : ∀ w ∈ rest, UpToDate C B newKey plain t w

def RekeyPc.sound (t : VaultVersions) : RekeyPc → Prop
  | .loading => True
  | .working rest res => ∃ done, Progress C B newKey plain t₀ t done rest res
  | .writing w sealed rest res => w.sealed ≠ "" ∧ SealedUnder C B plain newKey w.id sealed ∧
      ∃ done, Progress C B newKey plain t₀ t done (w :: rest) res
  | .returned res none => ∃ done, Progress C B newKey plain t₀ t done [] res
  | .returned _ (some _) => True

structure RekeySafe (s : RekeyPool) : Prop where
  ids : s.store.rows.map VaultVersion.id = t₀.rows.map VaultVersion.id
  rows : ∀ v ∈ s.store.rows, Preserved C B newKey plain t₀ v.id v.sealed
  calls : ∀ pc ∈ s.calls, pc.sound C B newKey plain t₀ s.store

/-- Every row is an old one, or an envelope under the new key. -/
def Replaced (t t' : VaultVersions) : Prop :=
  ∀ v ∈ t'.rows, v ∈ t.rows ∨ SealedUnder C B plain newKey v.id v.sealed

variable {C B oldKey newKey plain t₀}

theorem Replaced.refl (t : VaultVersions) : Replaced C B newKey plain t t := fun _ h => .inl h

variable {id : UUID}

theorem replaced_update {sealed : String} (h : SealedUnder C B plain newKey id sealed)
    (t : VaultVersions) : Replaced C B newKey plain t (updateVaultVersionSeal id sealed t) := by
  intro v hv
  rcases mem_updateVaultVersionSeal hv with ⟨-, hold⟩ | ⟨rfl, rfl⟩
  · exact .inl hold
  · exact .inr h

variable {t t' : VaultVersions}

theorem Migrated.replaced (h : Migrated C B newKey plain t id)
    (hr : Replaced C B newKey plain t t') : Migrated C B newKey plain t' id := by
  intro v hv hid
  rcases hr v hv with hold | hnew
  · exact h v hold hid
  · rw [← hid]
    exact .inr (Stored.sealedAs.opens hnew)

variable {w : VaultVersionSeal}

theorem UpToDate.replaced (h : UpToDate C B newKey plain t w)
    (hr : Replaced C B newKey plain t t') : UpToDate C B newKey plain t' w := by
  intro v hv hid
  rcases hr v hv with hold | hnew
  · exact h v hold hid
  · rw [← hid]
    exact .inr hnew

variable {rest : List VaultVersionSeal} {res : RekeyResult}

theorem Progress.replaced {done : List UUID} (h : Progress C B newKey plain t₀ t done rest res)
    (hr : Replaced C B newKey plain t t') : Progress C B newKey plain t₀ t' done rest res where
  ids := h.ids
  counted := h.counted
  migrated id hid := (h.migrated id hid).replaced hr
  preserved := h.preserved
  upToDate w hw := (h.upToDate w hw).replaced hr

theorem RekeyPc.sound.replaced {pc : RekeyPc}
    (h : pc.sound C B newKey plain t₀ t) (hr : Replaced C B newKey plain t t') :
    pc.sound C B newKey plain t₀ t' := by
  cases pc with
  | loading => exact h
  | working rest res =>
    obtain ⟨done, hp⟩ := h
    exact ⟨done, hp.replaced hr⟩
  | writing w sealed rest res =>
    obtain ⟨hw, hsealed, done, hp⟩ := h
    exact ⟨hw, hsealed, done, hp.replaced hr⟩
  | returned res err =>
    cases err with
    | some err => exact h
    | none =>
      obtain ⟨done, hp⟩ := h
      exact ⟨done, hp.replaced hr⟩

theorem Progress.next {done : List UUID} {res' : RekeyResult}
    (h : Progress C B newKey plain t₀ t done (w :: rest) res) (hres : res'.total = res.total + 1)
    (hw : Migrated C B newKey plain t w.id) :
    Progress C B newKey plain t₀ t (done ++ [w.id]) rest res' where
  ids := by rw [h.ids, List.map_cons, List.append_assoc, List.singleton_append]
  counted := by rw [hres, h.counted, List.length_append, List.length_singleton]
  migrated id hid := by
    rcases List.mem_append.mp hid with hid | hid
    · exact h.migrated id hid
    · rw [List.mem_singleton.mp hid]
      exact hw
  preserved v hv := h.preserved v (List.mem_cons_of_mem _ hv)
  upToDate v hv := h.upToDate v (List.mem_cons_of_mem _ hv)

/-- A version whose read value was external or opens with the new key is
migrated. -/
theorem UpToDate.migrated (h : UpToDate C B newKey plain t w)
    (hw : w.sealed = "" ∨ secretboxOpen C B newKey w.sealed = .ok (plain w.id)) :
    Migrated C B newKey plain t w.id := by
  intro v hv hid
  rcases h v hv hid with heq | hnew
  · rw [heq]
    exact hw
  · exact .inr (Stored.sealedAs.opens hnew)

theorem progress_allVaultVersionSeals
    (hids : t.rows.map VaultVersion.id = t₀.rows.map VaultVersion.id)
    (hrows : ∀ v ∈ t.rows, Preserved C B newKey plain t₀ v.id v.sealed) :
    Progress C B newKey plain t₀ t [] (allVaultVersionSeals t) ⟨0, 0, 0⟩ where
  ids := by
    rw [List.nil_append, allVaultVersionSeals, List.map_map, ← hids]
    rfl
  counted := rfl
  migrated id hid := absurd hid List.not_mem_nil
  preserved w hw := by
    obtain ⟨v, hv, rfl⟩ := List.mem_map.mp hw
    exact hrows v hv
  upToDate w hw := by
    obtain ⟨v, hv, rfl⟩ := List.mem_map.mp hw
    intro v' hv' hid
    rw [Table.eq_of_key hv' hv hid]
    exact .inl rfl

theorem write_sound {sealed : String}
    (hids : t.rows.map VaultVersion.id = t₀.rows.map VaultVersion.id)
    (hrows : ∀ v ∈ t.rows, Preserved C B newKey plain t₀ v.id v.sealed)
    (hpc : (RekeyPc.writing w sealed rest res).sound C B newKey plain t₀ t) :
    Replaced C B newKey plain t (updateVaultVersionSeal w.id sealed t) ∧
    (updateVaultVersionSeal w.id sealed t).rows.map VaultVersion.id = t₀.rows.map VaultVersion.id ∧
    (∀ v ∈ (updateVaultVersionSeal w.id sealed t).rows,
      Preserved C B newKey plain t₀ v.id v.sealed) ∧
    (RekeyPc.working rest { res with rekeyed := res.rekeyed + 1 }).sound C B newKey plain t₀
      (updateVaultVersionSeal w.id sealed t) := by
  obtain ⟨hne, hsealed, done, hp⟩ := hpc
  have hr := replaced_update hsealed t
  refine ⟨hr, (Table.map_key_update _ _ _ _).trans hids, ?_, ?_⟩
  · intro v hv
    rcases mem_updateVaultVersionSeal hv with ⟨-, hold⟩ | ⟨hid, hval⟩
    · exact hrows v hold
    obtain ⟨v₀, hv₀, hid₀, hval₀⟩ := hp.preserved w List.mem_cons_self
    have hne₀ : v₀.sealed ≠ "" := by
      rcases hval₀ with heq | ⟨hne₀, -⟩
      · rw [← heq]
        exact hne
      · exact hne₀
    rw [hid, hval]
    exact ⟨v₀, hv₀, hid₀, .inr ⟨hne₀, hsealed⟩⟩
  · refine ⟨done ++ [w.id], (hp.replaced hr).next ?_ ?_⟩
    · show res.rekeyed + 1 + res.alreadyNew + res.external =
        res.rekeyed + res.alreadyNew + res.external + 1
      omega
    · intro v hv hid
      rcases mem_updateVaultVersionSeal hv with ⟨hne', -⟩ | ⟨-, hval⟩
      · exact absurd hid hne'
      · rw [hval]
        exact .inr (Stored.sealedAs.opens hsealed)

variable (h₀ : WellSealed C B oldKey newKey plain t₀)

include h₀

/-- A version that was external at the beginning is so now, and the others are
sealed under one of the keys. -/
theorem Preserved.sealed {sealed : String}
    (h : Preserved C B newKey plain t₀ id sealed) :
    sealed = "" ∨ SealedUnder C B plain oldKey id sealed ∨
    SealedUnder C B plain newKey id sealed := by
  obtain ⟨v₀, hv₀, rfl, rfl | ⟨-, hnew⟩⟩ := h
  · exact h₀ v₀ hv₀
  · exact .inr (.inr hnew)

/-- What opens is the version's plaintext, whatever the key. -/
theorem Preserved.eq_of_open {sealed : String}
    {key pt : List UInt8} (h : Preserved C B newKey plain t₀ id sealed) (hne : sealed ≠ "")
    (hopen : secretboxOpen C B key sealed = .ok pt) : pt = plain id := by
  rcases h.sealed h₀ with hempty | hold | hnew
  · exact absurd hempty hne
  · exact eq_of_secretboxOpen hold hopen
  · exact eq_of_secretboxOpen hnew hopen

/-- All that `rekeyVersion` can find, for a version whose value is preserved. -/
theorem rekeyVersion_spec
    (hw : Preserved C B newKey plain t₀ w.id w.sealed) (useFIPS : Bool) (r : Draws) :
    match rekeyVersion C B useFIPS r oldKey newKey w with
    | .external => w.sealed = ""
    | .alreadyNew => secretboxOpen C B newKey w.sealed = .ok (plain w.id)
    | .rewrite sealed => w.sealed ≠ "" ∧ SealedUnder C B plain newKey w.id sealed
    | .failed _ => True := by
  fun_cases rekeyVersion C B useFIPS r oldKey newKey w with
  | case1 hempty => exact hempty
  | case2 hempty pt hnew => exact hw.eq_of_open h₀ hempty hnew ▸ hnew
  | case5 hempty _ _ pt hold sealed hseal =>
    obtain rfl := hw.eq_of_open h₀ hempty hold
    exact ⟨hempty, sealedAs_of_secretboxSeal hseal⟩
  | _ => trivial

theorem rekeyAct_sound {i : RekeyInput} {pc pc' : RekeyPc}
    (hids : t.rows.map VaultVersion.id = t₀.rows.map VaultVersion.id)
    (hrows : ∀ v ∈ t.rows, Preserved C B newKey plain t₀ v.id v.sealed)
    (hpc : pc.sound C B newKey plain t₀ t)
    (hact : rekeyAct C B oldKey newKey i t pc = some (t', pc')) : Replaced C B newKey plain t t' ∧
    t'.rows.map VaultVersion.id = t₀.rows.map VaultVersion.id ∧
    (∀ v ∈ t'.rows, Preserved C B newKey plain t₀ v.id v.sealed) ∧
    pc'.sound C B newKey plain t₀ t' := by
  revert hact
  fun_cases rekeyAct C B oldKey newKey i t pc with
  | case1 =>
    rintro ⟨⟩
    exact ⟨.refl t, hids, hrows, [], progress_allVaultVersionSeals hids hrows⟩
  | case3 =>
    rintro ⟨⟩
    exact ⟨.refl t, hids, hrows, hpc⟩
  | case4 w rest res hout =>
    rintro ⟨⟩
    obtain ⟨done, hp⟩ := hpc
    have hempty := rekeyVersion_spec h₀ (hp.preserved w List.mem_cons_self) i.useFIPS i.draws
    rw [hout] at hempty
    exact ⟨.refl t, hids, hrows, _,
      hp.next rfl ((hp.upToDate w List.mem_cons_self).migrated (.inl hempty))⟩
  | case5 w rest res hout =>
    rintro ⟨⟩
    obtain ⟨done, hp⟩ := hpc
    have hopen := rekeyVersion_spec h₀ (hp.preserved w List.mem_cons_self) i.useFIPS i.draws
    rw [hout] at hopen
    refine ⟨.refl t, hids, hrows, _,
      hp.next ?_ ((hp.upToDate w List.mem_cons_self).migrated (.inr hopen))⟩
    show res.rekeyed + (res.alreadyNew + 1) + res.external =
      res.rekeyed + res.alreadyNew + res.external + 1
    omega
  | case6 w rest res sealed hout =>
    rintro ⟨⟩
    obtain ⟨done, hp⟩ := hpc
    have hsealed := rekeyVersion_spec h₀ (hp.preserved w List.mem_cons_self) i.useFIPS i.draws
    rw [hout] at hsealed
    exact ⟨.refl t, hids, hrows, hsealed.1, hsealed.2, done, hp⟩
  | case8 =>
    rintro ⟨⟩
    exact write_sound hids hrows hpc
  | case10 =>
    rintro ⟨⟩
    obtain ⟨hr, hids', hrows', -⟩ := write_sound hids hrows hpc
    exact ⟨hr, hids', hrows', trivial⟩
  | case11 => rintro ⟨⟩
  | _ =>
    rintro ⟨⟩
    exact ⟨.refl t, hids, hrows, trivial⟩

theorem rekeyStep_safe {s s' : RekeyPool} {m : RekeyMove}
    (hi : RekeySafe C B newKey plain t₀ s) (hstep : rekeyStep C B oldKey newKey s m = some s') :
    RekeySafe C B newKey plain t₀ s' := by
  rcases poolStep_cases hstep with ⟨u, rfl, rfl⟩ | ⟨c, i, pc, t', pc', rfl, hc, hact, rfl⟩
  · refine ⟨hi.ids, hi.rows, Pool.forall_enter hi.calls ?_⟩
    unfold rekeyStart
    split
    · exact trivial
    · exact trivial
  · obtain ⟨hr, hids, hrows, hnew⟩ :=
      rekeyAct_sound h₀ hi.ids hi.rows (hi.calls pc (Pool.mem_of_call hc)) hact
    have hothers : ∀ p ∈ s.calls, p.sound C B newKey plain t₀ t' :=
      fun p hp => (hi.calls p hp).replaced hr
    exact ⟨hids, hrows, Pool.forall_put hothers hnew⟩

end

/-- **Rotation of the master key is crash-safe and resumable.** Let calls stop
anywhere and others follow, or run at the same time. A version is at any time
readable under the old or the new key with its plaintext, or external as it was;
and once a call has returned without an error, every version that is not external
is readable under the new key, and the three counts add up to the number of
versions. -/
theorem rekey_crash_safe (C : Crypto) (B : Base64) (oldKey newKey : List UInt8)
    (plain : UUID → List UInt8) (t₀ : VaultVersions) (h₀ : WellSealed C B oldKey newKey plain t₀)
    (moves : List RekeyMove) (s : RekeyPool)
    (hrun : exec (rekeyStep C B oldKey newKey) ⟨t₀, []⟩ moves = some s) :
    (∀ v₀ ∈ t₀.rows, ∃ v ∈ s.store.rows, v.id = v₀.id ∧ (v₀.sealed = "" → v.sealed = "") ∧
      (v₀.sealed ≠ "" → secretboxOpen C B oldKey v.sealed = .ok (plain v.id) ∨
        secretboxOpen C B newKey v.sealed = .ok (plain v.id))) ∧
          (∀ c res, s.call c = some (.returned res none) →
      (∀ v ∈ s.store.rows, v.sealed ≠ "" → secretboxOpen C B newKey v.sealed = .ok (plain v.id)) ∧
      res.rekeyed + res.alreadyNew + res.external = s.store.rows.length) := by
  have hstart : RekeySafe C B newKey plain t₀ ⟨t₀, []⟩ :=
    ⟨rfl, fun v hv => ⟨v, hv, rfl, .inl rfl⟩, fun _ h => (nomatch h)⟩
  have hi : RekeySafe C B newKey plain t₀ s :=
    exec_invariant_of_step (rekeyStep_safe h₀) hrun hstart
  constructor
  · intro v₀ hv₀
    have hmem : v₀.id ∈ s.store.rows.map VaultVersion.id := by
      rw [hi.ids]
      exact List.mem_map.mpr ⟨v₀, hv₀, rfl⟩
    obtain ⟨v, hv, hid⟩ := List.mem_map.mp hmem
    obtain ⟨v₁, hv₁, hid₁, hval⟩ := hi.rows v hv
    obtain rfl : v₁ = v₀ := Table.eq_of_key hv₁ hv₀ (hid₁.trans hid)
    refine ⟨v, hv, hid, ?_, ?_⟩
    · intro hempty
      rcases hval with heq | ⟨hne, -⟩
      · rw [heq, hempty]
      · exact absurd hempty hne
    · intro hne
      rcases (hi.rows v hv).sealed h₀ with hempty | hold | hnew
      · rcases hval with heq | ⟨-, hnew⟩
        · exact absurd (heq.symm.trans hempty) hne
        · exact .inr (Stored.sealedAs.opens hnew)
      · exact .inl (Stored.sealedAs.opens hold)
      · exact .inr (Stored.sealedAs.opens hnew)
  · intro c res hc
    obtain ⟨done, hp⟩ := hi.calls _ (Pool.mem_of_call hc)
    have hdone : t₀.rows.map VaultVersion.id = done := by
      rw [hp.ids, List.map_nil, List.append_nil]
    constructor
    · intro v hv hne
      have hid : v.id ∈ done := by
        rw [← hdone, ← hi.ids]
        exact List.mem_map.mpr ⟨v, hv, rfl⟩
      rcases hp.migrated v.id hid v hv rfl with hempty | hopen
      · exact absurd hempty hne
      · exact hopen
    · have hlen := congrArg List.length (hi.ids.trans hdone)
      rw [List.length_map] at hlen
      exact hp.counted.trans hlen.symm

/-! ## A run that stops and one that resumes -/

def sealedWith (key plaintext : List UInt8) : String :=
  letterBase64.encodeToString
    (magic ++ (zeros 16).1 ++ (zeros 12).1 ++ freeAead.encrypt (tagKey 2 key) (zeros 12) plaintext)

def mixedVersions : VaultVersions where
  rows := [⟨⟨1⟩, ⟨9⟩, 1, sealedWith [1] [11]⟩, ⟨⟨2⟩, ⟨9⟩, 2, sealedWith [1] [12]⟩,
    ⟨⟨3⟩, ⟨8⟩, 1, ""⟩, ⟨⟨4⟩, ⟨7⟩, 1, sealedWith [2] [14]⟩]
  nodup := by decide

def plainOf (id : UUID) : List UInt8 := if id = ⟨1⟩ then [11] else if id = ⟨2⟩ then [12] else [14]

theorem mixedVersions_wellSealed :
    WellSealed freeCrypto letterBase64 [1] [2] plainOf mixedVersions := by
  have hsealed (key plaintext : List UInt8) :
      (Stored.text (sealedWith key plaintext)).sealedAs freeCrypto letterBase64 key plaintext :=
    ⟨_, letterBase64.decode_encode _, .v2 (zeros 16) (zeros 12)⟩
  intro v hv
  simp only [mixedVersions, List.mem_cons, List.not_mem_nil, or_false] at hv
  rcases hv with rfl | rfl | rfl | rfl
  · exact .inr (.inl (hsealed [1] [11]))
  · exact .inr (.inl (hsealed [1] [12]))
  · exact .inl rfl
  · exact .inr (.inr (hsealed [2] [14]))

def rekeyInput (write : WriteOutcome) : RekeyInput := ⟨true, drawn, true, write⟩

/-- The first call stops at a failed write of the second version, the second call
goes on from there. -/
def stopAndResume : List RekeyMove :=
  (.begin () :: List.replicate 4 (.advance 0 (rekeyInput .written))) ++
  (.advance 0 (rekeyInput .lost) :: .begin () :: List.replicate 7
    (.advance 1 (rekeyInput .written)))

theorem rekey_crash_safe_resumed : ∃ s,
    exec (rekeyStep freeCrypto letterBase64 [1] [2]) ⟨mixedVersions, []⟩ stopAndResume = some s ∧
    s.call 0 = some (.returned ⟨1, 0, 0⟩ (some (.writeFailed ⟨2⟩))) ∧
    s.call 1 = some (.returned ⟨1, 2, 1⟩ none) ∧
    ∀ v ∈ s.store.rows, v.sealed ≠ "" →
    secretboxOpen freeCrypto letterBase64 [2] v.sealed = .ok (plainOf v.id) := by
  have hcalls : (exec (rekeyStep freeCrypto letterBase64 [1] [2]) ⟨mixedVersions, []⟩
      stopAndResume).map (fun s => (s.call 0, s.call 1)) =
        some (some (.returned ⟨1, 0, 0⟩ (some (.writeFailed ⟨2⟩))),
        some (.returned ⟨1, 2, 1⟩ none)) := by
    decide +kernel
  obtain ⟨s, hs, hcalls⟩ := Option.map_eq_some_iff.mp hcalls
  obtain ⟨h0, h1⟩ := Prod.mk.inj hcalls
  exact ⟨s, hs, h0, h1, ((rekey_crash_safe freeCrypto letterBase64 [1] [2] plainOf mixedVersions
    mixedVersions_wellSealed stopAndResume s hs).2 1 _ h1).1⟩

end Moorgate.Vault
