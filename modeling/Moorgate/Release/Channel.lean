import Mathlib.Data.List.Chain
import Mathlib.Data.List.Induction
import Moorgate.Release.Manifest

/-!
# The update that is offered: `release/channel.go`

`PickUpdate` has its own test of which release can be installed, and the updater asks
`CheckUpgradeable`. The two agree for every text, and the scan ends with a newest release among
those that pass.
-/

namespace Moorgate.Release

structure ChannelRelease where
  (version minFromVersion : String)
deriving DecidableEq

structure ChannelIndex where
  releases : List ChannelRelease
deriving DecidableEq

/-- What is tested before the release is compared with the best one. -/
def ChannelRelease.eligible (currentVersion : String) (r : ChannelRelease) : Option Semver :=
  match parseVersion r.version with
  | none => none
  | some rv =>
    match parseVersion currentVersion with
    | none => some rv
    | some cur =>
      if !cur.older rv then none
      else if (parseVersion r.minFromVersion).any fun min => cur.older min then none
      else some rv

def pickStep (currentVersion : String) (best : Option (ChannelRelease × Semver))
    (r : ChannelRelease) : Option (ChannelRelease × Semver) :=
  match r.eligible currentVersion with
  | none => best
  | some rv =>
    match best with
    | none => some (r, rv)
    | some (b, bestV) => if bestV.older rv then some (r, rv) else some (b, bestV)

def ChannelIndex.pickUpdate (idx : ChannelIndex) (currentVersion : String) :
    Option ChannelRelease :=
  (idx.releases.foldl (pickStep currentVersion) none).map Prod.fst

def newerVersion (a b : String) : Bool :=
  match parseVersion a, parseVersion b with
  | none, _ => false
  | some _, none => true
  | some av, some bv => bv.older av

/-- The versions that are installed when the offers of these indexes are taken one after another. -/
def followed (currentVersion : String) : List ChannelIndex → List String
  | [] => []
  | idx :: rest =>
    match idx.pickUpdate currentVersion with
    | none => followed currentVersion rest
    | some r => r.version :: followed r.version rest

/-! ## The order of versions -/

section

variable {a b c : Semver} {x y z : String}

theorem Semver.older_iff : a.older b ↔ a.major < b.major ∨ a.major = b.major ∧
    (a.minor < b.minor ∨ a.minor = b.minor ∧ a.patch < b.patch) := by
  unfold Semver.older
  split_ifs <;> simp <;> omega

theorem Semver.older_trans (hab : a.older b) (hbc : b.older c) : a.older c := by
  rw [Semver.older_iff] at *
  omega

theorem Semver.older_irrefl : a.older a = false := by
  rw [Bool.eq_false_iff, ne_eq, Semver.older_iff]
  omega

theorem newerVersion_eq_true : newerVersion x y ↔ ∃ xv, parseVersion x = some xv ∧
    ∀ yv, parseVersion y = some yv → yv.older xv := by
  unfold newerVersion
  split <;> simp_all

theorem newerVersion_trans (hxy : newerVersion y x) (hyz : newerVersion z y) :
    newerVersion z x := by
  rw [newerVersion_eq_true] at *
  obtain ⟨yv, hy, hyx⟩ := hxy
  obtain ⟨zv, hz, hzy⟩ := hyz
  exact ⟨zv, hz, fun xv hx => Semver.older_trans (hyx xv hx) (hzy yv hy)⟩

end

/-! ## The scan -/

section

variable (quote : String → String) {currentVersion : String}

variable {r : ChannelRelease}

theorem checkUpgradeable_eq_ok_iff {m : Manifest} (hversion : m.version = r.version)
    (hmin : m.minFromVersion = r.minFromVersion) :
    m.checkUpgradeable quote currentVersion = .ok () ↔ ∃ v, r.eligible currentVersion = some v := by
  unfold Manifest.checkUpgradeable ChannelRelease.eligible
  rw [hversion, hmin]
  cases parseVersion r.version with
  | none => simp
  | some new =>
    cases parseVersion currentVersion with
    | none => simp
    | some cur =>
      dsimp only
      split_ifs <;> simp_all

theorem newerVersion_of_eligible {v : Semver} (h : r.eligible currentVersion = some v) :
    parseVersion r.version = some v ∧ newerVersion r.version currentVersion := by
  unfold ChannelRelease.eligible at h
  rw [newerVersion_eq_true]
  cases hr : parseVersion r.version with
  | none =>
    rw [hr] at h
    cases h
  | some rv =>
    cases hcur : parseVersion currentVersion with
    | none => simp_all
    | some cur =>
      rw [hr, hcur] at h
      dsimp only at h
      split_ifs at h
      simp_all

/-- The best release of those that were looked at. -/
structure IsBest (currentVersion : String) (seen : List ChannelRelease)
    (best : Option (ChannelRelease × Semver)) : Prop where
  newest : ∀ r ∈ seen, ∀ v, r.eligible currentVersion = some v → ∃ b, best = some b ∧
    b.2.older v = false
  seen : ∀ b, best = some b → b.1 ∈ seen ∧ b.1.eligible currentVersion = some b.2

theorem pickStep_cases (currentVersion : String) (best : Option (ChannelRelease × Semver))
    (r : ChannelRelease) : (pickStep currentVersion best r = best ∧
      ∀ v, r.eligible currentVersion = some v → ∃ b, best = some b ∧ b.2.older v = false) ∨
    ∃ v, r.eligible currentVersion = some v ∧ pickStep currentVersion best r = some (r, v) ∧
      ∀ b, best = some b → b.2.older v := by
  unfold pickStep
  cases r.eligible currentVersion with
  | none => simp
  | some rv =>
    cases best with
    | none => simp
    | some b => cases hlt : b.2.older rv <;> simp [hlt]

theorem isBest_pickStep {seen : List ChannelRelease} {best : Option (ChannelRelease × Semver)}
    (h : IsBest currentVersion seen best) (r : ChannelRelease) :
    IsBest currentVersion (seen ++ [r]) (pickStep currentVersion best r) := by
  rcases pickStep_cases currentVersion best r with ⟨hsame, hr⟩ | ⟨v, hv, hnew, hbetter⟩
  · rw [hsame]
    refine ⟨fun r' hr' => ?_, fun b hb => ⟨List.mem_append_left _ (h.seen b hb).1, (h.seen b hb).2⟩⟩
    rcases List.mem_append.mp hr' with hold | hlast
    · exact h.newest r' hold
    · cases List.mem_singleton.mp hlast
      exact hr
  · rw [hnew]
    refine ⟨fun r' hr' v' hv' => ⟨(r, v), rfl, ?_⟩, ?_⟩
    · rcases List.mem_append.mp hr' with hold | hlast
      · obtain ⟨b, hb, hle⟩ := h.newest r' hold v' hv'
        by_contra hlt
        rw [Bool.not_eq_false] at hlt
        rw [Semver.older_trans (hbetter b hb) hlt] at hle
        cases hle
      · cases List.mem_singleton.mp hlast
        cases hv.symm.trans hv'
        exact Semver.older_irrefl
    · rintro b ⟨⟩
      exact ⟨by simp, hv⟩

theorem isBest_foldl (currentVersion : String) (releases : List ChannelRelease) :
    IsBest currentVersion releases (releases.foldl (pickStep currentVersion) none) := by
  induction releases using List.reverseRecOn with
  | nil => exact ⟨by simp, by simp⟩
  | append_singleton seen r ih =>
    rw [List.foldl_concat]
    exact isBest_pickStep ih r

theorem pickUpdate_eq_some {idx : ChannelIndex} (h : idx.pickUpdate currentVersion = some r) :
    r ∈ idx.releases ∧ ∃ v, r.eligible currentVersion = some v ∧
      ∀ r' ∈ idx.releases, ∀ v', r'.eligible currentVersion = some v' → v.older v' = false := by
  have hbest := isBest_foldl currentVersion idx.releases
  obtain ⟨⟨b, v⟩, hb, rfl⟩ := Option.map_eq_some_iff.mp h
  refine ⟨(hbest.seen _ hb).1, v, (hbest.seen _ hb).2, fun r' hr' v' hv' => ?_⟩
  obtain ⟨b', hb', hle⟩ := hbest.newest r' hr' v' hv'
  cases hb.symm.trans hb'
  exact hle

theorem pickUpdate_eq_none {idx : ChannelIndex} (h : idx.pickUpdate currentVersion = none)
    (hr : r ∈ idx.releases) : r.eligible currentVersion = none := by
  rw [Option.eq_none_iff_forall_ne_some]
  intro v hv
  obtain ⟨b, hb, -⟩ := (isBest_foldl currentVersion idx.releases).newest r hr v hv
  rw [ChannelIndex.pickUpdate, hb] at h
  cases h

end

/-! ## The offer -/

def ChannelRelease.Describes (r : ChannelRelease) (m : Manifest) : Prop :=
  m.version = r.version ∧ m.minFromVersion = r.minFromVersion

theorem isChain_followed (currentVersion : String) (idxs : List ChannelIndex) :
    (currentVersion :: followed currentVersion idxs).IsChain fun a b => newerVersion b a := by
  induction idxs generalizing currentVersion with
  | nil => simp [followed]
  | cons idx rest ih =>
    unfold followed
    cases hpick : idx.pickUpdate currentVersion with
    | none => exact ih currentVersion
    | some r =>
      obtain ⟨-, v, hv, -⟩ := pickUpdate_eq_some hpick
      exact List.isChain_cons_cons.mpr ⟨(newerVersion_of_eligible hv).2, ih r.version⟩

/-- The offer can be installed and nothing newer can; without an offer nothing can. Taken one after
another, whatever the indexes are, the offers only go up. -/
theorem pickUpdate_best (quote : String → String) (idx : ChannelIndex) (currentVersion : String) :
    (∀ r, idx.pickUpdate currentVersion = some r → r ∈ idx.releases ∧
      (∀ m, r.Describes m → m.checkUpgradeable quote currentVersion = .ok ()) ∧
      ∀ r' ∈ idx.releases, ∀ m', r'.Describes m' →
      m'.checkUpgradeable quote currentVersion = .ok () →
        newerVersion r'.version r.version = false) ∧ (idx.pickUpdate currentVersion = none →
      ∀ r ∈ idx.releases, ∀ m, r.Describes m → m.checkUpgradeable quote currentVersion ≠ .ok ()) ∧
    ∀ idxs, (currentVersion :: followed currentVersion idxs).Pairwise fun a b =>
      newerVersion b a := by
  refine ⟨fun r hr => ?_, fun hnone r hr m hm hok => ?_, fun idxs => ?_⟩
  · obtain ⟨hmem, v, hv, hmax⟩ := pickUpdate_eq_some hr
    refine ⟨hmem, fun m hm => (checkUpgradeable_eq_ok_iff quote hm.1 hm.2).mpr ⟨v, hv⟩,
      fun r' hr' m' hm' hok => ?_⟩
    obtain ⟨v', hv'⟩ := (checkUpgradeable_eq_ok_iff quote hm'.1 hm'.2).mp hok
    rw [newerVersion, (newerVersion_of_eligible hv).1, (newerVersion_of_eligible hv').1]
    exact hmax r' hr' v' hv'
  · obtain ⟨v, hv⟩ := (checkUpgradeable_eq_ok_iff quote hm.1 hm.2).mp hok
    cases (pickUpdate_eq_none hnone hr).symm.trans hv
  · have : IsTrans String fun a b => newerVersion b a := ⟨fun _ _ _ => newerVersion_trans⟩
    exact List.isChain_iff_pairwise.mp (isChain_followed currentVersion idxs)

end Moorgate.Release
