import Moorgate.Framework.Base.Calls
import Moorgate.Release.Bundle

/-!
# What is reviewed and what is installed: `upgrade/handlers.go`, `upgrade/service.go`

Every bundle is staged in one file. `preview` writes it and shows its manifest; `apply` reads it
and compares the version, `Service.Apply` reads it again, and the updater once more, whose manifest
is installed. Between the reads a preview or a pull of another operator may write the file.
-/

namespace Moorgate.Upgrade

open Framework Release

/-- What `release.Open` and `CheckUpgradeable` make of the file, in the backend (`Verify`) and in
the updater. -/
structure Readers (β : Type) where
  (verify reopen : β → Option Manifest)
  agree : ∀ {b m m'}, verify b = some m → reopen b = some m' → m = m'

/-- `release.Open` with some keys, then `CheckUpgradeable`. -/
def opened (A : Archive) (S : Signatures) (trusted : List Bytes) (version : String)
    (tar : List TarItem) : Option Manifest :=
  match openReader A S tar trusted with
  | .error _ => none
  | .ok (m, _) =>
    match m.checkUpgradeable A.quote version with
    | .error _ => none
    | .ok _ => some m

variable {A : Archive} {S : Signatures} {tar : List TarItem} {keys keys' : List Bytes}

/-- The keys decide whether a manifest is returned, not which. -/
theorem openReader_unique
    {x x' : Manifest × List TarItem} (h : openReader A S tar keys = .ok x)
    (h' : openReader A S tar keys' = .ok x') : x = x' := by
  simp only [openReader, bind_eq_ok] at h h'
  obtain ⟨⟨json, rest⟩, hjson, ⟨sig, rest'⟩, hsig, -, -, h⟩ := h
  obtain ⟨⟨json', rest₂⟩, hjson', ⟨sig', rest₂'⟩, hsig', -, -, h'⟩ := h'
  cases hjson.symm.trans hjson'
  cases hsig.symm.trans hsig'
  exact Except.ok.inj (h.symm.trans h')

theorem opened_agree {version version' : String} {m m' : Manifest}
    (h : opened A S keys version tar = some m) (h' : opened A S keys' version' tar = some m') :
    m = m' := by
  unfold opened at h h'
  split at h
  · cases h
  next hopen =>
  split at h'
  · cases h'
  next hopen' =>
  cases openReader_unique hopen hopen'
  split at h
  · cases h
  split at h'
  · cases h'
  · exact Option.some.inj (h.symm.trans h')

/-- The backend and the updater, each with its keys. The updater is told the version. -/
def Readers.ofKeys (A : Archive) (S : Signatures) (backend updater : List Bytes)
    (version : String) : Readers (List TarItem) :=
  ⟨opened A S backend version, opened A S updater version, opened_agree⟩

/-- Where a request stands. A pull has no manifest that was reviewed. -/
inductive Pc where
  | uploading | previewing
  | previewed (m : Manifest)
  | pulling
  | confirmed (reviewed : Manifest) -- before `Verify` in `apply`
  | applying (reviewed : Option Manifest) -- before `Verify` in `Service.Apply`
  | dispatching (reviewed : Option Manifest) -- the backup and the request to the updater
  | reopening (reviewed : Option Manifest) -- before `release.Open` in the updater
  | installing (reviewed : Option Manifest) (m : Manifest)
  | failed
deriving DecidableEq

inductive Act (β : Type) where
  | preview | pull
  | confirm (c : ℕ) -- `apply` after preview `c`
  | write (c : ℕ) (b : β) -- any piece of an upload or a download
  | advance (c : ℕ) (ok : Bool)

section

variable {β : Type} (R : Readers β)

/-- `ok` is false when what has no outcome here fails. -/
def next (staged : β) (ok : Bool) : Pc → Option Pc
  | .uploading => some (if ok then .previewing else .failed)
  | .previewing => some ((R.verify staged).elim .failed .previewed)
  | .pulling => some (if ok then .applying none else .failed)
  | .confirmed r => some ((R.verify staged).elim .failed fun m =>
      if r.version ≠ "" ∧ r.version ≠ m.version then .failed else .applying (some r))
  | .applying r => some ((R.verify staged).elim .failed fun _ => .dispatching r)
  | .dispatching r => some (if ok then .reopening r else .failed)
  | .reopening r => some ((R.reopen staged).elim .failed (.installing r))
  | .previewed _ | .installing _ _ | .failed => none

def Pc.writes : Pc → Bool
  | .uploading | .pulling => true
  | _ => false

def step (s : Pool β Pc) : Act β → Option (Pool β Pc)
  | .preview => some (s.enter .uploading)
  | .pull => some (s.enter .pulling)
  | .confirm c =>
    match s.call c with
    | some (.previewed m) => some (s.enter (.confirmed m))
    | _ => none
  | .write c b => if (s.call c).any Pc.writes then some ⟨b, s.calls⟩ else none
  | .advance c ok => (s.call c).bind fun p => (next R s.store ok p).map (s.put c s.store)

def Reviewed (s : Pool β Pc) : Prop := ∀ p ∈ s.calls, ∀ r m, p = .installing (some r) m → m = r

/-- The manifest of an `apply` that is past its handler. -/
def Pc.pending : Pc → Option Manifest
  | .applying r | .dispatching r | .reopening r => r
  | _ => none

/-- The updater would install nothing else from the file. -/
def Holds (b : β) (r : Manifest) : Prop := ∀ m, R.reopen b = some m → m = r

/-- While an `apply` is under way no other manifest is written; and when its handler reads the
version that was reviewed, it reads the manifest that was. -/
def Kept (s : Pool β Pc) : Act β → Prop
  | .write _ b => ∀ p ∈ s.calls, ∀ r, p.pending = some r → Holds R b r
  | .advance c _ => ∀ r, s.call c = some (.confirmed r) → ∀ m, R.verify s.store = some m →
      (r.version = "" ∨ r.version = m.version) → m = r
  | _ => True

/-- What is pending is what the file holds. -/
structure Staged (s : Pool β Pc) : Prop where
  reviewed : Reviewed s
  held : ∀ p ∈ s.calls, ∀ r, p.pending = some r → Holds R s.store r

variable {R} {s s' : Pool β Pc}

theorem staged_enter (hs : Staged R s) {p : Pc} (hp : p.pending = none)
    (hnot : ∀ r m, p ≠ .installing r m) : Staged R (s.enter p) where
  reviewed := Pool.forall_enter hs.reviewed fun r m h => absurd h (hnot (some r) m)
  held := Pool.forall_enter hs.held fun _ h => nomatch hp.symm.trans h

theorem staged_put (hs : Staged R s) {c : ℕ} {p' : Pc}
    (hheld : ∀ r, p'.pending = some r → Holds R s.store r)
    (hinst : ∀ r m, p' = .installing (some r) m → m = r) : Staged R (s.put c s.store p') :=
  ⟨Pool.forall_put hs.reviewed hinst, Pool.forall_put hs.held hheld⟩

theorem staged_advance (hs : Staged R s) {c : ℕ} {ok : Bool} (hkept : Kept R s (.advance c ok))
    {p p' : Pc} (hc : s.call c = some p) (h : next R s.store ok p = some p') :
    Staged R (s.put c s.store p') := by
  have hheld := hs.held p (Pool.mem_of_call hc)
  have hfailed : Staged R (s.put c s.store .failed) := staged_put hs nofun nofun
  cases p with
  | previewed _ | installing _ _ | failed => cases h
  | uploading | pulling =>
    cases h
    cases ok with
    | false => exact hfailed
    | true => exact staged_put hs nofun nofun
  | dispatching r =>
    cases h
    cases ok with
    | false => exact hfailed
    | true => exact staged_put hs hheld nofun
  | previewing =>
    cases h
    cases R.verify s.store with
    | none => exact hfailed
    | some m => exact staged_put hs nofun nofun
  | applying r =>
    cases h
    cases R.verify s.store with
    | none => exact hfailed
    | some m => exact staged_put hs hheld nofun
  | confirmed r =>
    cases h
    cases hread : R.verify s.store with
    | none => exact hfailed
    | some m =>
      dsimp only [Option.elim]
      split
      · exact hfailed
      next hversion =>
      have hm : m = r := hkept r hc m hread (by tauto)
      refine staged_put hs (fun r' hr m' hreopen => ?_) nofun
      cases hr
      exact (R.agree hread hreopen).symm.trans hm
  | reopening r =>
    cases h
    cases hread : R.reopen s.store with
    | none => exact hfailed
    | some m =>
      refine staged_put hs nofun fun r' m' h => ?_
      cases h
      exact hheld r' rfl m hread

theorem staged_step {a : Act β} (hs : Staged R s) (hkept : Kept R s a) (h : step R s a = some s') :
    Staged R s' := by
  cases a with
  | preview | pull =>
    cases h
    exact staged_enter hs rfl nofun
  | confirm c =>
    simp only [step] at h
    split at h
    · cases h
      exact staged_enter hs rfl nofun
    · cases h
  | write c b =>
    simp only [step] at h
    split at h
    · cases h
      exact ⟨hs.reviewed, hkept⟩
    · cases h
  | advance c ok =>
    obtain ⟨p, hc, h⟩ := Option.bind_eq_some_iff.mp h
    obtain ⟨p', hnext, rfl⟩ := Option.map_eq_some_iff.mp h
    exact staged_advance hs hkept hc hnext

end

/-- Whatever the requests and their order, the updater installs for an `apply` what its operator
has reviewed, in a run in which the file is kept for it. -/
theorem installs_reviewed {β : Type} (R : Readers β) (staged : β) (as : List (Act β))
    (h : Guarded (step R) (Kept R) ⟨staged, []⟩ as) :
    Throughout (step R) Reviewed ⟨staged, []⟩ as :=
  throughout_of_invariant staged_step Staged.reviewed
    ⟨nofun, nofun⟩ h

def release (version compatibility : String) : Manifest :=
  ⟨1, version, "1.0.0", [appImage "backend" "images/backend.tar" [1]], compatibility, []⟩

def additive : Manifest := release "1.3.0" "additive"

def releases : Archive :=
  { plainArchive with
    decode := fun json => [additive, release "1.3.0" "breaking",
      release "2.0.0" "breaking"][json.length]? }

def readers : Readers (List TarItem) :=
  let keys := [stampSignatures.publicOf ()]
  .ofKeys releases stampSignatures keys keys "1.2.0"

def bundle (k : ℕ) : List TarItem :=
  [.entry manifestName (List.replicate k 0),
    .entry sigName (stampSignatures.sign () (List.replicate k 0))]

def review : List (Act (List TarItem)) :=
  [.preview, .write 0 (bundle 0), .advance 0 true, .advance 0 true, .confirm 0]

def carryOut : List (Act (List TarItem)) :=
  [.advance 1 true, .advance 1 true, .advance 1 true, .advance 1 true]

def callsAfter (as : List (Act (List TarItem))) : Option (List Pc) :=
  (exec (step readers) ⟨[], []⟩ as).map Pool.calls

instance (s : Pool (List TarItem) Pc) : DecidablePred (Kept readers s)
  | .write _ b => inferInstanceAs
    (Decidable (∀ p ∈ s.calls, ∀ r ∈ p.pending, ∀ m ∈ readers.reopen b, m = r))
  | .advance c _ =>
    match h : s.call c with
    | some (.confirmed r) => decidable_of_iff
        (∀ m ∈ readers.verify s.store, (r.version = "" ∨ r.version = m.version) → m = r)
        (by simp [Kept, h])
    | none | some .uploading | some .previewing | some (.previewed _) | some .pulling | some
        (.applying _)
    | some (.dispatching _) | some (.reopening _) | some (.installing _ _) | some .failed =>
      isTrue (by simp [Kept, h])
  | .preview | .pull | .confirm _ => isTrue trivial

theorem installs_reviewed_alone : Throughout (step readers) Reviewed ⟨[], []⟩ (review ++ carryOut) ∧
    callsAfter (review ++ carryOut) = some [.previewed additive,
      .installing (some additive) additive] := by
  exact ⟨installs_reviewed readers [] _ (by decide +kernel), by decide +kernel⟩

/-- Another operator uploads a bundle of the same version before the handler reads the file, or a
bundle of another version after it. -/
theorem installs_unreviewed :
    callsAfter (review ++ [.preview, .write 2 (bundle 1)] ++ carryOut) =
      some [.previewed additive, .installing (some additive) (release "1.3.0" "breaking"),
        .uploading] ∧
    callsAfter (review ++ [.advance 1 true, .preview, .write 2 (bundle 2), .advance 1 true,
      .advance 1 true, .advance 1 true]) =
      some [.previewed additive, .installing (some additive) (release "2.0.0" "breaking"),
        .uploading] ∧
    release "2.0.0" "breaking" ≠ additive := by
  decide +kernel

end Moorgate.Upgrade
