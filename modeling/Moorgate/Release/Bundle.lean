import Mathlib.Data.List.Sort
import Moorgate.Release.Manifest

/-!
# Signed bundles: `release/bundle.go`

A bundle is a tar of the manifest, its signature and the images. `Open` checks the signature and
the manifest, `ExtractImages` writes each image to a directory and compares its digest. The images
are looked up by their file, written under their base name, and keyed by component. Where two
images share one of these, the later takes the place of the earlier after its digest was compared.
What is extracted is what was signed for the manifests without such a clash, and for no others that
can be extracted at all (`bundle_yields_signed_iff`).
-/

namespace Moorgate.Release

open Framework

abbrev Bytes := List UInt8

def manifestName : String := "manifest.json"
def sigName : String := "manifest.sig"

def base (path : String) : String :=
  if path = "" then "."
  else
    match path.toList.reverse.dropWhile (· = '/') with
    | [] => "/"
    | l => String.ofList (l.takeWhile (· ≠ '/')).reverse

/-- What the package calls: SHA-256 in hexadecimal, `strconv.Quote`, `json.Unmarshal` of a manifest,
and the names under which the directory takes a file. -/
structure Archive where
  sha256 : Bytes → String
  quote : String → String
  decode : Bytes → Option Manifest
  creatable : String → Bool

def trailingSlash (name : String) : Bool := name.toList.getLast? == some '/'

/-- The names that the writer of `archive/tar` takes for a regular file. -/
def tarName (name : String) : Bool := name.toList.all (fun c => c != '\x00') && !trailingSlash name

/-- What the reader can find: an entry whose name ends in a slash is a directory, without content.
-/
def tarEntry (name : String) (content : Bytes) : Bool :=
  name.toList.all (fun c => c != '\x00') && (!trailingSlash name || content.isEmpty)

/-- `crypto/ed25519`. -/
structure Signatures where
  PrivateKey : Type
  publicOf : PrivateKey → Bytes
  sign : PrivateKey → Bytes → Bytes
  verify : Bytes → Bytes → Bytes → Bool
  length_publicOf : ∀ key, (publicOf key).length = 32
  length_sign : ∀ key msg, (sign key msg).length = 64
  verify_sign : ∀ key msg, verify (publicOf key) msg (sign key msg)

/-- What the reader finds next: an entry, an entry that cannot be read to its end, or an error. -/
inductive TarItem where
  | entry (name : String) (content : Bytes)
  | torn (name : String)
  | bad

section

variable (A : Archive) (S : Signatures)

def Archive.digest (content : Bytes) : String := "sha256:" ++ A.sha256 content

/-! ## Writing -/

/-- The header of an entry is refused where the name does not fit a tar. -/
def writeTar (name : String) (content : Bytes) : Except String TarItem :=
  if tarName name then .ok (.entry name content) else .error "archive/tar: cannot encode header"

def writeAll : List (String × Bytes) → Except String (List TarItem)
  | [] => .ok []
  | (name, content) :: rest => do
      let e ← writeTar name content
      let es ← writeAll rest
      return e :: es

/-- `imageFiles` has the contents of the files on disk, by their path in the bundle. -/
def writeBundle (manifestJSON sig : Bytes) (imageFiles : List (String × Bytes)) :
    Except String (List TarItem) :=
  writeAll ((manifestName, manifestJSON) :: (sigName, sig) :: imageFiles.mergeSort fun a b => decide
    (a.1 ≤ b.1))

/-! ## `Open` -/

def verify (manifestJSON sig : Bytes) (trusted : List Bytes) : Except String Unit := do
  refuseIf trusted.isEmpty "no trusted release keys configured; refusing to trust the bundle"
  refuseIf (decide (sig.length ≠ 64))
    ("signature is not a valid Ed25519 signature (" ++ toString sig.length ++ " bytes)")
  refuseIf (!trusted.any fun pub => decide (pub.length = 32) && S.verify pub manifestJSON sig)
    "bundle signature does not match any trusted release key"

def readEntry (name : String) (limit : ℕ) (place what : String) :
    List TarItem → Except String (Bytes × List TarItem)
  | .entry n content :: rest =>
    if n = name then .ok (content.take limit, rest)
    else .error ("bundle: expected " ++ name ++ " as the " ++ place ++ " entry")
  | .torn n :: _ =>
    if n = name then .error ("bundle: read " ++ what)
    else .error ("bundle: expected " ++ name ++ " as the " ++ place ++ " entry")
  | _ => .error ("bundle: expected " ++ name ++ " as the " ++ place ++ " entry")

def openReader (tar : List TarItem) (trusted : List Bytes) :
    Except String (Manifest × List TarItem) := do
  let (manifestJSON, tar) ← readEntry manifestName (2 ^ 20) "first" "manifest" tar
  let (sig, tar) ← readEntry sigName 4096 "second" "signature" tar
  verify S manifestJSON sig trusted
  match A.decode manifestJSON with
  | none => .error "bundle: parse manifest"
  | some m =>
    m.validate A.quote
    return (m, tar)

/-! ## `ExtractImages` -/

def addFile (files : String → Option ImageRef) (im : ImageRef) : String → Option ImageRef :=
  Function.update files im.file (some im)

def byFile (images : List ImageRef) : String → Option ImageRef := images.foldl addFile fun _ => none

/-- `dir` has the contents of the directory by name, `out` the name of the file by component. -/
structure Extraction where
  seen : List String
  out : String → Option String
  dir : String → Option Bytes

def Extraction.put (x : Extraction) (im : ImageRef) (name : String) (content : Bytes) :
    Extraction where
  seen := name :: x.seen
  out := Function.update x.out im.component (some (base name))
  dir := Function.update x.dir (base name) (some content)

def checkEntry (im : ImageRef) (content : Bytes) : Except String Unit := do
  refuseIf (decide (A.digest content ≠ im.digest))
    ("bundle: image " ++ im.component ++ " digest mismatch (manifest " ++ im.digest ++
    ", actual " ++
      A.digest content ++ ")")
  refuseIf (decide (im.bytes ≠ 0 ∧ (content.length : ℤ) ≠ im.bytes))
    ("bundle: image " ++ im.component ++ " size mismatch (manifest " ++ toString im.bytes ++
    ", actual " ++
      toString content.length ++ ")")

def extractFrom (images : List ImageRef) (x : Extraction) : List TarItem → Except String Extraction
  | [] => .ok x
  | .bad :: _ => .error "bundle: read image entry"
  | .torn name :: _ =>
    match byFile images name with
    | none => .error ("bundle: unexpected entry " ++ A.quote name ++ " not in manifest")
    | some _ => .error "unexpected EOF"
  | .entry name content :: rest =>
    match byFile images name with
    | none => .error ("bundle: unexpected entry " ++ A.quote name ++ " not in manifest")
    | some im => do
        refuseIf (!A.creatable (base name)) ("open " ++ base name)
        checkEntry A im content
        extractFrom images (x.put im name content) rest

def missing (seen : List String) (images : List ImageRef) : Option ImageRef :=
  images.find? fun im => decide (im.file ∉ seen)

/-- `dir` is what the directory has before. -/
def extractImages (m : Manifest) (dir : String → Option Bytes) (tar : List TarItem) :
    Except String Extraction := do
  let x ← extractFrom A m.images ⟨[], fun _ => none, dir⟩ tar
  match missing x.seen m.images with
  | some im => .error ("bundle: manifest image " ++ im.component ++ " (" ++ im.file ++
      ") is missing from the bundle")
  | none => return x

end

/-! ## What is extracted -/

section

variable {A : Archive} {images : List ImageRef} {m : Manifest} {x y : Extraction}
  {es : List (String × Bytes)} {im : ImageRef} {name : String}

theorem foldl_place {σ ε ν : Type*} {step : σ → ε → σ} (place : σ → ν) {P : ε → Prop}
    [DecidablePred P] {v : ε → ν} {l : List ε} (s : σ)
    (hstep : ∀ s, ∀ e ∈ l, place (step s e) = if P e then v e else place s) :
    (∃ e ∈ l, P e ∧ place (l.foldl step s) = v e) ∨
    ((∀ e ∈ l, ¬ P e) ∧ place (l.foldl step s) = place s) := by
  induction l generalizing s with
  | nil => exact .inr ⟨nofun, rfl⟩
  | cons e l ih =>
    rcases ih (step s e) fun s e' he' => hstep s e' (List.mem_cons_of_mem e he') with
      ⟨e', he', hlast⟩ | ⟨hnone, hlast⟩
    · exact .inl ⟨e', List.mem_cons_of_mem e he', hlast⟩
    have hhead := hlast.trans (hstep s e List.mem_cons_self)
    by_cases he : P e
    · exact .inl ⟨e, List.mem_cons_self, he, hhead.trans (if_pos he)⟩
    · exact .inr ⟨List.forall_mem_cons.mpr ⟨he, hnone⟩, hhead.trans (if_neg he)⟩

theorem byFile_cases (images : List ImageRef) (name : String) :
    (∃ im ∈ images, name = im.file ∧ byFile images name = some im) ∨
      ((∀ im ∈ images, name ≠ im.file) ∧ byFile images name = none) :=
  foldl_place (fun files : String → Option ImageRef => files name) _ fun _ _ _ =>
    Function.update_apply ..

theorem byFile_eq_some (h : byFile images name = some im) : im ∈ images ∧ im.file = name := by
  rcases byFile_cases images name with ⟨im', him', hfile, hlast⟩ | ⟨-, hlast⟩
  · cases Option.some.inj (hlast.symm.trans h)
    exact ⟨him', hfile.symm⟩
  · cases hlast.symm.trans h

theorem exists_byFile (h : im ∈ images) : ∃ im', byFile images im.file = some im' := by
  rcases byFile_cases images im.file with ⟨im', -, -, hlast⟩ | ⟨hnone, -⟩
  · exact ⟨im', hlast⟩
  · exact absurd rfl (hnone im h)

theorem byFile_of_nodup (hnodup : (images.map ImageRef.file).Nodup) (h : im ∈ images) :
    byFile images im.file = some im := by
  obtain ⟨im', him'⟩ := exists_byFile h
  obtain ⟨hmem, hfile⟩ := byFile_eq_some him'
  rw [him', List.inj_on_of_nodup_map hnodup hmem h hfile]

/-- The entry passes the checks for the image of its name. -/
structure Fits (A : Archive) (images : List ImageRef) (e : String × Bytes) (im : ImageRef) :
    Prop where
  image : byFile images e.1 = some im
  creatable : A.creatable (base e.1)
  digest : A.digest e.2 = im.digest
  bytes : im.bytes = 0 ∨ (e.2.length : ℤ) = im.bytes

def item (e : String × Bytes) : TarItem := .entry e.1 e.2

def putAll (images : List ImageRef) (x : Extraction) (es : List (String × Bytes)) : Extraction :=
  es.foldl (fun x e => match byFile images e.1 with
    | some im => x.put im e.1 e.2
    | none => x) x

variable {content : Bytes}

theorem out_put (component : String) :
    (x.put im name content).out component = if component = im.component then some (base name)
      else x.out component :=
  Function.update_apply _ _ _ _

theorem dir_put (file : String) :
    (x.put im name content).dir file = if file = base name then some content else x.dir file :=
  Function.update_apply _ _ _ _

variable {e : String × Bytes}

theorem putAll_cons (h : byFile images e.1 = some im) :
    putAll images x (e :: es) = putAll images (x.put im e.1 e.2) es := by
  unfold putAll
  rw [List.foldl_cons, h]

theorem checkEntry_eq_ok :
    checkEntry A im content = .ok () ↔ A.digest content = im.digest ∧
    (im.bytes = 0 ∨ (content.length : ℤ) = im.bytes) := by
  unfold checkEntry
  rw [refuseIf_bind_eq_ok, refuseIf_eq_ok, decide_eq_false_iff_not, decide_eq_false_iff_not,
    not_not, not_and, not_not, or_iff_not_imp_left]

theorem extractFrom_eq_ok {tar : List TarItem} : extractFrom A images x tar = .ok y ↔
      ∃ es, tar = es.map item ∧ (∀ e ∈ es, ∃ im, Fits A images e im) ∧ y = putAll images x es := by
  fun_induction extractFrom A images x tar with
  | case1 x =>
    constructor
    · intro h
      exact ⟨[], rfl, nofun, (Except.ok.inj h).symm⟩
    · rintro ⟨es, hes, -, rfl⟩
      rw [List.map_eq_nil_iff.mp hes.symm]
      rfl
  | case2 | case3 | case4 => exact ⟨nofun, fun ⟨es, hes, _⟩ => by cases es <;> cases hes⟩
  | case5 x name content rest hnone =>
    refine ⟨nofun, ?_⟩
    rintro ⟨es, hes, hfits, -⟩
    obtain ⟨e, es, rfl, he, -⟩ := List.map_eq_cons_iff.mp hes.symm
    cases he
    obtain ⟨im, hfit⟩ := hfits e List.mem_cons_self
    cases hnone.symm.trans hfit.image
  | case6 x name content rest im him ih =>
    rw [refuseIf_bind_eq_ok, bind_eq_ok, Bool.not_eq_false']
    constructor
    · rintro ⟨hcreate, ⟨⟩, hcheck, hrest⟩
      obtain ⟨hdigest, hbytes⟩ := checkEntry_eq_ok.mp hcheck
      obtain ⟨es, rfl, hfits, rfl⟩ := ih.mp hrest
      refine ⟨(name, content) :: es, rfl, ?_, ?_⟩
      · exact List.forall_mem_cons.mpr ⟨⟨im, him, hcreate, hdigest, hbytes⟩, hfits⟩
      · exact (putAll_cons (e := (name, content)) him).symm
    · rintro ⟨es, hes, hfits, rfl⟩
      obtain ⟨e, es, rfl, he, rfl⟩ := List.map_eq_cons_iff.mp hes.symm
      cases he
      obtain ⟨⟨im', hfit⟩, hfits⟩ := List.forall_mem_cons.mp hfits
      cases Option.some.inj (him.symm.trans hfit.image)
      refine ⟨hfit.creatable, (), checkEntry_eq_ok.mpr ⟨hfit.digest, hfit.bytes⟩, ?_⟩
      exact ih.mpr ⟨es, rfl, hfits, putAll_cons him⟩

theorem seen_putAll (hfits : ∀ e ∈ es, ∃ im, Fits A images e im) :
    name ∈ (putAll images x es).seen ↔ name ∈ x.seen ∨ ∃ e ∈ es, e.1 = name := by
  induction es generalizing x with
  | nil => simp [putAll]
  | cons e es ih =>
    obtain ⟨⟨im, hfit⟩, hfits⟩ := List.forall_mem_cons.mp hfits
    rw [putAll_cons hfit.image, ih hfits]
    simp only [Extraction.put, List.mem_cons]
    grind

/-- `ExtractImages` succeeds exactly on the entries that pass, among them every file. -/
theorem extractImages_eq_ok {dir : String → Option Bytes} {tar : List TarItem} :
    extractImages A m dir tar = .ok y ↔
      ∃ es, tar = es.map item ∧ (∀ e ∈ es, ∃ im, Fits A m.images e im) ∧
      (∀ im ∈ m.images, ∃ e ∈ es, e.1 = im.file) ∧
        y = putAll m.images ⟨[], fun _ => none, dir⟩ es := by
  have hmissing : ∀ seen, missing seen m.images = none ↔ ∀ im ∈ m.images, im.file ∈ seen := by
    simp [missing]
  unfold extractImages
  rw [bind_eq_ok]
  constructor
  · rintro ⟨z, hz, h⟩
    obtain ⟨es, rfl, hfits, rfl⟩ := extractFrom_eq_ok.mp hz
    split at h
    · cases h
    rename_i hnone
    refine ⟨es, rfl, hfits, fun im him => ?_, (Except.ok.inj h).symm⟩
    rcases (seen_putAll hfits).mp ((hmissing _).mp hnone im him) with hseen | hmem
    · cases hseen
    · exact hmem
  · rintro ⟨es, rfl, hfits, hall, rfl⟩
    refine ⟨_, extractFrom_eq_ok.mpr ⟨es, rfl, hfits, rfl⟩, ?_⟩
    have hnone := (hmissing (putAll m.images ⟨[], fun _ => none, dir⟩ es).seen).mpr fun im him =>
      (seen_putAll hfits).mpr (.inr (hall im him))
    rw [hnone]
    rfl

theorem out_putAll (images : List ImageRef) (x : Extraction) (es : List (String × Bytes))
    (component : String) : (∃ e ∈ es, (byFile images e.1).map ImageRef.component = some component ∧
      (putAll images x es).out component = some (base e.1)) ∨
    ((∀ e ∈ es, (byFile images e.1).map ImageRef.component ≠ some component) ∧
      (putAll images x es).out component = x.out component) := by
  refine foldl_place (fun x : Extraction => x.out component) x fun x e _ => ?_
  cases byFile images e.1 with
  | none => rfl
  | some im => simp [out_put, eq_comm]

theorem dir_putAll (hfits : ∀ e ∈ es, ∃ im, Fits A images e im) (x : Extraction) (name : String) :
    (∃ e ∈ es, name = base e.1 ∧ (putAll images x es).dir name = some e.2) ∨
    ((∀ e ∈ es, name ≠ base e.1) ∧ (putAll images x es).dir name = x.dir name) := by
  refine foldl_place (fun x : Extraction => x.dir name) x fun x e he => ?_
  obtain ⟨im, hfit⟩ := hfits e he
  rw [hfit.image]
  exact dir_put name

/-- Every file that is there for an image has the digest that was signed: the one that `out` has for
its component, and the one that the updater loads. -/
def SignedFiles (A : Archive) (m : Manifest) (y : Extraction) : Prop :=
  ∀ im ∈ m.images,
    (∃ name content, y.out im.component = some name ∧ y.dir name = some content ∧ A.digest content =
    im.digest) ∧ ∃ content, y.dir (base im.file) = some content ∧ A.digest content = im.digest

/-- Some stream can be extracted: every file has a name that can be stored and created, and some
content has the digest and the size. -/
def Extractable (A : Archive) (m : Manifest) : Prop :=
  ∀ im ∈ m.images, ∃ content im', tarEntry im.file content ∧ Fits A m.images (im.file, content) im'

/-- No image takes the place of another with a different digest: the last image of a file names its
component, and the files that can be under the name of one of its files have its digest. -/
def Unambiguous (m : Manifest) : Prop :=
  ∀ im ∈ m.images,
    (∃ f im', byFile m.images f = some im' ∧ im'.component = im.component) ∧
    (∀ f im', byFile m.images f = some im' → im'.component = im.component →
      ∀ g im'', byFile m.images g = some im'' → base g = base f → im''.digest = im.digest) ∧
    ∀ g im'', byFile m.images g = some im'' → base g = base im.file → im''.digest = im.digest

theorem signedFiles_of_unambiguous (hm : Unambiguous m)
    (hfits : ∀ e ∈ es, ∃ im, Fits A m.images e im)
    (hall : ∀ im ∈ m.images, ∃ e ∈ es, e.1 = im.file) : SignedFiles A m (putAll m.images x es) := by
  intro im him
  obtain ⟨⟨f, im₁, hf, hcomponent⟩, hout, hload⟩ := hm im him
  constructor
  · -- some entry is for the component, and what its name has in the end is of the same digest
    obtain ⟨him₁, hfile₁⟩ := byFile_eq_some hf
    obtain ⟨e₁, he₁, hname₁⟩ := hall im₁ him₁
    rcases out_putAll m.images x es im.component with ⟨e, he, hc, hname⟩ | ⟨hnone, -⟩
    · obtain ⟨im₂, himage, hc⟩ := Option.map_eq_some_iff.mp hc
      rcases dir_putAll hfits x (base e.1) with ⟨e', he', hbase, hdir⟩ | ⟨hnone, -⟩
      · obtain ⟨im₃, hfit'⟩ := hfits e' he'
        refine ⟨base e.1, e'.2, hname, hdir, hfit'.digest.trans ?_⟩
        exact hout e.1 im₂ himage hc e'.1 im₃ hfit'.image hbase.symm
      · exact absurd rfl (hnone e he)
    · refine absurd ?_ (hnone e₁ he₁)
      rw [hname₁, hfile₁, hf, ← hcomponent]
      rfl
  · obtain ⟨e₁, he₁, hname₁⟩ := hall im him
    rcases dir_putAll hfits x (base im.file) with ⟨e', he', hbase, hdir⟩ | ⟨hnone, -⟩
    · obtain ⟨im₃, hfit'⟩ := hfits e' he'
      exact ⟨e'.2, hdir, hfit'.digest.trans (hload e'.1 im₃ hfit'.image hbase.symm)⟩
    · exact absurd (congrArg base hname₁).symm (hnone e₁ he₁)

def ExtractsSigned (A : Archive) (m : Manifest) : Prop :=
  ∀ dir tar y, (∀ name content, .entry name content ∈ tar → tarEntry name content) →
    extractImages A m dir tar = .ok y → SignedFiles A m y

theorem putAll_append (es es' : List (String × Bytes)) :
    putAll images x (es ++ es') = putAll images (putAll images x es) es' := List.foldl_append

def Passes (A : Archive) (images : List ImageRef) (e : String × Bytes) : Prop :=
  tarEntry e.1 e.2 ∧ ∃ im, Fits A images e im

theorem exists_fits (hx : Extractable A m) (h : byFile m.images name = some im) :
    ∃ content, tarEntry name content ∧ Fits A m.images (name, content) im := by
  obtain ⟨him, rfl⟩ := byFile_eq_some h
  obtain ⟨content, im', hentry, hfit⟩ := hx im him
  cases Option.some.inj (h.symm.trans hfit.image)
  exact ⟨content, hentry, hfit⟩

theorem signedFiles_of_extractsSigned (hx : Extractable A m) (hs : ExtractsSigned A m) :
    ∃ all : List (String × Bytes), ∀ es, (∀ e ∈ es, Passes A m.images e) →
      SignedFiles A m (putAll m.images (putAll m.images ⟨[], fun _ => none, fun _ => none⟩ all)
        es) := by
  have hcontent : ∀ im : ImageRef, ∃ content, im ∈ m.images →
      Passes A m.images (im.file, content) := by
    intro im
    by_cases him : im ∈ m.images
    · obtain ⟨content, im', hentry, hfit⟩ := hx im him
      exact ⟨content, fun _ => ⟨hentry, im', hfit⟩⟩
    · exact ⟨[], fun h => absurd h him⟩
  choose content hcontent using hcontent
  refine ⟨m.images.map fun im => (im.file, content im), fun es hes => ?_⟩
  have hboth : ∀ e ∈ m.images.map (fun im => (im.file, content im)) ++ es, Passes A m.images e := by
    refine List.forall_mem_append.mpr ⟨fun e he => ?_, hes⟩
    obtain ⟨im, him, rfl⟩ := List.mem_map.mp he
    exact hcontent im him
  rw [← putAll_append]
  refine hs (fun _ => none) _ _ ?_
    (extractImages_eq_ok.mpr ⟨_, rfl, fun e he => (hboth e he).2, fun im him => ?_, rfl⟩)
  · intro name c hc
    obtain ⟨e, he, ⟨⟩⟩ := List.mem_map.mp hc
    exact (hboth e he).1
  · exact ⟨_, List.mem_append_left _ (List.mem_map_of_mem him), rfl⟩

theorem putAll_singleton (h : Fits A images e im) : putAll images x [e] = x.put im e.1 e.2 :=
  putAll_cons h.image

theorem unambiguous_of_extractsSigned (hx : Extractable A m) (hs : ExtractsSigned A m) :
    Unambiguous m := by
  obtain ⟨all, hsigned⟩ := signedFiles_of_extractsSigned hx hs
  intro im him
  refine ⟨?_, fun f im' hf hc g im'' hg hbase => ?_, fun g im'' hg hbase => ?_⟩
  · obtain ⟨⟨name, -, hname, -⟩, -⟩ := hsigned [] nofun im him
    rcases out_putAll m.images ⟨[], fun _ => none, fun _ => none⟩ all im.component with
      ⟨e, -, hc, -⟩ | ⟨-, hout⟩
    · exact ⟨e.1, Option.map_eq_some_iff.mp hc⟩
    · cases hout.symm.trans hname
  · -- the file of the component, and then the other under its name
    obtain ⟨c, hentry, hfit⟩ := exists_fits hx hf
    obtain ⟨c', hentry', hfit'⟩ := exists_fits hx hg
    obtain ⟨⟨name, content, hname, hdir, hdigest⟩, -⟩ := hsigned [(f, c), (g, c')]
      (List.forall_mem_cons.mpr ⟨⟨hentry, im', hfit⟩,
        List.forall_mem_singleton.mpr ⟨hentry', im'', hfit'⟩⟩) im him
    rw [putAll_cons hfit.image, putAll_singleton hfit'] at hname hdir
    have hout : name = base f := by
      rw [out_put, out_put, if_pos hc.symm] at hname
      split at hname
      · exact (Option.some.inj hname).symm.trans hbase
      · exact (Option.some.inj hname).symm
    rw [hout, dir_put, if_pos hbase.symm] at hdir
    rw [← hfit'.digest, Option.some.inj hdir, hdigest]
  · obtain ⟨c', hentry', hfit'⟩ := exists_fits hx hg
    obtain ⟨-, content, hdir, hdigest⟩ := hsigned [(g, c')]
      (List.forall_mem_singleton.mpr ⟨hentry', im'', hfit'⟩) im him
    rw [putAll_singleton hfit', dir_put, if_pos hbase.symm] at hdir
    rw [← hfit'.digest, Option.some.inj hdir, hdigest]

theorem extractsSigned_iff (A : Archive) (m : Manifest) :
    ExtractsSigned A m ↔ (Extractable A m → Unambiguous m) := by
  constructor
  · exact fun hs hx => unambiguous_of_extractsSigned hx hs
  intro himp dir tar y hnames hok
  obtain ⟨es, rfl, hfits, hall, rfl⟩ := extractImages_eq_ok.mp hok
  have hx : Extractable A m := by
    intro im him
    obtain ⟨e, he, hfile⟩ := hall im him
    obtain ⟨im', hfit⟩ := hfits e he
    rw [← hfile]
    exact ⟨e.2, im', hnames e.1 e.2 (List.mem_map_of_mem he), hfit⟩
  exact signedFiles_of_unambiguous (himp hx) hfits hall

end

/-! ## Writing a bundle and reading it -/

/-- What is published: the manifest with its text, the key, and the files that it pins. -/
structure Publication (A : Archive) (S : Signatures) where
  manifest : Manifest
  manifestJSON : Bytes
  key : S.PrivateKey
  imageFiles : List (String × Bytes)
  decodes : A.decode manifestJSON = some manifest
  size : manifestJSON.length ≤ 2 ^ 20
  valid : manifest.validate A.quote = .ok ()
  distinct : (manifest.images.map ImageRef.file).Nodup
  pinned : ∀ e ∈ imageFiles, ∃ im ∈ manifest.images, im.file = e.1 ∧ A.digest e.2 = im.digest ∧
    (im.bytes = 0 ∨ (e.2.length : ℤ) = im.bytes)
  complete : ∀ im ∈ manifest.images, ∃ e ∈ imageFiles, e.1 = im.file

section

variable {A : Archive} {S : Signatures}

/-- `WriteBundle`, then `Open` with the signing key, then `ExtractImages` into a new directory. -/
def Publication.publish (p : Publication A S) : Except String Extraction := do
  let tar ← writeBundle p.manifestJSON (S.sign p.key p.manifestJSON) p.imageFiles
  let (m, tar) ← openReader A S tar [S.publicOf p.key]
  extractImages A m (fun _ => none) tar

theorem writeAll_eq_ok {files : List (String × Bytes)} {tar : List TarItem} :
    writeAll files = .ok tar ↔ (∀ e ∈ files, tarName e.1) ∧ tar = files.map item := by
  induction files generalizing tar with
  | nil => exact ⟨fun h => ⟨nofun, (Except.ok.inj h).symm⟩, fun h => by rw [h.2]; rfl⟩
  | cons e files ih =>
    rw [writeAll, bind_eq_ok, List.forall_mem_cons, List.map_cons]
    constructor
    · rintro ⟨t, ht, hrest⟩
      obtain ⟨ts, hts, hcons⟩ := bind_eq_ok.mp hrest
      obtain ⟨hnames, rfl⟩ := ih.mp hts
      unfold writeTar at ht
      split at ht
      · rename_i hname
        cases ht
        exact ⟨⟨hname, hnames⟩, (Except.ok.inj hcons).symm⟩
      · cases ht
    · rintro ⟨⟨hname, hnames⟩, rfl⟩
      exact ⟨item e, if_pos hname, bind_eq_ok.mpr ⟨files.map item, ih.mpr ⟨hnames, rfl⟩, rfl⟩⟩

theorem verify_sign (S : Signatures) (key : S.PrivateKey) (msg : Bytes) :
    verify S msg (S.sign key msg) [S.publicOf key] = .ok () := by
  unfold verify
  rw [refuseIf_bind_eq_ok, refuseIf_bind_eq_ok, refuseIf_eq_ok]
  refine ⟨rfl, decide_eq_false (not_not_intro (S.length_sign key msg)), ?_⟩
  rw [List.any_cons, decide_eq_true (S.length_publicOf key), S.verify_sign]
  rfl

variable (p : Publication A S)

theorem openReader_written (tar : List TarItem) :
    openReader A S (item (manifestName, p.manifestJSON) :: item (sigName,
      S.sign p.key p.manifestJSON) :: tar) [S.publicOf p.key] = .ok (p.manifest, tar) := by
  have hjson : readEntry manifestName (2 ^ 20) "first" "manifest"
      (item (manifestName, p.manifestJSON) :: item (sigName, S.sign p.key p.manifestJSON) :: tar) =
        .ok (p.manifestJSON, item (sigName, S.sign p.key p.manifestJSON) :: tar) := by
    rw [item, readEntry, if_pos rfl, List.take_of_length_le p.size]
  have hsig : readEntry sigName 4096 "second" "signature" (item (sigName,
      S.sign p.key p.manifestJSON) :: tar) = .ok (S.sign p.key p.manifestJSON, tar) := by
    rw [item, readEntry, if_pos rfl, List.take_of_length_le (by rw [S.length_sign]; decide)]
  unfold openReader
  rw [bind_eq_ok]
  refine ⟨_, hjson,
    bind_eq_ok.mpr ⟨_, hsig, bind_eq_ok.mpr ⟨(), verify_sign S p.key p.manifestJSON, ?_⟩⟩⟩
  rw [p.decodes]
  exact bind_eq_ok.mpr ⟨(), p.valid, rfl⟩

theorem item_injective : Function.Injective item := by
  rintro ⟨name, content⟩ ⟨name', content'⟩ h
  cases h
  rfl

theorem fits_iff {e : String × Bytes} (he : e ∈ p.imageFiles) :
    (∃ im, Fits A p.manifest.images e im) ↔ A.creatable (base e.1) := by
  constructor
  · rintro ⟨im, hfit⟩
    exact hfit.creatable
  · intro hcreate
    obtain ⟨im, him, hfile, hdigest, hbytes⟩ := p.pinned e he
    exact ⟨im, hfile ▸ byFile_of_nodup p.distinct him, hcreate, hdigest, hbytes⟩

/-- The round trip succeeds exactly if every name can be stored and created. -/
theorem publish_eq_ok_iff : (∃ y, p.publish = .ok y) ↔
      ∀ im ∈ p.manifest.images, tarName im.file ∧ A.creatable (base im.file) := by
  have hsorted : ∀ e, e ∈ p.imageFiles.mergeSort (fun a b => decide (a.1 ≤ b.1)) ↔
      e ∈ p.imageFiles :=
    fun e => (List.mergeSort_perm p.imageFiles _).mem_iff
  have hnames : (∀ im ∈ p.manifest.images, tarName im.file ∧ A.creatable (base im.file)) ↔
      ∀ e ∈ p.imageFiles, tarName e.1 ∧ A.creatable (base e.1) := by
    constructor
    · intro hall e he
      obtain ⟨im, him, hfile, -⟩ := p.pinned e he
      exact hfile ▸ hall im him
    · intro hall im him
      obtain ⟨e, he, hfile⟩ := p.complete im him
      exact hfile ▸ hall e he
  rw [hnames]
  constructor
  · rintro ⟨y, hy⟩ e he
    obtain ⟨tar, hwrite, hy⟩ := bind_eq_ok.mp hy
    obtain ⟨htar, rfl⟩ := writeAll_eq_ok.mp hwrite
    obtain ⟨opened, hopen, hy⟩ := bind_eq_ok.mp hy
    cases Except.ok.inj ((openReader_written p _).symm.trans hopen)
    obtain ⟨es, hes, hfits, -, -⟩ := extractImages_eq_ok.mp hy
    have hmem : e ∈ es := by
      rw [← List.map_injective_iff.mpr item_injective hes]
      exact (hsorted e).mpr he
    exact ⟨htar e (List.mem_cons_of_mem _ (List.mem_cons_of_mem _ ((hsorted e).mpr he))),
      (fits_iff p he).mp (hfits e hmem)⟩
  · intro hall
    let files := p.imageFiles.mergeSort fun a b => decide (a.1 ≤ b.1)
    refine ⟨putAll p.manifest.images ⟨[], fun _ => none, fun _ => none⟩ files,
      bind_eq_ok.mpr ⟨_, writeAll_eq_ok.mpr ⟨?_, rfl⟩, ?_⟩⟩
    · have hmanifest : tarName manifestName := by decide
      have hsig : tarName sigName := by decide
      refine List.forall_mem_cons.mpr ⟨hmanifest, List.forall_mem_cons.mpr ⟨hsig, fun e he => ?_⟩⟩
      exact (hall e ((hsorted e).mp he)).1
    · refine bind_eq_ok.mpr ⟨_, openReader_written p _, extractImages_eq_ok.mpr ⟨_, rfl, ?_,
        ?_, rfl⟩⟩
      · intro e he
        exact (fits_iff p ((hsorted e).mp he)).mpr (hall e ((hsorted e).mp he)).2
      · intro im him
        obtain ⟨e, he, hfile⟩ := p.complete im him
        exact ⟨e, (hsorted e).mpr he, hfile⟩

end

def lengthDigest (content : Bytes) : String :=
  String.ofList (List.replicate 63 '0' ++ [Char.ofNat (48 + content.length)])

def plainArchive : Archive where
  sha256 := lengthDigest
  quote s := "\"" ++ s ++ "\""
  decode _ := none
  creatable name := name != "." && name != ".." && name != "/"

def appImage (component file : String) (content : Bytes) : ImageRef :=
  ⟨component, "fleet-terminal-" ++ component, "v1.0.1", file, "sha256:" ++ lengthDigest content, 0⟩

def twoApps : Manifest where
  schemaVersion := 1
  version := "v1.0.1"
  minFromVersion := "v1.0.0"
  images := [appImage "backend" "images/a/app.tar" [1],
    appImage "frontend" "images/b/app.tar" [1, 2]]
  migrationCompatibility := "additive"
  configAdditions := []

/-- Every message has the same signature. -/
def stampSignatures : Signatures where
  PrivateKey := Unit
  publicOf _ := List.replicate 32 7
  sign _ _ := List.replicate 64 9
  verify _ _ sig := sig == List.replicate 64 9
  length_publicOf _ := List.length_replicate
  length_sign _ _ := List.length_replicate
  verify_sign _ _ := by decide

def oneApp : Manifest := { twoApps with images := [appImage "backend" "images/a/app.tar" [1]] }

def oneRelease :
    Publication { plainArchive with decode := fun _ => some oneApp } stampSignatures where
  manifest := oneApp
  manifestJSON := [1]
  key := ()
  imageFiles := [("images/a/app.tar", [1])]
  decodes := rfl
  size := by decide
  valid := by decide +kernel
  distinct := by decide +kernel
  pinned := List.forall_mem_singleton.mpr ⟨_, List.mem_cons_self, rfl, rfl, .inl rfl⟩
  complete := List.forall_mem_singleton.mpr ⟨_, List.mem_cons_self, rfl⟩

end Moorgate.Release
