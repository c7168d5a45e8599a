import Moorgate.Framework.Base.Table
import Moorgate.Framework.Base.Text

/-!
# Microsoft update data: `ParseCVRF`, `UpdateOnline`, `Import` and `UpsertMSRC`

`msrc/msrc.go` makes one list of the rows of all documents, newest release first, and
`store/msrc.go` writes it in statements of 500 rows. Nothing merges rows of one key: two of them
in one statement make it fail, and of two in different statements the older release is written last.
-/

namespace Moorgate.Msrc

open Framework

structure CvrfVuln where
  (title cve : String)
  threats : List String
  cvssScoreSets : List (Rat × String)
  remediations : List String

structure CvrfDoc where
  id : String
  vulnerability : List CvrfVuln

structure MSRCEntry where
  (kb cve severity : String)
  cvss : Rat
  (vector title release : String)
deriving DecidableEq

def MSRCEntry.key (e : MSRCEntry) : String × String := (e.kb, e.cve)

abbrev MsrcUpdates := Table MSRCEntry.key

def kbNumber (s : String) : String :=
  let s := (trimSpace s).toList.map Char.toUpper
  let s := (s.dropPrefix? ['K', 'B']).getD s
  if 5 ≤ s.length ∧ s.length ≤ 8 ∧ s.all Char.isDigit then String.ofList s else ""

section

/- `toLower` is `strings.ToLower`, and `range` the order in which a map is gone through. -/
variable (toLower : String → String)

def severity (threats : List String) : String :=
  ((threats.map trimSpace).find? fun d =>
    decide (toLower d ∈ ["critical", "important", "moderate", "low"])).getD ""

def highest (sets : List (Rat × String)) : Rat × String :=
  sets.foldl (fun best c => if best.1 < c.1 then c else best) (0, "")

def vulnEntries (range : List String → List String) (release : String) (v : CvrfVuln) :
    List MSRCEntry :=
  let cve := trimSpace v.cve
  if cve = "" then []
  else
    let (cvss, vector) := highest v.cvssScoreSets
    (range ((v.remediations.map kbNumber).filter (· ≠ "")).eraseDups).map fun kb =>
      ⟨kb, cve, severity toLower v.threats, cvss, vector, trimSpace v.title, release⟩

def parseCVRF (range : ℕ → List String → List String) (doc : CvrfDoc) : List MSRCEntry :=
  doc.vulnerability.zipIdx.flatMap fun (v, n) => vulnEntries toLower (range n) (trimSpace doc.id) v

def parseAll (range : ℕ → ℕ → List String → List String) (docs : List CvrfDoc) :
    List (List MSRCEntry) :=
  docs.zipIdx.map fun (doc, n) => parseCVRF toLower (range n) doc

/-- The documents of the latest releases, newest first; `updates` has the oldest first, and what
`fetch` does not yield is skipped. -/
def fetched (months : ℤ) (updates : List String) (fetch : String → Option CvrfDoc) : List CvrfDoc :=
  ((updates.filter (· ≠ "")).reverse.take (if months ≤ 0 then 12 else months.toNat)).filterMap fetch

/-- `INSERT ... ON CONFLICT (kb, cve) DO UPDATE`, which may not meet a key twice. -/
def insertBatch (batch : List MSRCEntry) (t : MsrcUpdates) : Option MsrcUpdates :=
  if (batch.map MSRCEntry.key).Nodup then some (batch.foldl Table.upsert t) else none

/-- The rows from `500 * k` on, for every `k`. -/
def batches (rows : List MSRCEntry) : List (List MSRCEntry) :=
  (List.range ((rows.length + 499) / 500)).map fun k => (rows.drop (500 * k)).take 500

/-- Every statement commits on its own. -/
def insertAll : List (List MSRCEntry) → MsrcUpdates → Bool × MsrcUpdates
  | [], t => (true, t)
  | batch :: rest, t =>
    match insertBatch batch t with
    | none => (false, t)
    | some t' => insertAll rest t'

def upsertMSRC (rows : List MSRCEntry) (t : MsrcUpdates) : Bool × MsrcUpdates :=
  insertAll (batches rows) t

def storeRows (nothing : String) (rows : List MSRCEntry) (t : MsrcUpdates) :
    Except String ℕ × MsrcUpdates :=
  if rows = [] then (.error nothing, t)
  else
    match upsertMSRC rows t with
    | (true, t') => (.ok rows.length, t')
    | (false, t') => (.error "ON CONFLICT DO UPDATE command cannot affect row a second time", t')

def updateOnline (range : ℕ → ℕ → List String → List String) (months : ℤ) (updates : List String)
    (fetch : String → Option CvrfDoc) : MsrcUpdates → Except String ℕ × MsrcUpdates :=
  storeRows "no MSRC data retrieved" (parseAll toLower range (fetched months updates fetch)).flatten

def importDocs (range : ℕ → ℕ → List String → List String) (docs : List CvrfDoc) :
    MsrcUpdates → Except String ℕ × MsrcUpdates :=
  storeRows "no MSRC entries parsed from import" (parseAll toLower range docs).flatten

end

/-! ## What is stored -/

/-- For every pair of a document there is a row of the first document that has it. -/
def KeepsNewest (parsed : List (List MSRCEntry))
    (row : String × String → Option MSRCEntry) : Prop :=
  ∀ pair rows, parsed.find? (fun rows => decide (pair ∈ rows.map MSRCEntry.key)) = some rows →
    ∃ r ∈ rows, row pair = some r

def lastRow (rows : List MSRCEntry) (pair : String × String) : Option MSRCEntry :=
  rows.reverse.find? fun r => decide (r.key = pair)

def Apart (bs : List (List MSRCEntry)) : Prop := ∀ batch ∈ bs, (batch.map MSRCEntry.key).Nodup

def Stored (rows : List MSRCEntry) (res : Except String ℕ × MsrcUpdates) : Prop :=
  rows ≠ [] → res.1 = .ok rows.length

section

variable {parsed : List (List MSRCEntry)}

theorem flatten_batches (rows : List MSRCEntry) : (batches rows).flatten = rows := by
  have htake : ∀ n, ((List.range n).map fun k => (rows.drop (500 * k)).take 500).flatten =
      rows.take (500 * n) := by
    intro n
    induction n with
    | zero => rfl
    | succ n ih => rw [List.range_succ, List.map_append, List.flatten_append, ih, Nat.mul_succ,
        List.take_add]; simp
  rw [batches, htake, List.take_of_length_le]
  omega

theorem insertAll_cases (bs : List (List MSRCEntry)) (t : MsrcUpdates) :
    (Apart bs ∧ insertAll bs t = (true, bs.flatten.foldl Table.upsert t)) ∨
      (¬ Apart bs ∧ ∃ t', insertAll bs t = (false, t')) := by
  induction bs generalizing t with
  | nil => exact .inl ⟨nofun, rfl⟩
  | cons batch bs ih =>
    rw [Apart, List.forall_mem_cons, List.flatten_cons, List.foldl_append]
    by_cases hbatch : (batch.map MSRCEntry.key).Nodup
    · rw [insertAll, insertBatch, if_pos hbatch, and_iff_right hbatch]
      exact ih _
    · refine .inr ⟨fun h => hbatch h.1, t, ?_⟩
      rw [insertAll, insertBatch, if_neg hbatch]

theorem storeRows_cases (nothing : String) (rows : List MSRCEntry) (t : MsrcUpdates) :
    (Apart (batches rows) ∧ Stored rows (storeRows nothing rows t) ∧
        (storeRows nothing rows t).2 = rows.foldl Table.upsert t) ∨
      (¬ Apart (batches rows) ∧ ¬ Stored rows (storeRows nothing rows t)) := by
  unfold storeRows upsertMSRC
  by_cases hnil : rows = []
  · subst hnil
    exact .inl ⟨nofun, fun h => absurd rfl h, rfl⟩
  rw [if_neg hnil]
  rcases insertAll_cases (batches rows) t with ⟨hapart, heq⟩ | ⟨hnot, t', heq⟩
  · rw [heq, flatten_batches]
    exact .inl ⟨hapart, fun _ => rfl, rfl⟩
  · rw [heq]
    exact .inr ⟨hnot, fun hstored => nomatch hstored hnil⟩

theorem lookup_foldl_upsert (rows : List MSRCEntry) (t : MsrcUpdates) (pair : String × String) :
    (rows.foldl Table.upsert t).lookup pair = (lastRow rows pair).or (t.lookup pair) := by
  induction rows using List.reverseRecOn with
  | nil => rfl
  | append_singleton rows r ih =>
    by_cases hr : r.key = pair <;> simp [hr, ih, lastRow]

theorem keepsNewest_lookup_iff (t : MsrcUpdates) :
    KeepsNewest parsed (parsed.flatten.foldl Table.upsert t).lookup ↔
    KeepsNewest parsed (lastRow parsed.flatten) := by
  refine forall₃_congr fun pair rows hfind => ?_
  have hlast : (lastRow parsed.flatten pair).isSome := by
    have hpair := List.find?_some hfind
    obtain ⟨r, hr, hkey⟩ := List.mem_map.mp (of_decide_eq_true hpair)
    refine List.find?_isSome.mpr ⟨r, ?_, decide_eq_true hkey⟩
    exact List.mem_reverse.mpr (List.mem_flatten_of_mem (List.mem_of_find?_eq_some hfind) hr)
  rw [lookup_foldl_upsert, Option.or_of_isSome hlast]

end

/-- Exactly when the rows are stored, and as those of the newest release. -/
theorem newest_stored_iff (toLower : String → String) (range : ℕ → ℕ → List String → List String)
    (t : MsrcUpdates) : (∀ docs : List CvrfDoc, let rows := (parseAll toLower range docs).flatten
      Stored rows (importDocs toLower range docs t) ↔ Apart (batches rows)) ∧
    ∀ (months : ℤ) (updates : List String) (fetch : String → Option CvrfDoc),
      let parsed := parseAll toLower range (fetched months updates fetch)
      let res := updateOnline toLower range months updates fetch t
      Stored parsed.flatten res ∧ KeepsNewest parsed res.2.lookup ↔
        Apart (batches parsed.flatten) ∧ KeepsNewest parsed (lastRow parsed.flatten) := by
  constructor
  · intro docs rows
    rcases storeRows_cases "no MSRC entries parsed from import" rows t with ⟨hapart, hstored, -⟩ |
      ⟨hnot, hfails⟩
    · exact iff_of_true hstored hapart
    · exact iff_of_false hfails hnot
  · intro months updates fetch parsed res
    rcases storeRows_cases "no MSRC data retrieved" parsed.flatten t with ⟨hapart, hstored, heq⟩ |
      ⟨hnot, hfails⟩
    · rw [and_iff_right hapart, ← keepsNewest_lookup_iff t, ← heq]
      exact and_iff_right hstored
    · exact iff_of_false (fun h => hfails h.1) fun h => hnot h.1

def listedTwice : CvrfDoc where
  id := "2026-Jul"
  vulnerability :=
    List.replicate 2 ⟨"RCE", "CVE-2026-1", ["Critical"], [(9, "AV:N")], ["KB5099536"]⟩

theorem listed_twice_fails :
    (parseAll String.toLower (fun _ _ => id) [listedTwice]).flatten.map MSRCEntry.key =
      [("5099536", "CVE-2026-1"), ("5099536", "CVE-2026-1")] ∧
    (updateOnline String.toLower (fun _ _ => id) 12 ["2026-Jul"] (fun _ => some listedTwice)
      .empty).1 = .error "ON CONFLICT DO UPDATE command cannot affect row a second time" := by
  decide +kernel

end Moorgate.Msrc
