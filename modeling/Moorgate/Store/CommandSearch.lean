import Moorgate.Store.HostAccess

/-!
# Searching recorded commands: `SearchSessionCommands`

`store/sessioncommands.go` cuts the rows that match to five times the limit before it looks which
of them the caller may see, and it matches the query as a pattern.
-/

namespace Moorgate.Store

open Framework Models

structure SessionCommandRow where
  (username hostname command : String)
  ts : Instant
  sshSessionID : UUID
deriving DecidableEq

structure SessionCommand extends SessionCommandRow where
  hostID : Option UUID

/-- `session_commands` as `ORDER BY sc.ts DESC` yields it, with any order among equals. -/
structure SessionCommands where
  rows : List SessionCommand
  newestFirst : rows.Pairwise fun a b => b.ts ≤ a.ts

/-- The database on text: `to_tsvector('simple', ·) @@ plainto_tsquery('simple', ·)` and `lower`. -/
structure TextSearch where
  fullText : String → String → Bool
  lower : Char → Char

/-- `LIKE`: a percent sign stands for any text, an underscore for one character, and a backslash
takes the next one as it is. -/
def like : List Char → List Char → Bool
  | [], text => text.isEmpty
  | '%' :: pattern, text => text.tails.any (like pattern)
  | '\\' :: c :: pattern, text => decide (text.head? = some c) && like pattern text.tail
  | c :: pattern, text =>
    text.head?.any (fun d => decide (c = '_' ∨ d = c)) && like pattern text.tail

/-- `text ILIKE '%' || query || '%'`. -/
def ilike (S : TextSearch) (query text : String) : Bool :=
  like ('%' :: (query.toList.map S.lower ++ ['%'])) (text.toList.map S.lower)

/-- A call, and what it finds in the access tables. -/
structure CommandSearch where
  now : Instant
  access : AccessTables
  userID : UUID
  isSuper : Bool
  query : String
  limit : ℤ

variable (S : TextSearch) (q : CommandSearch) (table : SessionCommands)

namespace CommandSearch

def rowLimit : ℕ := if q.limit ≤ 0 ∨ 200 < q.limit then 50 else q.limit.toNat

def fetch : ℕ := min (q.rowLimit * 5) 1000

def finds (r : SessionCommand) : Bool := S.fullText r.command q.query || ilike S q.query r.command

/-- A row without a host is for nobody but a super-admin. -/
def sees (r : SessionCommand) : Bool :=
  q.isSuper || r.hostID.any (userCanAccessHost q.now q.userID q.access)

/-- As a full-text query, or with the query in it in whatever case. -/
def asksFor (r : SessionCommand) : Bool :=
  S.fullText r.command q.query ||
    decide (q.query.toList.map S.lower <:+: r.command.toList.map S.lower)

end CommandSearch

/-- The loop leaves out what the caller does not see and stops at the limit. -/
def searchSessionCommands (hostname : String) : List SessionCommandRow :=
  let rows := table.rows.filter fun r => q.finds S r && (decide (hostname = "") ||
      ilike S hostname r.hostname)
  (((rows.take q.fetch).filter q.sees).take q.rowLimit).map (·.toSessionCommandRow)

/-- The newest rows that are asked for and that the caller sees. -/
def newestVisible : List SessionCommandRow :=
  ((table.rows.filter fun r => q.sees r && q.asksFor S r).take q.rowLimit).map
    (·.toSessionCommandRow)

def CompleteSearch : Prop := searchSessionCommands S q table "" = newestVisible S q table

/-- While rows are left to show (`n`), one that the caller sees is asked for exactly if the pattern
finds it and rows are left to fetch (`f`). -/
def Faithful : (n f : ℕ) → List SessionCommand → Prop
  | _, _, [] => True
  | n, f, r :: rows =>
    (q.sees r → 0 < n → (q.asksFor S r ↔ q.finds S r ∧ 0 < f)) ∧
      Faithful (if q.sees r && q.asksFor S r then n - 1 else n)
      (if q.finds S r then f - 1 else f) rows

variable {S q table}

theorem exists_of_mem_shown {p : SessionCommand → Bool} {n : ℕ} {r : SessionCommand}
    {rows : List SessionCommand} (hp : ∀ r ∈ rows, p r)
    (h : r.toSessionCommandRow ∈ (rows.map (·.toSessionCommandRow)).take n) :
    ∃ r', p r' ∧ r'.command = r.command := by
  obtain ⟨r', hr', hsame⟩ := List.mem_map.mp (List.mem_of_mem_take h)
  exact ⟨r', hp r' hr', congrArg SessionCommandRow.command hsame⟩

theorem shown_eq_iff {n f : ℕ} {rows : List SessionCommand} :
    ((((rows.filter (q.finds S)).take f).filter q.sees).take n).map (·.toSessionCommandRow) =
      ((rows.filter fun r => q.sees r && q.asksFor S r).take n).map (·.toSessionCommandRow) ↔
    Faithful S q n f rows := by
  -- A row that is asked for and not found, or the other way round, is the first difference: no
  -- later row of its text can take its place.
  induction rows generalizing n f with
  | nil => simp [Faithful]
  | cons r rows ih =>
    rw [Faithful]
    cases n with
    | zero => simp [← ih]
    | succ n =>
      cases hsees : q.sees r <;> cases hasks : q.asksFor S r <;> cases hfinds : q.finds S r <;>
        cases f <;> simp [hsees, hasks, hfinds, ← ih]
      case true.false.true.succ f =>
        intro h
        obtain ⟨r', hr', hsame⟩ := exists_of_mem_shown (p := q.asksFor S)
          (fun r hr => by simp_all) (h ▸ List.mem_cons_self ..)
        simp_all [CommandSearch.asksFor]
      case true.true.false.succ f =>
        intro h
        obtain ⟨r', hr', hsame⟩ := exists_of_mem_shown (p := q.finds S)
          (fun r hr => (List.mem_filter.mp (List.mem_of_mem_take (List.mem_of_mem_filter hr))).2)
          (h ▸ List.mem_cons_self ..)
        simp_all [CommandSearch.finds]

/-- **A search is complete** exactly if, down to the last row that is to be shown, the pattern finds
of what the caller sees the rows that the query asks for, and they are among those fetched. -/
theorem completeSearch_iff (S : TextSearch) (q : CommandSearch) (table : SessionCommands) :
    CompleteSearch S q table ↔ Faithful S q q.rowLimit q.fetch table.rows := by
  unfold CompleteSearch searchSessionCommands newestVisible
  simp only [decide_true, Bool.true_or, Bool.and_true]
  exact shown_eq_iff

/-- An underscore stands for any character. -/
theorem search_finds_any :
    ¬ CompleteSearch ⟨fun _ _ => false, id⟩ ⟨0, deniedAgain, .ofNat 1, true, "_", 1⟩
    ⟨[⟨⟨"a", "web", "ls", 1, .ofNat 2⟩, none⟩], List.pairwise_singleton _ _⟩ := by
  unfold CompleteSearch
  decide +kernel

end Moorgate.Store
