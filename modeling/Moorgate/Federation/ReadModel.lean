import Mathlib.Data.List.Sort
import Moorgate.Framework.Base.Runs
import Moorgate.Framework.Base.Table
import Moorgate.Models.Ids

/-!
# What a hub knows of a site: `federation/site.go`, `federation/ingest.go`

A round of `pushLoop` sends the first thousand hosts of the site, and the hub stores a row for each.
Nothing takes out the row of a host that is deleted, and the hosts behind the first thousand are
never sent.
-/

namespace Moorgate.Federation

open Framework Models

structure SiteHost where
  id : UUID
  hostname : String
  status : Option String
  data : String

structure FedCacheHost where
  hostID : UUID
  (status data : String)
deriving DecidableEq

/-- The hosts of a site, and its rows at the hub. -/
structure ReadModel where
  hosts : Table SiteHost.id
  cache : Table FedCacheHost.hostID

inductive SiteOp where
  | create (h : SiteHost)
  | delete (id : UUID)
  | change (id : UUID) (status : Option String) (data : String)
  | push

def SiteHost.pushed (h : SiteHost) : FedCacheHost := ⟨h.id, h.status.getD "", h.data⟩

section

variable (le : String → String → Bool) (s : ReadModel)

/-- `ListHosts` from the first row on, in a collation. -/
def listHosts (limit : ℕ) (t : Table SiteHost.id) : List SiteHost :=
  (t.rows.insertionSort fun a b => le a.hostname b.hostname).take
    (if limit = 0 ∨ 1000 < limit then 100 else limit)

def ReadModel.send : ReadModel :=
  { s with cache := (listHosts le 1000 s.hosts).foldl (fun t h => t.upsert h.pushed) s.cache }

def siteStep : SiteOp → Option ReadModel
  | .create h =>
    if h.hostname ∈ s.hosts.rows.map SiteHost.hostname then none
    else (s.hosts.insert h).map fun hosts => { s with hosts }
  | .delete id => some { s with hosts := s.hosts.delete fun h => decide (h.id = id) }
  | .change id status data =>
    some { s with
      hosts := s.hosts.update (fun h => decide (h.id = id)) (fun h => { h with status, data })
        fun _ => rfl }
  | .push => some (s.send le)

def Follows : Prop := ∀ row, row ∈ s.cache.rows ↔ ∃ h ∈ s.hosts.rows, row = h.pushed

def FollowsAfter (op : SiteOp) : Prop := op = .push → Follows (s.send le)

/-- No row is of a host that is gone, and who is not listed is at the hub already. -/
def Complete (op : SiteOp) : Prop :=
  op = .push → (∀ row ∈ s.cache.rows, ∃ h ∈ s.hosts.rows, h.id = row.hostID) ∧
    ∀ h ∈ s.hosts.rows, h ∈ listHosts le 1000 s.hosts ∨ h.pushed ∈ s.cache.rows

end

variable {le : String → String → Bool} {s : ReadModel} {row : FedCacheHost}

theorem mem_upserts {hs : List SiteHost} {t : Table FedCacheHost.hostID}
    (h : (hs.map SiteHost.id).Nodup) : row ∈ (hs.foldl (fun t h => t.upsert h.pushed) t).rows ↔
      (∃ h ∈ hs, row = h.pushed) ∨ row ∈ t.rows ∧ ∀ h ∈ hs, h.id ≠ row.hostID := by
  induction hs generalizing t with
  | nil => simp
  | cons g hs ih =>
    obtain ⟨hnew, hrest⟩ := List.nodup_cons.mp h
    have hfirst : row = g.pushed → ∀ h ∈ hs, h.id ≠ row.hostID := by
      rintro rfl h hh heq
      exact hnew (List.mem_map.mpr ⟨h, hh, heq⟩)
    have hkey : row.hostID ≠ g.pushed.hostID ↔ g.id ≠ row.hostID := ne_comm
    rw [List.foldl_cons, ih hrest, Table.mem_upsert, hkey, List.exists_mem_cons_iff,
      List.forall_mem_cons, or_and_right, and_assoc, and_iff_left_of_imp hfirst]
    exact or_left_comm.trans (or_comm.trans (or_congr_left or_comm))

theorem mem_of_mem_listHosts {limit : ℕ} {t : Table SiteHost.id} {h : SiteHost}
    (hmem : h ∈ listHosts le limit t) : h ∈ t.rows :=
  (List.perm_insertionSort _ _).mem_iff.mp (List.mem_of_mem_take hmem)

theorem mem_send :
    row ∈ (s.send le).cache.rows ↔ (∃ h ∈ listHosts le 1000 s.hosts, row = h.pushed) ∨
    row ∈ s.cache.rows ∧ ∀ h ∈ listHosts le 1000 s.hosts, h.id ≠ row.hostID := by
  apply mem_upserts
  have hsorted := ((List.perm_insertionSort (fun a b => le a.hostname b.hostname) s.hosts.rows).map
    SiteHost.id).nodup_iff.mpr s.hosts.nodup
  exact hsorted.sublist ((List.take_sublist _ _).map _)

theorem followsAfter_iff {op : SiteOp} : FollowsAfter le s op ↔ Complete le s op := by
  refine imp_congr_right fun _ => ⟨fun h => ⟨fun row hrow => ?_, fun g hg => ?_⟩, ?_⟩
  · by_cases hlisted : ∀ h ∈ listHosts le 1000 s.hosts, h.id ≠ row.hostID
    · obtain ⟨g, hg, rfl⟩ := (h row).mp (mem_send.mpr (.inr ⟨hrow, hlisted⟩))
      exact ⟨g, hg, rfl⟩
    · push Not at hlisted
      obtain ⟨g, hg, hid⟩ := hlisted
      exact ⟨g, mem_of_mem_listHosts hg, hid⟩
  · rcases mem_send.mp ((h _).mpr ⟨g, hg, rfl⟩) with ⟨f, hf, heq⟩ | ⟨hold, -⟩
    · cases Table.eq_of_key hg (mem_of_mem_listHosts hf) (congrArg FedCacheHost.hostID heq)
      exact .inl hf
    · exact .inr hold
  · rintro ⟨hnone, hall⟩ row
    rw [mem_send]
    constructor
    · rintro (⟨g, hg, rfl⟩ | ⟨hrow, hunlisted⟩)
      · exact ⟨g, mem_of_mem_listHosts hg, rfl⟩
      · obtain ⟨g, hg, hid⟩ := hnone row hrow
        have hcached := (hall g hg).resolve_left fun hlisted => hunlisted g hlisted hid
        exact ⟨g, hg, Table.eq_of_key hrow hcached hid.symm⟩
    · rintro ⟨g, hg, rfl⟩
      by_cases hlisted : g ∈ listHosts le 1000 s.hosts
      · exact .inl ⟨g, hlisted, rfl⟩
      · refine .inr ⟨(hall g hg).resolve_left hlisted, fun f hf hid => hlisted ?_⟩
        cases Table.eq_of_key hg (mem_of_mem_listHosts hf) hid.symm
        exact hf

/-- **The read-model follows the site** after every round of a run, exactly if at each round no host
that was sent before is gone, and the hub has who is not among the first thousand. -/
theorem read_model_follows_iff (le : String → String → Bool) (s : ReadModel) (ops : List SiteOp) :
    Guarded (siteStep le) (FollowsAfter le) s ops ↔ Guarded (siteStep le) (Complete le) s ops :=
  guarded_congr fun _ _ => followsAfter_iff

def sentAndDeleted : List SiteOp :=
  [.create ⟨.ofNat 1, "web", none, "up"⟩, .push, .delete (.ofNat 1)]

theorem deleted_host_stays :
    ¬ Guarded (siteStep fun a b => decide (a ≤ b)) (FollowsAfter fun a b => decide (a ≤ b))
    ⟨.empty, .empty⟩ (sentAndDeleted ++ [.push]) := by
  intro h
  obtain ⟨s, hrun, hhosts, hcache⟩ : ∃ s, exec (siteStep fun a b => decide (a ≤ b)) ⟨.empty,
      .empty⟩ sentAndDeleted = some s ∧ s.hosts.rows.length = 0 ∧
      s.cache.rows = [⟨.ofNat 1, "", "up"⟩] := exists_of_any (by decide +kernel)
  obtain ⟨hnone, -⟩ := followsAfter_iff.mp (h.last hrun) rfl
  obtain ⟨g, hg, -⟩ := hnone _ (hcache ▸ List.mem_singleton_self _)
  rw [List.length_eq_zero_iff.mp hhosts] at hg
  cases hg

end Moorgate.Federation
