import Mathlib.Data.List.Dedup
import Mathlib.Data.List.Sort
import Moorgate.Store.Approvals

/-!
# Who may reach a host: `store/hosts.go`, `store/groups.go`

A user reaches a host through a group, by a direct grant, or by a temporary one, of the host or of
a group; a denial overrides them all. Four queries decide it, each written on its own. Each is
translated as it stands, and compared with `Granted` and `Denied`. `AccessibleHostIDs` does not ask
for denials.
-/

namespace Moorgate.Store

open Framework Models

/-- A row of `hosts`, so far as access goes. -/
structure HostRow where
  id : UUID
  (hostname description environment owner address : String)
deriving DecidableEq

structure UserGroup where
  (userId groupId : UUID)
deriving DecidableEq

structure HostGroup where
  (hostId groupId : UUID)
deriving DecidableEq

structure HostUser where
  (hostId userId : UUID)
deriving DecidableEq

structure HostAccessDenial where
  (userId hostId : UUID)
deriving DecidableEq

/-- The tables. Whatever names a host names one that there is (`REFERENCES
hosts(id)`). -/
structure AccessTables where
  hosts : Table HostRow.id
  userGroups : List UserGroup
  hostGroups : List HostGroup
  hostUsers : List HostUser
  permissions : Table TemporaryPermission.id
  denials : List HostAccessDenial
  hostGroups_host : ∀ hg ∈ hostGroups, ∃ h ∈ hosts.rows, h.id = hg.hostId
  hostUsers_host : ∀ hu ∈ hostUsers, ∃ h ∈ hosts.rows, h.id = hu.hostId
  permissions_host : ∀ tp ∈ permissions.rows, ∀ id ∈ tp.hostId, ∃ h ∈ hosts.rows, h.id = id

/-! ## The queries -/

section

variable (now : Instant) (userID : UUID) (t : AccessTables)

/-- `user_groups ug JOIN host_groups hg ON hg.group_id=ug.group_id WHERE ug.user_id=$1`. -/
def groupHosts : List UUID :=
  (t.userGroups.filter fun ug => decide (ug.userId = userID)).flatMap fun ug =>
    (t.hostGroups.filter fun hg => decide (hg.groupId = ug.groupId)).map HostGroup.hostId

def directHosts : List UUID :=
  (t.hostUsers.filter fun hu => decide (hu.userId = userID)).map HostUser.hostId

def TemporaryPermission.activeFor (tp : TemporaryPermission) : Bool :=
  decide (tp.userId = userID) && tp.active now

/-- `temporary_permissions WHERE user_id=$1 AND … AND host_id IS NOT NULL`. -/
def tempHosts : List UUID :=
  (t.permissions.select (TemporaryPermission.activeFor now userID)).filterMap
    TemporaryPermission.hostId

/-- `temporary_permissions tp JOIN host_groups hg ON hg.group_id=tp.group_id WHERE …`. -/
def tempGroupHosts : List UUID :=
  (t.permissions.select (TemporaryPermission.activeFor now userID)).flatMap fun tp =>
    (t.hostGroups.filter fun hg => decide (some hg.groupId = tp.groupId)).map HostGroup.hostId

/-- The four sources of a grant, by `UNION`. -/
def grantedHosts : List UUID :=
  (groupHosts userID t ++ directHosts userID t ++ tempHosts now userID t ++
    tempGroupHosts now userID t).dedup

/-- The keys of the map that `AccessibleHostIDs` returns. -/
def accessibleHostIDs (isSuperAdmin : Bool) : List UUID :=
  if isSuperAdmin then t.hosts.rows.map HostRow.id else grantedHosts now userID t

def byHostname (hosts : List HostRow) : List HostRow :=
  hosts.insertionSort fun a b => a.hostname ≤ b.hostname

def deniedHosts : List UUID :=
  (t.denials.filter fun d => decide (d.userId = userID)).map HostAccessDenial.hostId

def listAccessibleHosts (isSuperAdmin : Bool) : List HostRow :=
  if isSuperAdmin then byHostname t.hosts.rows
  else byHostname (t.hosts.select fun h =>
    decide (h.id ∈ grantedHosts now userID t) && !decide (h.id ∈ deniedHosts userID t))

/-- `EXISTS` of a shared group. -/
def sharesGroup (hostID : UUID) : Bool :=
  t.userGroups.any fun ug => decide (ug.userId = userID) &&
    t.hostGroups.any fun hg => decide (hg.groupId = ug.groupId ∧ hg.hostId = hostID)

def grantedDirectly (hostID : UUID) : Bool :=
  t.hostUsers.any fun hu => decide (hu.userId = userID ∧ hu.hostId = hostID)

def deniedHost (hostID : UUID) : Bool :=
  t.denials.any fun d => decide (d.userId = userID ∧ d.hostId = hostID)

def userCanAccessHost (hostID : UUID) : Bool :=
  (sharesGroup userID t hostID || grantedDirectly userID t hostID ||
    (t.permissions.rows.any fun tp => tp.activeFor now userID && decide
    (tp.hostId = some hostID)) || (t.permissions.rows.any fun tp => tp.activeFor now userID &&
      t.hostGroups.any fun hg => decide (some hg.groupId = tp.groupId ∧ hg.hostId = hostID))) &&
    !deniedHost userID t hostID

/-- The rows of `LEFT JOIN host_groups hg ON hg.group_id=tp.group_id` for one grant. -/
def leftJoinHostGroups (tp : TemporaryPermission) : List (Option HostGroup) :=
  match t.hostGroups.filter fun hg => decide (some hg.groupId = tp.groupId) with
  | [] => [none]
  | hgs => hgs.map some

def grantedTemporarily (hostID : UUID) : Bool :=
  t.permissions.rows.any fun tp => tp.activeFor now userID &&
    (leftJoinHostGroups t tp).any fun hg =>
      decide (tp.hostId = some hostID) || decide (hg.map HostGroup.hostId = some hostID)

structure UserHostAccess where
  host : HostRow
  (viaDirect viaGroup viaTemp denied : Bool)

def listUserHostAccess : List UserHostAccess :=
  (byHostname (t.hosts.select fun h => grantedDirectly userID t h.id || sharesGroup userID t h.id ||
    grantedTemporarily now userID t h.id)).map fun h =>
      { host := h
        viaDirect := grantedDirectly userID t h.id
        viaGroup := sharesGroup userID t h.id
        viaTemp := grantedTemporarily now userID t h.id
        denied := deniedHost userID t h.id }

end

/-! ## What they are for -/

/-- A source grants the host to the user. -/
inductive Granted (now : Instant) (userID : UUID) (t : AccessTables) (hostID : UUID) : Prop where
  | group (g : UUID) (hu : ⟨userID, g⟩ ∈ t.userGroups) (hg : ⟨hostID, g⟩ ∈ t.hostGroups)
  | direct (h : ⟨hostID, userID⟩ ∈ t.hostUsers)
  | temp (tp : TemporaryPermission) (htp : tp ∈ t.permissions.rows)
      (hactive : tp.activeFor now userID) (hhost : tp.hostId = some hostID)
  | tempGroup (tp : TemporaryPermission) (htp : tp ∈ t.permissions.rows)
      (hactive : tp.activeFor now userID) (g : UUID) (hgroup : tp.groupId = some g)
      (hg : ⟨hostID, g⟩ ∈ t.hostGroups)

def Denied (userID : UUID) (t : AccessTables) (hostID : UUID) : Prop := ⟨userID, hostID⟩ ∈ t.denials

section

variable {now : Instant} {userID hostID : UUID} {t : AccessTables}

theorem Granted.exists_host (h : Granted now userID t hostID) :
    ∃ r ∈ t.hosts.rows, r.id = hostID := by
  cases h with
  | group g _ hg | tempGroup tp _ _ g _ hg => exact t.hostGroups_host _ hg
  | direct h => exact t.hostUsers_host _ h
  | temp tp htp _ hhost => exact t.permissions_host tp htp hostID hhost

theorem mem_groupHosts : hostID ∈ groupHosts userID t ↔
    ∃ g, ⟨userID, g⟩ ∈ t.userGroups ∧ ⟨hostID, g⟩ ∈ t.hostGroups := by
  constructor
  · intro h
    obtain ⟨⟨u, g⟩, hug, hmem⟩ := List.mem_flatMap.mp h
    obtain ⟨⟨host, g'⟩, hhg, rfl⟩ := List.mem_map.mp hmem
    simp only [List.mem_filter, decide_eq_true_eq] at hug hhg
    obtain ⟨hug, rfl⟩ := hug
    obtain ⟨hhg, rfl⟩ := hhg
    exact ⟨g', hug, hhg⟩
  · rintro ⟨g, hug, hhg⟩
    refine List.mem_flatMap.mpr ⟨⟨userID, g⟩, ?_, List.mem_map.mpr ⟨⟨hostID, g⟩, ?_, rfl⟩⟩
    · exact List.mem_filter.mpr ⟨hug, decide_eq_true rfl⟩
    · exact List.mem_filter.mpr ⟨hhg, decide_eq_true rfl⟩

theorem mem_directHosts : hostID ∈ directHosts userID t ↔ ⟨hostID, userID⟩ ∈ t.hostUsers := by
  constructor
  · intro h
    obtain ⟨⟨host, u⟩, hhu, rfl⟩ := List.mem_map.mp h
    obtain ⟨hmem, huser⟩ := List.mem_filter.mp hhu
    obtain rfl := of_decide_eq_true huser
    exact hmem
  · intro h
    exact List.mem_map.mpr ⟨_, List.mem_filter.mpr ⟨h, decide_eq_true rfl⟩, rfl⟩

theorem mem_tempHosts : hostID ∈ tempHosts now userID t ↔
    ∃ tp ∈ t.permissions.rows, tp.activeFor now userID ∧ tp.hostId = some hostID := by
  unfold tempHosts
  rw [List.mem_filterMap]
  refine exists_congr fun tp => ?_
  rw [Table.mem_select, and_assoc]

theorem mem_tempGroupHosts : hostID ∈ tempGroupHosts now userID t ↔
    ∃ tp ∈ t.permissions.rows, tp.activeFor now userID ∧
      ∃ g, tp.groupId = some g ∧ ⟨hostID, g⟩ ∈ t.hostGroups := by
  unfold tempGroupHosts
  rw [List.mem_flatMap]
  refine exists_congr fun tp => ?_
  rw [Table.mem_select, and_assoc]
  refine and_congr_right fun _ => and_congr_right fun _ => ?_
  constructor
  · intro h
    obtain ⟨⟨host, g⟩, hhg, rfl⟩ := List.mem_map.mp h
    obtain ⟨hmem, hgroup⟩ := List.mem_filter.mp hhg
    exact ⟨g, (of_decide_eq_true hgroup).symm, hmem⟩
  · rintro ⟨g, hgroup, hmem⟩
    refine List.mem_map.mpr ⟨⟨hostID, g⟩, List.mem_filter.mpr ⟨hmem, ?_⟩, rfl⟩
    exact decide_eq_true hgroup.symm

theorem mem_grantedHosts : hostID ∈ grantedHosts now userID t ↔ Granted now userID t hostID := by
  unfold grantedHosts
  rw [List.mem_dedup, List.mem_append, List.mem_append, List.mem_append, mem_groupHosts,
    mem_directHosts, mem_tempHosts, mem_tempGroupHosts]
  constructor
  · rintro (((⟨g, hu, hg⟩ | hdirect) | ⟨tp, htp, hactive, hhost⟩) | ⟨tp, htp, hactive, g,
      hgroup, hg⟩)
    · exact .group g hu hg
    · exact .direct hdirect
    · exact .temp tp htp hactive hhost
    · exact .tempGroup tp htp hactive g hgroup hg
  · rintro (⟨g, hu, hg⟩ | hdirect | ⟨tp, htp, hactive, hhost⟩ | ⟨tp, htp, hactive, g, hgroup, hg⟩)
    · exact .inl (.inl (.inl ⟨g, hu, hg⟩))
    · exact .inl (.inl (.inr hdirect))
    · exact .inl (.inr ⟨tp, htp, hactive, hhost⟩)
    · exact .inr ⟨tp, htp, hactive, g, hgroup, hg⟩

theorem sharesGroup_iff : sharesGroup userID t hostID ↔ hostID ∈ groupHosts userID t := by
  rw [mem_groupHosts]
  unfold sharesGroup
  simp only [List.any_eq_true, Bool.and_eq_true, decide_eq_true_eq]
  constructor
  · rintro ⟨⟨u, g⟩, hug, rfl, ⟨host, g'⟩, hhg, rfl, rfl⟩
    exact ⟨g', hug, hhg⟩
  · rintro ⟨g, hug, hhg⟩
    exact ⟨_, hug, rfl, _, hhg, rfl, rfl⟩

theorem grantedDirectly_iff : grantedDirectly userID t hostID ↔ hostID ∈ directHosts userID t := by
  rw [mem_directHosts]
  unfold grantedDirectly
  simp only [List.any_eq_true, decide_eq_true_eq]
  constructor
  · rintro ⟨⟨host, u⟩, hhu, rfl, rfl⟩
    exact hhu
  · intro h
    exact ⟨_, h, rfl, rfl⟩

theorem deniedHost_iff : deniedHost userID t hostID ↔ Denied userID t hostID := by
  unfold deniedHost Denied
  simp only [List.any_eq_true, decide_eq_true_eq]
  constructor
  · rintro ⟨⟨u, host⟩, hd, rfl, rfl⟩
    exact hd
  · intro h
    exact ⟨_, h, rfl, rfl⟩

theorem mem_deniedHosts : hostID ∈ deniedHosts userID t ↔ Denied userID t hostID := by
  constructor
  · intro h
    obtain ⟨⟨u, host⟩, hd, rfl⟩ := List.mem_map.mp h
    obtain ⟨hmem, huser⟩ := List.mem_filter.mp hd
    obtain rfl := of_decide_eq_true huser
    exact hmem
  · intro h
    exact List.mem_map.mpr ⟨_, List.mem_filter.mpr ⟨h, decide_eq_true rfl⟩, rfl⟩

/-- The join keeps a grant of a host that names no group. -/
theorem any_leftJoinHostGroups (tp : TemporaryPermission) : ((leftJoinHostGroups t tp).any fun hg =>
      decide (tp.hostId = some hostID) || decide (hg.map HostGroup.hostId = some hostID)) ↔
    tp.hostId = some hostID ∨ ∃ g, tp.groupId = some g ∧ ⟨hostID, g⟩ ∈ t.hostGroups := by
  have hjoined : (∃ hg ∈ t.hostGroups.filter fun hg => decide (some hg.groupId = tp.groupId),
      hg.hostId = hostID) ↔ ∃ g, tp.groupId = some g ∧ ⟨hostID, g⟩ ∈ t.hostGroups := by
    constructor
    · rintro ⟨⟨host, g⟩, hhg, rfl⟩
      obtain ⟨hmem, hgroup⟩ := List.mem_filter.mp hhg
      exact ⟨g, (of_decide_eq_true hgroup).symm, hmem⟩
    · rintro ⟨g, hgroup, hmem⟩
      exact ⟨⟨hostID, g⟩, List.mem_filter.mpr ⟨hmem, decide_eq_true hgroup.symm⟩, rfl⟩
  rw [← hjoined]
  unfold leftJoinHostGroups
  split
  · rename_i hnil
    rw [hnil]
    simp
  · rename_i hcons
    obtain ⟨hg, hhg⟩ := List.exists_mem_of_ne_nil _ hcons
    simp only [List.any_map, List.any_eq_true, Function.comp, Option.map_some, Bool.or_eq_true,
      decide_eq_true_eq, Option.some.injEq]
    constructor
    · rintro ⟨hg', hmem, hhost | hhost⟩
      · exact .inl hhost
      · exact .inr ⟨hg', hmem, hhost⟩
    · rintro (hhost | ⟨hg', hmem, hhost⟩)
      · exact ⟨hg, hhg, .inl hhost⟩
      · exact ⟨hg', hmem, .inr hhost⟩

theorem grantedTemporarily_iff : grantedTemporarily now userID t hostID ↔
    hostID ∈ tempHosts now userID t ∨ hostID ∈ tempGroupHosts now userID t := by
  rw [mem_tempHosts, mem_tempGroupHosts]
  unfold grantedTemporarily
  simp only [List.any_eq_true, Bool.and_eq_true]
  constructor
  · rintro ⟨tp, htp, hactive, hrow⟩
    rcases (any_leftJoinHostGroups tp).mp (List.any_eq_true.mpr hrow) with hhost | hgroup
    · exact .inl ⟨tp, htp, hactive, hhost⟩
    · exact .inr ⟨tp, htp, hactive, hgroup⟩
  · rintro (⟨tp, htp, hactive, hhost⟩ | ⟨tp, htp, hactive, hgroup⟩)
    · exact ⟨tp, htp, hactive, List.any_eq_true.mp ((any_leftJoinHostGroups tp).mpr (.inl hhost))⟩
    · exact ⟨tp, htp, hactive, List.any_eq_true.mp ((any_leftJoinHostGroups tp).mpr (.inr hgroup))⟩

/-! ## The four deciders -/

theorem mem_accessibleHostIDs :
    hostID ∈ accessibleHostIDs now userID t false ↔ Granted now userID t hostID :=
  mem_grantedHosts

theorem mem_listAccessibleHosts : hostID ∈ (listAccessibleHosts now userID t false).map HostRow.id ↔
      Granted now userID t hostID ∧ ¬ Denied userID t hostID := by
  have hrow : ∀ h : HostRow, h ∈ listAccessibleHosts now userID t false ↔
      h ∈ t.hosts.rows ∧ Granted now userID t h.id ∧ ¬ Denied userID t h.id := by
    intro h
    show h ∈ byHostname _ ↔ _
    unfold byHostname
    rw [List.mem_insertionSort, Table.mem_select, Bool.and_eq_true, Bool.not_eq_true',
      decide_eq_true_iff, decide_eq_false_iff_not, mem_grantedHosts, mem_deniedHosts]
  constructor
  · intro h
    obtain ⟨r, hr, rfl⟩ := List.mem_map.mp h
    exact ((hrow r).mp hr).2
  · rintro ⟨hgranted, hallowed⟩
    obtain ⟨r, hr, rfl⟩ := hgranted.exists_host
    exact List.mem_map.mpr ⟨r, (hrow r).mpr ⟨hr, hgranted, hallowed⟩, rfl⟩

theorem userCanAccessHost_iff : userCanAccessHost now userID t hostID ↔
    Granted now userID t hostID ∧ ¬ Denied userID t hostID := by
  unfold userCanAccessHost
  rw [Bool.and_eq_true, Bool.not_eq_true', Bool.eq_false_iff, Ne, deniedHost_iff]
  refine and_congr_left fun _ => ?_
  rw [← mem_grantedHosts, grantedHosts, List.mem_dedup, List.mem_append, List.mem_append,
    List.mem_append, Bool.or_eq_true, Bool.or_eq_true, Bool.or_eq_true, sharesGroup_iff,
    grantedDirectly_iff, mem_tempHosts, mem_tempGroupHosts]
  refine or_congr (or_congr Iff.rfl ?_) ?_
  · simp only [List.any_eq_true, Bool.and_eq_true, decide_eq_true_eq]
  simp only [List.any_eq_true, Bool.and_eq_true, decide_eq_true_eq]
  refine exists_congr fun tp => and_congr_right fun _ => and_congr_right fun _ => ?_
  constructor
  · rintro ⟨⟨host, g⟩, hhg, hgroup, rfl⟩
    exact ⟨g, hgroup.symm, hhg⟩
  · rintro ⟨g, hgroup, hhg⟩
    exact ⟨_, hhg, hgroup.symm, rfl⟩

def undeniedHosts (rows : List UserHostAccess) : List UUID :=
  (rows.filter fun a => !a.denied).map fun a => a.host.id

theorem mem_listUserHostAccess : hostID ∈ undeniedHosts (listUserHostAccess now userID t) ↔
      Granted now userID t hostID ∧ ¬ Denied userID t hostID := by
  have hlisted : ∀ h : HostRow, (grantedDirectly userID t h.id || sharesGroup userID t h.id ||
      grantedTemporarily now userID t h.id) ↔ Granted now userID t h.id := by
    intro h
    rw [← mem_grantedHosts, grantedHosts, List.mem_dedup, List.mem_append, List.mem_append,
      List.mem_append, Bool.or_eq_true, Bool.or_eq_true, sharesGroup_iff, grantedDirectly_iff,
      grantedTemporarily_iff]
    tauto
  constructor
  · intro h
    obtain ⟨a, ha, rfl⟩ := List.mem_map.mp h
    obtain ⟨hrow, hallowed⟩ := List.mem_filter.mp ha
    obtain ⟨r, hr, rfl⟩ := List.mem_map.mp hrow
    unfold byHostname at hr
    rw [List.mem_insertionSort, Table.mem_select] at hr
    refine ⟨(hlisted r).mp hr.2, ?_⟩
    rw [Bool.not_eq_true', Bool.eq_false_iff, Ne, deniedHost_iff] at hallowed
    exact hallowed
  · rintro ⟨hgranted, hallowed⟩
    obtain ⟨r, hr, rfl⟩ := hgranted.exists_host
    refine List.mem_map.mpr ⟨_, List.mem_filter.mpr ⟨List.mem_map.mpr ⟨r, ?_, rfl⟩, ?_⟩, rfl⟩
    · unfold byHostname
      rw [List.mem_insertionSort, Table.mem_select]
      exact ⟨hr, (hlisted r).mpr hgranted⟩
    · rw [Bool.not_eq_true', Bool.eq_false_iff, Ne, deniedHost_iff]
      exact hallowed

end

/-- The four deciders give a user the same hosts. -/
def DecidersAgree (now : Instant) (userID : UUID) (t : AccessTables) : Prop :=
  ∀ hostID,
    (hostID ∈ accessibleHostIDs now userID t false ↔ userCanAccessHost now userID t hostID) ∧
    (hostID ∈ (listAccessibleHosts now userID t false).map HostRow.id ↔
      userCanAccessHost now userID t hostID) ∧
    (hostID ∈ undeniedHosts (listUserHostAccess now userID t) ↔
    userCanAccessHost now userID t hostID)

/-- They agree iff no host that a source grants to the user is denied. -/
theorem deciders_agree_iff (now : Instant) (userID : UUID) (t : AccessTables) :
    DecidersAgree now userID t ↔ ∀ hostID, Granted now userID t hostID →
    ¬ Denied userID t hostID := by
  constructor
  · intro h hostID hgranted
    have hcan := (h hostID).1.mp (mem_accessibleHostIDs.mpr hgranted)
    exact (userCanAccessHost_iff.mp hcan).2
  · intro h hostID
    refine ⟨?_, ?_, ?_⟩
    · rw [mem_accessibleHostIDs, userCanAccessHost_iff]
      exact ⟨fun hgranted => ⟨hgranted, h hostID hgranted⟩, And.left⟩
    · rw [mem_listAccessibleHosts, userCanAccessHost_iff]
    · rw [mem_listUserHostAccess, userCanAccessHost_iff]

/-- User 1 was given host 9 and is denied it now. -/
def deniedAgain : AccessTables where
  hosts := .single ⟨.ofNat 9, "web", "", "", "", ""⟩
  userGroups := []
  hostGroups := []
  hostUsers := [⟨.ofNat 9, .ofNat 1⟩]
  permissions := .empty
  denials := [⟨.ofNat 1, .ofNat 9⟩]
  hostGroups_host _ h := absurd h List.not_mem_nil
  hostUsers_host _ h := ⟨_, List.mem_singleton_self _, by rw [List.mem_singleton.mp h]⟩
  permissions_host _ h := absurd h Table.not_mem_empty

theorem accessibleHostIDs_of_denied : .ofNat 9 ∈ accessibleHostIDs 0 (.ofNat 1) deniedAgain false ∧
      userCanAccessHost 0 (.ofNat 1) deniedAgain (.ofNat 9) = false ∧
      listAccessibleHosts 0 (.ofNat 1) deniedAgain false = [] ∧
      ¬ DecidersAgree 0 (.ofNat 1) deniedAgain := by
  refine ⟨?listed, ?cannot, by decide +kernel, fun hagree =>
    Bool.eq_false_iff.mp ?cannot ((hagree (.ofNat 9)).1.mp ?listed)⟩
  all_goals decide +kernel

end Moorgate.Store
