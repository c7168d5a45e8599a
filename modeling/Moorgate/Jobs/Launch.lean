import Moorgate.Admin.Guards
import Moorgate.Framework.Base.Checks
import Moorgate.Framework.Base.Text
import Moorgate.Store.HostAccess

/-!
# Requests that start jobs: `vulnscan`, `scan`, `command` and `playbook` handlers

A permission lets a user start a kind of job, and access to a host is asked for apart. The handlers
of compliance scans, commands and playbooks ask `UserCanAccessHost` for every host of a request.
The handler of vulnerability scans resolves hosts by id, by list or by group and asks for none.
-/

namespace Moorgate.Jobs

open Framework Models Store Auth

/-! ## Requests -/

/-- An id in a request: the text, where it does not parse. -/
abbrev RawID := Except String UUID

structure TriggerReq where
  (hostID groupID : Option RawID)
  hostIDs : List RawID

structure CommandReq where
  (command targetKind : String)
  hostIDs : List RawID
  groupID : RawID

structure PlaybookReq where
  targetKind : String
  hostIDs : List RawID
  groupID : RawID
  targetID : Option RawID

/-- A body is `none` when it is no JSON. -/
inductive LaunchRequest where
  | vulnScan (body : Option TriggerReq)
  | prepareScan (host : RawID)
  | startScan (host : RawID)
  | command (body : Option CommandReq)
  | playbook (id : RawID) (body : Option PlaybookReq)

/-- The tables: `protocol` is a column of `hosts`, and `groups` and `playbooks` are the ids there
are. -/
structure LaunchTables where
  access : AccessTables
  protocol : UUID → String
  (groups playbooks : List UUID)

/-- What a request meets: the time, the statements that fail, the reason for which a policy
denies a host, and the hosts on which an installation is under way. -/
structure LaunchEnv where
  now : Instant
  (hostFails accessFails : UUID → Bool)
  (groupFails membersFail playbookFails : Bool)
  createFails : UUID → Bool
  createRunFails : Bool
  denies : HostRow → Option String
  installing : UUID → Bool

structure Refusal where
  status : ℕ
  message : String

/-! ## Resolving hosts -/

section

variable (env : LaunchEnv) (t : LaunchTables) (p : Principal)

def getHost (id : UUID) : Option HostRow :=
  if env.hostFails id then none else t.access.hosts.lookup id

def hostsInGroup (groupID : UUID) : Option (List HostRow) :=
  if env.membersFail then none
  else some (byHostname (t.access.hosts.select fun h => decide (⟨h.id, groupID⟩ ∈
    t.access.hostGroups)))

def getGroup (id : UUID) : Bool := !env.groupFails && decide (id ∈ t.groups)

/-- `canAccess` of `scan`, and `canAccessHost` of the two others. -/
def canAccess (hostID : UUID) : Bool :=
  p.isSuperAdmin || (!env.accessFails hostID && userCanAccessHost env.now p.userID t.access hostID)

def triggerHosts (rq : TriggerReq) : Except Refusal (List HostRow) :=
  match rq.hostID, rq.hostIDs, rq.groupID with
  | some (.error _), _, _ => .error ⟨400, "invalid host id"⟩
  | some (.ok id), _, _ =>
    match getHost env t id with
    | none => .error ⟨404, "no such host"⟩
    | some host => .ok [host]
  | none, [], none => .error ⟨400, "hostId or groupId is required"⟩
  | none, [], some (.error _) => .error ⟨400, "invalid group id"⟩
  | none, [], some (.ok id) =>
    match hostsInGroup env t id with
    | none => .error ⟨500, "could not resolve group"⟩
    | some members => .ok members
  | none, ids, _ =>
    if 1000 < ids.length then .error ⟨400, "too many hosts in one request"⟩
    else
      -- the first id that does not parse ends the request; a host that is gone is skipped
      (ids.mapM fun raw : RawID => raw.mapError fun text => Refusal.mk 400 ("invalid host id: " ++
        text)).map fun ids => ids.filterMap (getHost env t)

def targetHosts (check : HostRow → Option Refusal) (seen : List UUID) :
    List RawID → Except Refusal (List HostRow)
  | [] => .ok []
  | .error _ :: _ => .error ⟨400, "bad host id"⟩
  | .ok id :: ids =>
    if id ∈ seen then targetHosts check seen ids
    else
      match getHost env t id with
      | none => .error ⟨404, "host not found"⟩
      | some host =>
        match check host with
        | some refusal => .error refusal
        | none => (targetHosts check (id :: seen) ids).map (host :: ·)

def targetGroup (keep : HostRow → Bool) (message : String) : RawID → Except Refusal (List HostRow)
  | .error _ => .error ⟨400, "bad group id"⟩
  | .ok id =>
    if getGroup env t id then
      match hostsInGroup env t id with
      | none => .error ⟨500, "could not resolve group hosts"⟩
      | some members =>
        if members.filter keep = [] then .error ⟨403, message⟩ else .ok (members.filter keep)
    else .error ⟨404, "group not found"⟩

def notAuthorized (host : HostRow) : Refusal := ⟨403, "not authorized for host " ++ host.hostname⟩

def commandCheck (host : HostRow) : Option Refusal :=
  if t.protocol host.id = "rdp" then some ⟨400,
    host.hostname ++ " is a Windows host (use PowerShell scripts)"⟩
  else if !canAccess env t p host.id then some (notAuthorized host)
  else (env.denies host).map (Refusal.mk 403)

def commandKeep (host : HostRow) : Bool :=
  decide (t.protocol host.id ≠ "rdp") && canAccess env t p host.id && (env.denies host).isNone

def playbookCheck (host : HostRow) : Option Refusal :=
  if !canAccess env t p host.id then some (notAuthorized host) else none

def commandHosts (rq : CommandReq) : Except Refusal (List HostRow) :=
  if trimSpace rq.command = "" then .error ⟨400, "command is required"⟩
  else if rq.targetKind = "host" ∨ rq.targetKind = "" then
    if rq.hostIDs = [] then .error ⟨400, "no target hosts"⟩
    else targetHosts env t (commandCheck env t p) [] rq.hostIDs
  else if rq.targetKind = "group" then
    targetGroup env t (commandKeep env t p) "no Linux hosts in this group are accessible to you"
      rq.groupID
  else .error ⟨400, "unknown target kind"⟩

def playbookHosts (rq : PlaybookReq) : Except Refusal (List HostRow) :=
  if rq.targetKind = "host" ∨ rq.targetKind = "" then
    match if rq.hostIDs = [] then rq.targetID.toList else rq.hostIDs with
    | [] => .error ⟨400, "no target hosts"⟩
    | ids => targetHosts env t (playbookCheck env t p) [] ids
  else if rq.targetKind = "group" then
    targetGroup env t (fun host => canAccess env t p host.id)
      "no hosts in this group are accessible to you" rq.groupID
  else .error ⟨400, "unknown target kind"⟩

def hostFromURL : RawID → Except Refusal HostRow
  | .error _ => .error ⟨400, "bad host id"⟩
  | .ok id =>
    match getHost env t id with
    | none => .error ⟨404, "host not found"⟩
    | some host =>
      if canAccess env t p host.id then .ok host else .error ⟨403, "not authorized for host"⟩

/-! ## Starting -/

def requirePermission (perm : String) : Except Refusal Unit :=
  refuseIf (!p.has perm) (Refusal.mk 403 ("missing permission: " ++ perm))

def requirePrivilegedPermission (perm : String) : Except Refusal Unit := do
  requirePermission p perm
  refuseIf (!p.has "Host.Sudo") ⟨403,
    perm ++ " runs as root on the target host and also requires Host.Sudo"⟩

def decoded {α : Type*} : Option α → Except Refusal α
  | none => .error ⟨400, "invalid request body"⟩
  | some body => .ok body

def launchVulnScan (body : Option TriggerReq) : Except Refusal (List HostRow) := do
  requirePermission p "Host.Scan"
  let rq ← decoded body
  let hosts ← triggerHosts env t rq
  refuseIf hosts.isEmpty ⟨400, "no hosts to scan"⟩
  return hosts.filter fun host => !env.createFails host.id

def launchPrepare (host : RawID) : Except Refusal (List HostRow) := do
  requirePermission p "Host.Scan"
  let host ← hostFromURL env t p host
  return if env.installing host.id then [] else [host]

def launchScan (host : RawID) : Except Refusal (List HostRow) := do
  requirePermission p "Host.Scan"
  let host ← hostFromURL env t p host
  refuseIf (env.createFails host.id) ⟨500, "could not create scan"⟩
  return [host]

def launchCommand (body : Option CommandReq) : Except Refusal (List HostRow) := do
  requirePermission p "Command.Run"
  let rq ← decoded body
  let hosts ← commandHosts env t p rq
  refuseIf env.createRunFails ⟨500, "could not create run"⟩
  return hosts

def launchPlaybook (id : RawID) (body : Option PlaybookReq) : Except Refusal (List HostRow) := do
  requirePrivilegedPermission p "Playbook.Run"
  let id ← id.mapError fun _ => ⟨400, "bad id"⟩
  refuseIf (env.playbookFails || !decide (id ∈ t.playbooks)) ⟨404, "playbook not found"⟩
  let rq ← decoded body
  let hosts ← playbookHosts env t p rq
  refuseIf env.createRunFails ⟨500, "could not create run"⟩
  return hosts

/-- The hosts on which work is started, or the refusal. -/
def launch : LaunchRequest → Except Refusal (List HostRow)
  | .vulnScan body => launchVulnScan env t p body
  | .prepareScan host => launchPrepare env t p host
  | .startScan host => launchScan env t p host
  | .command body => launchCommand env t p body
  | .playbook id body => launchPlaybook env t p id body

end

/-! ## Access -/

/-- No work is started on a host that is not the user's, unless they are a super
administrator. -/
def Confined (env : LaunchEnv) (t : LaunchTables) (p : Principal) (rq : LaunchRequest) : Prop :=
  p.isSuperAdmin = false → ∀ hosts, launch env t p rq = .ok hosts →
    ∀ host ∈ hosts, userCanAccessHost env.now p.userID t.access host.id

/-- The body leads to this host: by its id, else by a list in which every id parses, else as a
member of the group. A host or the members may be unreadable. -/
def TriggerReq.Names (env : LaunchEnv) (t : LaunchTables) (rq : TriggerReq) (id : UUID) : Prop :=
  match rq.hostID, rq.hostIDs, rq.groupID with
  | some raw, _, _ => raw = .ok id ∧ env.hostFails id = false
  | none, [], some raw =>
    ∃ groupID, raw = .ok groupID ∧ ⟨id, groupID⟩ ∈ t.access.hostGroups ∧ env.membersFail = false
  | none, ids, _ => ∃ parsed : List UUID, ids = parsed.map .ok ∧ parsed.length ≤ 1000 ∧
    id ∈ parsed ∧ env.hostFails id = false

/-- A user who may scan names a host that is there, is not theirs, and can be given a row. -/
def NamesForeign (env : LaunchEnv) (t : LaunchTables) (p : Principal) (rq : TriggerReq) : Prop :=
  p.isSuperAdmin = false ∧ p.has "Host.Scan" ∧ ∃ host ∈ t.access.hosts.rows,
    rq.Names env t host.id ∧ env.createFails host.id = false ∧
      userCanAccessHost env.now p.userID t.access host.id = false

section

variable {env : LaunchEnv} {t : LaunchTables} {p : Principal} {hosts : List HostRow}
  {host : HostRow}

theorem access_of_canAccess {hostID : UUID} (hsuper : p.isSuperAdmin = false)
    (h : canAccess env t p hostID) : userCanAccessHost env.now p.userID t.access hostID := by
  unfold canAccess at h
  rw [hsuper, Bool.false_or, Bool.and_eq_true] at h
  exact h.2

theorem check_of_targetHosts {check : HostRow → Option Refusal} {seen : List UUID}
    {ids : List RawID} (h : targetHosts env t check seen ids = .ok hosts) :
    ∀ host ∈ hosts, check host = none := by
  fun_induction targetHosts env t check seen ids generalizing hosts with
  | case1 =>
    cases h
    exact fun _ hmem => absurd hmem List.not_mem_nil
  | case3 seen id ids _ ih => exact ih h
  | case6 seen id ids _ found _ hcheck ih =>
    obtain ⟨rest, hrest, rfl⟩ := map_eq_ok.mp h
    rw [List.forall_mem_cons]
    exact ⟨hcheck, ih hrest⟩
  | _ => cases h

theorem keep_of_targetGroup {keep : HostRow → Bool} {message : String} {id : RawID}
    (h : targetGroup env t keep message id = .ok hosts) : ∀ host ∈ hosts, keep host := by
  revert h
  fun_cases targetGroup env t keep message id with
  | case4 =>
    rintro ⟨⟩
    exact fun host hmem => (List.mem_filter.mp hmem).2
  | _ => rintro ⟨⟩

theorem canAccess_of_commandHosts {rq : CommandReq} (h : commandHosts env t p rq = .ok hosts) :
    ∀ host ∈ hosts, canAccess env t p host.id := by
  intro host hmem
  revert h
  fun_cases commandHosts env t p rq with
  | case3 =>
    intro h
    have hcheck := check_of_targetHosts h host hmem
    unfold commandCheck at hcheck
    split at hcheck
    · cases hcheck
    · split at hcheck
      · cases hcheck
      · next hcan => simpa using hcan
  | case4 =>
    intro h
    have hkeep := keep_of_targetGroup h host hmem
    unfold commandKeep at hkeep
    rw [Bool.and_eq_true, Bool.and_eq_true] at hkeep
    exact hkeep.1.2
  | _ => rintro ⟨⟩

theorem canAccess_of_playbookHosts {rq : PlaybookReq} (h : playbookHosts env t p rq = .ok hosts) :
    ∀ host ∈ hosts, canAccess env t p host.id := by
  intro host hmem
  revert h
  fun_cases playbookHosts env t p rq with
  | case2 =>
    intro h
    have hcheck := check_of_targetHosts h host hmem
    unfold playbookCheck at hcheck
    split at hcheck
    · cases hcheck
    · next hcan => simpa using hcan
  | case3 => exact fun h => keep_of_targetGroup h host hmem
  | _ => rintro ⟨⟩

theorem canAccess_of_hostFromURL {raw : RawID} (h : hostFromURL env t p raw = .ok host) :
    canAccess env t p host.id := by
  cases raw with
  | error text => cases h
  | ok id =>
    rw [hostFromURL] at h
    split at h
    · cases h
    split at h
    · rename_i hcan
      cases h
      exact hcan
    · cases h

theorem launchVulnScan_eq_ok {rq : TriggerReq} :
    launchVulnScan env t p (some rq) = .ok hosts ↔ p.has "Host.Scan" ∧ ∃ named,
      triggerHosts env t rq = .ok named ∧ named.isEmpty = false ∧
        named.filter (fun host => !env.createFails host.id) = hosts := by
  have hbody : ∀ {body}, decoded (some rq) = .ok body ↔ rq = body :=
    ⟨Except.ok.inj, congrArg Except.ok⟩
  simp only [launchVulnScan, requirePermission, bind_eq_ok, refuseIf_eq_ok, hbody, exists_eq_left',
    exists_const, pure, Except.pure, Except.ok.injEq, Bool.not_eq_false']

theorem getHost_eq_some {id : UUID} : getHost env t id = some host ↔
    host ∈ t.access.hosts.rows ∧ host.id = id ∧ env.hostFails id = false := by
  unfold getHost
  split
  · next hfails => simp [hfails]
  · next hfails => simp [hfails, Table.lookup_eq_some]

theorem mem_hostsInGroup {groupID : UUID} :
    (∃ members, hostsInGroup env t groupID = some members ∧ host ∈ members) ↔
      host ∈ t.access.hosts.rows ∧ ⟨host.id, groupID⟩ ∈ t.access.hostGroups ∧
        env.membersFail = false := by
  unfold hostsInGroup byHostname
  split
  · next hfails => simp [hfails]
  · next hfails => simp [hfails]

theorem mapM_eq_ok {e : String → Refusal} {raws : List RawID} {ids : List UUID} :
    (raws.mapM fun raw => raw.mapError e) = .ok ids ↔ raws = ids.map .ok := by
  induction raws generalizing ids with
  | nil => cases ids <;> simp [pure, Except.pure]
  | cons raw raws ih =>
    rw [List.mapM_cons, bind_eq_ok]
    cases raw with
    | error text => cases ids <;> simp [Except.mapError]
    | ok id =>
      have hparsed : (Except.ok id : RawID).mapError e = .ok id := rfl
      cases ids <;> simp [hparsed, bind_eq_ok, ih, pure, Except.pure, and_comm]

theorem exists_mem_triggerHosts {rq : TriggerReq} :
    (∃ hosts, triggerHosts env t rq = .ok hosts ∧ host ∈ hosts) ↔
      host ∈ t.access.hosts.rows ∧ rq.Names env t host.id := by
  obtain ⟨hostID, groupID, hostIDs⟩ := rq
  rcases hostID with - | text | id
  · cases hostIDs with
    | nil =>
      rcases groupID with - | text | groupID
      · simp [triggerHosts, TriggerReq.Names]
      · simp [triggerHosts, TriggerReq.Names]
      · have hmembers : (∃ members, hostsInGroup env t groupID = some members ∧ host ∈ members) ↔
            _ := mem_hostsInGroup
        cases hgroup : hostsInGroup env t groupID <;>
          simpa [triggerHosts, TriggerReq.Names, hgroup] using hmembers
    | cons raw raws =>
      simp only [triggerHosts, TriggerReq.Names]
      split
      · next hmany =>
        refine iff_of_false (fun h => nomatch h) ?_
        rintro ⟨-, parsed, hparsed, hfew, -⟩
        rw [hparsed, List.length_map] at hmany
        omega
      · next hfew =>
        constructor
        · rintro ⟨hosts, hhosts, hmem⟩
          obtain ⟨parsed, hparsed, rfl⟩ := map_eq_ok.mp hhosts
          obtain ⟨id, hid, hhost⟩ := List.mem_filterMap.mp hmem
          obtain ⟨hrow, rfl, hread⟩ := getHost_eq_some.mp hhost
          rw [mapM_eq_ok] at hparsed
          refine ⟨hrow, parsed, hparsed, ?_, hid, hread⟩
          rw [hparsed, List.length_map] at hfew
          omega
        · rintro ⟨hrow, parsed, hparsed, -, hid, hread⟩
          refine ⟨_, map_eq_ok.mpr ⟨parsed, mapM_eq_ok.mpr hparsed, rfl⟩, ?_⟩
          exact List.mem_filterMap.mpr ⟨_, hid, getHost_eq_some.mpr ⟨hrow, rfl, hread⟩⟩
  · simp [triggerHosts, TriggerReq.Names]
  · have hread : (host ∈ t.access.hosts.rows ∧ TriggerReq.Names env t ⟨some (.ok id), groupID,
        hostIDs⟩ host.id) ↔ getHost env t id = some host := by
      simp only [TriggerReq.Names, Except.ok.injEq, getHost_eq_some, @eq_comm _ id]
      exact and_congr_right fun _ => and_congr_right fun hid => by rw [hid]
    rw [hread]
    cases hhost : getHost env t id <;> simp [triggerHosts, hhost, @eq_comm _ host]

theorem confined_vulnScan_iff (rq : TriggerReq) :
    Confined env t p (.vulnScan (some rq)) ↔ ¬ NamesForeign env t p rq := by
  constructor
  · rintro h ⟨hsuper, hperm, host, hhost, hnames, hcreate, hforeign⟩
    obtain ⟨named, hnamed, hmem⟩ := exists_mem_triggerHosts.mpr ⟨hhost, hnames⟩
    have hstarted : launch env t p (.vulnScan (some rq)) =
        .ok (named.filter fun host => !env.createFails host.id) := by
      refine launchVulnScan_eq_ok.mpr ⟨hperm, named, hnamed, ?_, rfl⟩
      rw [List.isEmpty_eq_false_iff]
      exact List.ne_nil_of_mem hmem
    have howned := h hsuper _ hstarted host (List.mem_filter.mpr ⟨hmem, by rw [hcreate]; rfl⟩)
    exact Bool.eq_false_iff.mp hforeign howned
  · intro h hsuper hosts hlaunch host hmem
    obtain ⟨hperm, named, hnamed, -, rfl⟩ := launchVulnScan_eq_ok.mp hlaunch
    obtain ⟨hmem, hcreate⟩ := List.mem_filter.mp hmem
    obtain ⟨hhost, hnames⟩ := exists_mem_triggerHosts.mp ⟨named, hnamed, hmem⟩
    by_contra hforeign
    exact h ⟨hsuper, hperm, host, hhost, hnames, by simpa using hcreate,
      Bool.eq_false_iff.mpr hforeign⟩

/-- The other requests ask for every host. -/
theorem canAccess_of_launch {rq : LaunchRequest} (hrq : ∀ body, rq ≠ .vulnScan body)
    (h : launch env t p rq = .ok hosts) : ∀ host ∈ hosts, canAccess env t p host.id := by
  cases rq with
  | vulnScan body => exact absurd rfl (hrq body)
  | prepareScan raw =>
    simp only [launch, launchPrepare, bind_eq_ok] at h
    obtain ⟨-, -, host, hhost, ⟨⟩⟩ := h
    split
    · exact fun _ hmem => absurd hmem List.not_mem_nil
    · rw [List.forall_mem_singleton]
      exact canAccess_of_hostFromURL hhost
  | startScan raw =>
    simp only [launch, launchScan, bind_eq_ok] at h
    obtain ⟨-, -, host, hhost, -, -, ⟨⟩⟩ := h
    rw [List.forall_mem_singleton]
    exact canAccess_of_hostFromURL hhost
  | command body =>
    simp only [launch, launchCommand, bind_eq_ok] at h
    obtain ⟨-, -, rq, -, named, hnamed, -, -, ⟨⟩⟩ := h
    exact canAccess_of_commandHosts hnamed
  | playbook id body =>
    simp only [launch, launchPlaybook, bind_eq_ok] at h
    obtain ⟨-, -, playbookID, -, -, -, rq, -, named, hnamed, -, -, ⟨⟩⟩ := h
    exact canAccess_of_playbookHosts hnamed

theorem confined_of_ne_vulnScan {rq : LaunchRequest} (hrq : ∀ body, rq ≠ .vulnScan body) :
    Confined env t p rq :=
  fun hsuper _ h host hmem => access_of_canAccess hsuper (canAccess_of_launch hrq h host hmem)

end

/-- Every job stays within the access of the requester, exactly when a vulnerability scan names
hosts of theirs only. -/
theorem jobs_confined_iff (env : LaunchEnv) (t : LaunchTables) (p : Principal)
    (rq : LaunchRequest) :
    Confined env t p rq ↔ ∀ body, rq = .vulnScan (some body) → ¬ NamesForeign env t p body := by
  constructor
  · rintro h body rfl
    exact (confined_vulnScan_iff body).mp h
  · intro h
    by_cases hvuln : ∃ body, rq = .vulnScan body
    · obtain ⟨body, rfl⟩ := hvuln
      cases body with
      | some rq => exact (confined_vulnScan_iff rq).mpr (h rq rfl)
      | none =>
        -- a body that is no JSON starts nothing
        intro _ hosts hlaunch
        obtain ⟨-, -, hlaunch⟩ := bind_eq_ok.mp hlaunch
        obtain ⟨rq, hbody, -⟩ := bind_eq_ok.mp hlaunch
        cases hbody
    · exact confined_of_ne_vulnScan fun body hbody => hvuln ⟨body, hbody⟩

def lonelyHost : LaunchTables where
  access :=
    { hosts := .single ⟨.ofNat 7, "db1", "", "prod", "", "10.0.0.7"⟩
      userGroups := []
      hostGroups := [⟨.ofNat 7, .ofNat 4⟩]
      hostUsers := []
      permissions := .empty
      denials := []
      hostGroups_host := by decide +kernel
      hostUsers_host := by decide +kernel
      permissions_host := by decide +kernel }
  protocol _ := "ssh"
  groups := [.ofNat 4]
  playbooks := []

def calm : LaunchEnv where
  now := 0
  hostFails _ := false
  accessFails _ := false
  groupFails := false
  membersFail := false
  playbookFails := false
  createFails _ := false
  createRunFails := false
  denies _ := none
  installing _ := false

def auditor : Principal :=
  ⟨.ofNat 3, .ofNat 13, "auditor", false, ["Host.View", "Host.Scan"], false, .ofNat 1⟩

def startedOn (rq : LaunchRequest) : List UUID :=
  match launch calm lonelyHost auditor rq with
  | .error _ => []
  | .ok hosts => hosts.map HostRow.id

/-- By host, by list and by group, a host is scanned that the user has no access to; a compliance
scan of it is refused. -/
theorem foreign_host_scanned :
    auditor.isSuperAdmin = false ∧
    userCanAccessHost calm.now auditor.userID lonelyHost.access (.ofNat 7) = false ∧
      startedOn (.vulnScan (some ⟨some (.ok (.ofNat 7)), none, []⟩)) = [.ofNat 7] ∧
      startedOn (.vulnScan (some ⟨none, none, [.ok (.ofNat 7)]⟩)) = [.ofNat 7] ∧
      startedOn (.vulnScan (some ⟨none, some (.ok (.ofNat 4)), []⟩)) = [.ofNat 7] ∧
      startedOn (.startScan (.ok (.ofNat 7))) = [] := by
  decide +kernel

end Moorgate.Jobs
