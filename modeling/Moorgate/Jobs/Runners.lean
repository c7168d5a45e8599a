import Moorgate.Command.Run
import Moorgate.Jobs.Rows
import Moorgate.Jobs.Slots

/-!
# The runners: `command/run.go`, `winscript/run.go`, `playbook/run.go`, `vulnscan/service.go`

Each `Run` tries to leave its row in a terminal status on every path. The last write may still be
refused: a NUL, a byte that is no UTF-8 or half a character in what a host prints leaves the row as
it was. And a vulnerability scan writes in the context that its timeout has ended.

A runner is modelled as what its row becomes, given all that comes from outside. Hosts run at once,
and are listed in the order in which they finish.
-/

namespace Moorgate.Jobs

open Framework

/-! ## Hosts -/

structure HostResult where
  (hostname out : ByteString)
  code : ℤ
  failed : Bool

def cappedWrite (buf p : ByteString) : ByteString := buf ++ p.take (maxOutput - buf.length)

/-- How a command ends on a host. Where it ran, `writes` is what it printed. -/
inductive CommandOutcome where
  | handled (r : Command.PolicyResult)
  | jumpCredential (err : ByteString)
  | hostCredential (err : ByteString)
  | unreachable (err : ByteString)
  | session (err : ByteString)
  | timedOut (writes : List ByteString)
  | errored (writes : List ByteString) (err : ByteString)
  | exited (writes : List ByteString) (code : ℤ)

def commandRunOne (hostname : ByteString) : CommandOutcome → HostResult
  | .handled r => ⟨hostname, utf8 r.output, r.code, r.failed⟩
  | .jumpCredential err => ⟨hostname, utf8 "could not issue jump credential: " ++ err, -1, true⟩
  | .hostCredential err => ⟨hostname, utf8 "could not issue host credential: " ++ err, -1, true⟩
  | .unreachable err => ⟨hostname, utf8 "host unreachable: " ++ err, -1, true⟩
  | .session err => ⟨hostname, utf8 "session: " ++ err, -1, true⟩
  | .timedOut writes => ⟨hostname, writes.foldl cappedWrite [] ++ utf8 "\n[timed out]", -1, true⟩
  | .errored writes err =>
    ⟨hostname, writes.foldl cappedWrite [] ++ utf8 "\n[error: " ++ err ++ utf8 "]", -1, true⟩
  | .exited writes code =>
    ⟨hostname, writes.foldl cappedWrite [] ++ utf8 ("\n[exit code " ++ toString code ++ "]"), code,
      decide (code ≠ 0)⟩

inductive ScriptOutcome where
  | jumpCredential (err : ByteString)
  | jumpUnreachable (err : ByteString)
  | credential (err : ByteString)
  | winrm (err : ByteString)
  | exited (stdout stderr : ByteString) (code : ℤ)

def scriptRunOne (hostname : ByteString) : ScriptOutcome → HostResult
  | .jumpCredential err => ⟨hostname, utf8 "could not issue jump credential: " ++ err, -1, true⟩
  | .jumpUnreachable err => ⟨hostname, utf8 "jump host unreachable: " ++ err, -1, true⟩
  | .credential err => ⟨hostname, utf8 "credential unavailable: " ++ err, -1, true⟩
  | .winrm err => ⟨hostname, utf8 "winrm error: " ++ err, -1, true⟩
  | .exited stdout stderr code =>
    ⟨hostname, trimNewlines stdout ++
      (if trimSpaceBytes stderr = [] then [] else utf8 "\n[stderr]\n" ++ trimNewlines stderr) ++
      utf8 ("\n[exit code " ++ toString code ++ "]"), code, decide (code ≠ 0)⟩

def HostResult.sect (r : HostResult) : ByteString :=
  utf8 "===== " ++ r.hostname ++ utf8 " =====\n" ++ r.out ++ utf8 "\n"

structure Tally where
  live : LiveRun
  anyFail : Bool
  worstCode : ℤ

def Tally.add (t : Tally) (r : HostResult) : Tally where
  live := t.live.append r.sect
  anyFail := t.anyFail || r.failed
  worstCode := if t.worstCode < r.code then r.code else t.worstCode

def tally (rs : List HostResult) : Tally := rs.foldl Tally.add ⟨.empty, false, 0⟩

/-- In `int64` nanoseconds. -/
def batchTimeout (perHost slack : ℤ) (hosts : ℕ) : ℤ :=
  (batchTime perHost slack hosts).bmod (2 ^ 64)

def nanoMinute : ℤ := 60000000000

def timeoutText (nanos : ℤ) : String := "run exceeded the " ++ durationText nanos ++ " timeout"

def verdict (t : Tally) (expired : Bool) (timeout : ℤ) (failure : String) : RunStatus × String :=
  if expired then (.failed, timeoutText timeout) else if t.anyFail then (.failed, failure)
    else (.completed, "")

/-- `Run` of a command run, with the hosts in the order in which they finish. -/
def commandRun (t : Timeout) (hosts : List (ByteString × CommandOutcome)) : RunRow :=
  let row := startRun (t.passed 0) created
  let total := tally (hosts.map fun h => commandRunOne h.1 h.2)
  let v := verdict total (t.passed 1) (batchTimeout (10 * nanoMinute) (2 * nanoMinute) hosts.length)
    "one or more hosts failed or were blocked by policy"
  completeRun row v.1 total.live.buf (some total.worstCode) (utf8 v.2)

/-- `Run` of a PowerShell run. `perHost` is `ScriptTimeout`; the key of the vault is an
error where there is none. -/
def scriptRun (t : Timeout) (perHost : ℤ) (vaultKey : Except ByteString Unit)
    (hosts : List (ByteString × ScriptOutcome)) : RunRow :=
  let row := startRun (t.passed 0) created
  match vaultKey with
  | .error err =>
    completeRun row .failed (LiveRun.empty.append (utf8 "credential vault is not configured: " ++
      err ++ utf8 "\n")).buf none (utf8 "vault not configured")
  | .ok _ =>
    let total := tally (hosts.map fun h => scriptRunOne h.1 h.2)
    let v := verdict total (t.passed 1) (batchTimeout perHost (5 * nanoMinute) hosts.length)
        "one or more hosts failed"
    completeRun row v.1 total.live.buf (some total.worstCode) (utf8 v.2)

/-! ## Playbooks -/

/-- A frame of the Ansible runner. Its texts come out of a JSON document, so they are
texts. -/
structure RunnerEvent where
  line : String
  done : Bool
  rc : ℤ
  error : String

/-- The answer of the Ansible runner: `body` is what the first read yields of it, `frames` are
its lines, `none` those that do not parse, and `streamErr` is the error of the scanner. -/
structure RunnerAnswer where
  status : ℤ
  body : ByteString
  frames : List (Option RunnerEvent)
  streamErr : Option ByteString

/-- A target. `material` is what `MaterialForSystem` returns; it is asked for a vaulted host
only. -/
structure PlaybookHost where
  hostname : ByteString
  vaulted : Bool
  material : Except ByteString Unit

structure PlaybookInput where
  timeout : ℤ
  configured : Bool
  (keyMaterial vaultKey : Except ByteString Unit)
  hosts : List PlaybookHost
  request : Except ByteString Unit
  answer : Except ByteString RunnerAnswer

def PlaybookInput.hostMaterial (i : PlaybookInput) (h : PlaybookHost) : Except ByteString Unit :=
  if h.vaulted then
    (i.vaultKey.bind fun _ => h.material).mapError fun e =>
      utf8 "host " ++ h.hostname ++ utf8 ": " ++ e
  else .ok ()

/-- Up to the answer of the runner: the error is the message of `fail`. -/
def PlaybookInput.submit (i : PlaybookInput) : Except ByteString RunnerAnswer := do
  if !i.configured then throw (utf8 "ansible runner not configured")
  i.keyMaterial.mapError fun e => utf8 "could not issue run credential: " ++ e
  i.hosts.forM i.hostMaterial
  i.request
  let resp ← i.answer.mapError fun e => utf8 "ansible runner unreachable: " ++ e
  if resp.status ≠ 200 then
    throw (utf8 ("ansible runner error (" ++ toString resp.status ++ "): ") ++ trimSpaceBytes
      (resp.body.take 4096))
  return resp

/-- The loop over the frames: the buffer, and the exit code if it was reported. -/
def readFrames (live : LiveRun) : List (Option RunnerEvent) → LiveRun × Option ℤ
  | [] => (live, none)
  | none :: frames => readFrames live frames
  | some ev :: frames =>
    if ev.done then (if ev.error = "" then live else live.append (utf8 (ev.error ++ "\n")),
      some ev.rc)
    else readFrames (live.append (utf8 (ev.line ++ "\n"))) frames

def playbookVerdict (exitCode : Option ℤ) (expired : Bool) (timeout : ℤ) : RunStatus × String :=
  match exitCode with
  | none => (.failed, if expired then timeoutText timeout else "run did not report completion")
  | some rc =>
    if rc = 0 then (.completed, "") else (.failed, "ansible-playbook exited " ++ toString rc)

def playbookRun (t : Timeout) (i : PlaybookInput) : RunRow :=
  let row := startRun (t.passed 0) created
  match i.submit with
  | .error msg => completeRun row .failed msg none msg
  | .ok resp =>
    -- a line that does not parse is skipped, and the first `done` ends the loop
    let (live, exitCode) := readFrames .empty resp.frames
    let live := match resp.streamErr with
      | none => live
      | some err => live.append (utf8 "\n[stream error: " ++ err ++ utf8 "]\n")
    let v := playbookVerdict exitCode (t.passed 1) i.timeout
    completeRun row v.1 live.buf exitCode (utf8 v.2)

/-! ## Vulnerability scans -/

structure Finding where
  (cve package installedVersion fixedVersion fixState severity cvssVector dataSource
    description : ByteString)

/-- `FixStateOf`: one of the known states. -/
def fixStates : List ByteString := ["fixed", "not-fixed", "unknown", "wont-fix"].map utf8

def fixStateOf (f : Finding) : ByteString :=
  let s := toLowerAscii (trimSpaceBytes f.fixState)
  if s ∈ fixStates then s else if trimSpaceBytes f.fixedVersion = [] then utf8 "unknown"
    else utf8 "fixed"

def Finding.texts (f : Finding) : List ByteString :=
  [f.cve, f.package, f.installedVersion, f.fixedVersion, fixStateOf f, f.severity, f.cvssVector,
    f.dataSource, f.description]

/-- What a scan meets. `unmarshal` reads the answer of the scanner; `startErr` and `storeErr` are
the texts of the errors of `StartVulnScan` and `CompleteVulnScan`, should they fail. -/
structure ScanInput where
  rdp : Bool
  windows : Except ByteString (List Finding)
  (collect request : Except ByteString Unit)
  answer : Except ByteString (ℤ × ByteString)
  unmarshal : ByteString → Except ByteString (List Finding)
  (startErr storeErr : ByteString)

def scannerError (status : ℤ) (body : ByteString) : ByteString :=
  let msg := trimSpaceBytes body
  let lower := toLowerAscii msg
  if utf8 "no such" <:+: lower ∨ utf8 "database" <:+: lower then
    utf8 "scanner error: " ++ msg.take 300 ++
      utf8 " (update or import the vulnerability database first)"
  else utf8 ("scanner error (" ++ toString status ++ "): ") ++ msg.take 300

def ScanInput.scanSidecar (i : ScanInput) : Except ByteString (List Finding) := do
  i.request
  let (status, all) ← i.answer.mapError fun e => utf8 "scanner unreachable: " ++ e
  let body := all.take (64 * 2 ^ 20)
  if status ≠ 200 then throw (scannerError status body)
  (i.unmarshal body).mapError fun e => utf8 "parse scanner response: " ++ e

/-- What is found, or the message of `fail`. -/
def ScanInput.findings (i : ScanInput) : Except ByteString (List Finding) :=
  if i.rdp then i.windows.mapError fun e => utf8 "collect windows updates: " ++ e
  else do
    i.collect.mapError fun e => utf8 "collect packages: " ++ e
    i.scanSidecar

/-- `FailVulnScan`, in the context of the scan. Its error is dropped. -/
def failVulnScan (expired : Bool) (msg : ByteString) (row : RunRow) : RunRow :=
  if expired = false ∧ Accepted msg then { row with status := .failed, error := msg } else row

/-- `CompleteVulnScan`, one transaction; `none` is its error. -/
def completeVulnScan (expired : Bool) (fs : List Finding) (row : RunRow) : Option RunRow :=
  if expired = false ∧ ∀ f ∈ fs, ∀ text ∈ f.texts, Accepted text then
    some { row with status := .completed }
  else none

def scanRun (t : Timeout) (i : ScanInput) : RunRow :=
  if t.passed 0 then failVulnScan (t.passed 1) (utf8 "start: " ++ i.startErr) created
  else
    let row := startRun false created
    match i.findings with
    | .error msg => failVulnScan (t.passed 2) msg row
    | .ok fs =>
      match completeVulnScan (t.passed 2) fs row with
      | some row => row
      -- what made the transaction fail may make this fail too
      | none => failVulnScan (t.passed 3) (utf8 "store findings: " ++ i.storeErr) row

/-! ## The property -/

/-- A background job with all that it meets. -/
inductive Job where
  | command (t : Timeout) (hosts : List (ByteString × CommandOutcome))
  | script (t : Timeout) (perHost : ℤ) (vaultKey : Except ByteString Unit)
      (hosts : List (ByteString × ScriptOutcome))
  | playbook (t : Timeout) (i : PlaybookInput)
  | scan (t : Timeout) (i : ScanInput)

def Job.run : Job → RunRow
  | .command t hosts => commandRun t hosts
  | .script t perHost vaultKey hosts => scriptRun t perHost vaultKey hosts
  | .playbook t i => playbookRun t i
  | .scan t i => scanRun t i

/-- The first 4 MiB of the output of the hosts are a text, and no exit code is too large. -/
def TextOfHosts (rs : List HostResult) : Prop :=
  Accepted ((rs.map HostResult.sect).flatten.take maxOutput) ∧ ∀ r ∈ rs, r.code < 2 ^ 31

def framePieces : List (Option RunnerEvent) → List ByteString
  | [] => []
  | none :: frames => framePieces frames
  | some ev :: frames =>
    if ev.done then (if ev.error = "" then [] else [utf8 (ev.error ++ "\n")])
    else utf8 (ev.line ++ "\n") :: framePieces frames

def reportedCode : List (Option RunnerEvent) → Option ℤ
  | [] => none
  | none :: frames => reportedCode frames
  | some ev :: frames => if ev.done then some ev.rc else reportedCode frames

def answerPieces (resp : RunnerAnswer) : List ByteString :=
  framePieces resp.frames ++ (resp.streamErr.map fun err => utf8 "\n[stream error: " ++ err ++
    utf8 "]\n").toList

/-- What the job has to record is a text, up to where the output is cut. For a scan the timeout must
not be over either. -/
def Job.Recordable : Job → Prop
  | .command _ hosts => TextOfHosts (hosts.map fun h => commandRunOne h.1 h.2)
  | .script _ _ (.error err) _ =>
    Accepted ((utf8 "credential vault is not configured: " ++ err ++ utf8 "\n").take maxOutput)
  | .script _ _ (.ok _) hosts => TextOfHosts (hosts.map fun h => scriptRunOne h.1 h.2)
  | .playbook _ i =>
    match i.submit with
    | .error msg => Accepted msg
    | .ok resp => Accepted ((answerPieces resp).flatten.take maxOutput) ∧
        (reportedCode resp.frames).all fitsInt
  | .scan t i => t.passed 0 = false ∧
      match i.findings with
      | .error msg => t.passed 2 = false ∧ Accepted msg
      | .ok fs => t.passed 2 = false ∧ (∀ f ∈ fs, ∀ text ∈ f.texts, Accepted text) ∨
          t.passed 3 = false ∧ Accepted (utf8 "store findings: " ++ i.storeErr)

section

variable (rs : List HostResult)

theorem live_foldl_add (t : Tally) :
    (rs.foldl Tally.add t).live = (rs.map HostResult.sect).foldl LiveRun.append t.live := by
  induction rs generalizing t with
  | nil => rfl
  | cons r rs ih =>
    rw [List.foldl_cons, ih]
    rfl

theorem worstCode_foldl_add (t : Tally) (ht : 0 ≤ t.worstCode) :
    0 ≤ (rs.foldl Tally.add t).worstCode ∧
      ∀ {n : ℤ}, (rs.foldl Tally.add t).worstCode < n ↔ t.worstCode < n ∧ ∀ r ∈ rs, r.code < n := by
  induction rs generalizing t with
  | nil => exact ⟨ht, by simp⟩
  | cons r rs ih =>
    have hadd : (t.add r).worstCode = max t.worstCode r.code := by
      show (if t.worstCode < r.code then r.code else t.worstCode) = _
      split <;> omega
    obtain ⟨hnonneg, hiff⟩ := ih (t.add r) (by rw [hadd]; omega)
    refine ⟨hnonneg, ?_⟩
    intro n
    rw [List.foldl_cons, hiff, hadd, List.forall_mem_cons, max_lt_iff, and_assoc]

theorem accepted_tally_iff :
    Accepted (tally rs).live.buf ∧ (some (tally rs).worstCode).all fitsInt ↔ TextOfHosts rs := by
  obtain ⟨hnonneg, hiff⟩ := worstCode_foldl_add rs ⟨.empty, false, 0⟩ le_rfl
  have hcode : (some (tally rs).worstCode).all fitsInt ↔ ∀ r ∈ rs, r.code < 2 ^ 31 := by
    unfold tally
    rw [Option.all_some, fitsInt, decide_eq_true_eq, hiff]
    constructor
    · rintro ⟨-, -, h⟩
      exact h
    · intro h
      exact ⟨by omega, by decide, h⟩
  unfold TextOfHosts
  rw [hcode, ← accepted_joined_iff]
  unfold tally joined
  rw [live_foldl_add]

theorem terminal_verdict (t : Tally) (expired : Bool) (timeout : ℤ) (failure : String) :
    (verdict t expired timeout failure).1.terminal := by
  unfold verdict
  split
  · rfl
  · split <;> rfl

theorem nulFree_timeoutText (nanos : ℤ) : NulFree (timeoutText nanos) :=
  (NulFree.append (by decide) (nulFree_durationText nanos)).append (by decide)

theorem nulFree_verdict (t : Tally) (expired : Bool) (timeout : ℤ) {failure : String}
    (h : NulFree failure) : NulFree (verdict t expired timeout failure).2 := by
  unfold verdict
  split
  · exact nulFree_timeoutText timeout
  · split
    · exact h
    · decide

theorem terminal_hosts_iff {rs : List HostResult} {early late : Bool} {timeout : ℤ}
    {failure : String} (h : NulFree failure) :
    (completeRun (startRun early created) (verdict (tally rs) late timeout failure).1
      (tally rs).live.buf
        (some (tally rs).worstCode)
          (utf8 (verdict (tally rs) late timeout failure).2)).status.terminal ↔
      TextOfHosts rs := by
  rw [terminal_completeRun (terminal_startRun early) (terminal_verdict _ _ _ _),
    ← accepted_tally_iff, and_iff_right (accepted_utf8 (nulFree_verdict _ late timeout h))]

theorem readFrames_eq (frames : List (Option RunnerEvent)) (live : LiveRun) :
    readFrames live frames =
      ((framePieces frames).foldl LiveRun.append live, reportedCode frames) := by
  induction frames generalizing live with
  | nil => rfl
  | cons frame frames ih =>
    cases frame with
    | none => exact ih live
    | some ev =>
      unfold readFrames framePieces reportedCode
      split
      · split <;> rfl
      · exact ih _

theorem nulFree_playbookVerdict (exitCode : Option ℤ) (expired : Bool) (timeout : ℤ) :
    (playbookVerdict exitCode expired timeout).1.terminal ∧
      NulFree (playbookVerdict exitCode expired timeout).2 := by
  unfold playbookVerdict
  cases exitCode with
  | none =>
    refine ⟨rfl, ?_⟩
    dsimp only
    split
    · exact nulFree_timeoutText timeout
    · decide
  | some rc =>
    dsimp only
    split
    · exact ⟨rfl, by decide⟩
    · exact ⟨rfl, NulFree.append (by decide) (nulFree_toString_int rc)⟩

theorem terminal_playbook_iff (t : Timeout) (i : PlaybookInput) :
    (playbookRun t i).status.terminal ↔ (Job.playbook t i).Recordable := by
  unfold playbookRun Job.Recordable
  dsimp only
  cases i.submit with
  | error msg =>
    rw [terminal_completeRun (terminal_startRun _) rfl]
    simp
  | ok resp =>
    dsimp only
    obtain ⟨hterminal, hfree⟩ :=
      nulFree_playbookVerdict (reportedCode resp.frames) (t.passed 1) i.timeout
    rw [readFrames_eq, ← accepted_joined_iff]
    rw [terminal_completeRun (terminal_startRun _) hterminal, and_iff_right (accepted_utf8 hfree)]
    unfold joined answerPieces
    cases resp.streamErr with
    | none | some err => simp

theorem terminal_failVulnScan {expired : Bool} {msg : ByteString} {row : RunRow}
    (h : row.status.terminal = false) :
    (failVulnScan expired msg row).status.terminal ↔ expired = false ∧ Accepted msg := by
  unfold failVulnScan
  split
  · next hok => exact ⟨fun _ => hok, fun _ => rfl⟩
  · rename_i hnot
    rw [h]
    exact ⟨nofun, fun hok => absurd hok hnot⟩

theorem Timeout.passed_mono {t : Timeout} {m n : ℕ} (hmn : m ≤ n) (h : t.passed m) :
    t.passed n := by
  unfold Timeout.passed at *
  cases t with
  | none => cases h
  | some k =>
    rw [Option.any_some, decide_eq_true_eq] at h ⊢
    exact h.trans hmn

theorem terminal_scan_iff (t : Timeout) (i : ScanInput) :
    (scanRun t i).status.terminal ↔ (Job.scan t i).Recordable := by
  unfold scanRun
  simp only [Job.Recordable]
  by_cases hstart : t.passed 0
  · rw [if_pos hstart, terminal_failVulnScan rfl,
      Timeout.passed_mono (Nat.zero_le 1) hstart, hstart]
    simp
  · rw [if_neg hstart]
    rw [Bool.not_eq_true] at hstart
    rw [and_iff_right hstart]
    cases i.findings with
    | error msg => exact terminal_failVulnScan (terminal_startRun false)
    | ok fs =>
      dsimp only
      fun_cases completeVulnScan (t.passed 2) fs (startRun false created) with
      | case1 hok => exact ⟨fun _ => .inl hok, fun _ => rfl⟩
      | case2 hnot =>
        rw [or_iff_right hnot]
        exact terminal_failVulnScan (terminal_startRun false)

theorem terminal_vault_iff (t : Timeout) (perHost : ℤ) (err : ByteString)
    (hosts : List (ByteString × ScriptOutcome)) :
    (scriptRun t perHost (.error err) hosts).status.terminal ↔
      (Job.script t perHost (.error err) hosts).Recordable := by
  have hjoined :=
    accepted_joined_iff [utf8 "credential vault is not configured: " ++ err ++ utf8 "\n"]
  rw [List.flatten_singleton] at hjoined
  unfold scriptRun
  simp only [Job.Recordable]
  rw [terminal_completeRun (terminal_startRun _) rfl, ← hjoined]
  simp [joined, accepted_utf8 (show NulFree "vault not configured" by decide)]

end

/-- A job ends in a terminal status exactly when what it has to record is a text, and a scan's
timeout is not over. -/
theorem job_ends_iff (j : Job) : j.run.status.terminal ↔ j.Recordable := by
  cases j with
  | command t hosts => exact terminal_hosts_iff (by decide)
  | script t perHost vaultKey hosts =>
    cases vaultKey with
    | error err => exact terminal_vault_iff t perHost err hosts
    | ok _ => exact terminal_hosts_iff (by decide)
  | playbook t i => exact terminal_playbook_iff t i
  | scan t i => exact terminal_scan_iff t i

def nulPlaybook : PlaybookInput where
  timeout := 30 * nanoMinute
  configured := true
  keyMaterial := .ok ()
  vaultKey := .ok ()
  hosts := [⟨utf8 "web1", false, .ok ()⟩]
  request := .ok ()
  answer := .ok ⟨200, [], [some ⟨"\x00", false, 0, ""⟩, some ⟨"", true, 0, ""⟩], none⟩

def slowScan : ScanInput where
  rdp := false
  windows := .ok []
  collect := .error (utf8 "context deadline exceeded")
  request := .ok ()
  answer := .ok (200, [])
  unmarshal _ := .ok []
  startErr := []
  storeErr := []

/-- A byte of a host is enough for a run to stay `running`, and so is a timeout for a scan. -/
theorem jobs_left_running :
    (Job.command none [(utf8 "web1", .exited [[0x68, 0x69, 0x00]] 0)]).run.status = .running ∧
      (Job.command none [(utf8 "web1", .exited [[0xFF]] 0)]).run.status = .running ∧
      (Job.script none (15 * nanoMinute) (.ok ()) [(utf8 "win1",
        .exited [0x68, 0x00, 0x69, 0x00] [] 0)]).run.status =
        .running ∧ (Job.playbook none nulPlaybook).run.status = .running ∧
      (Job.scan (some 1) slowScan).run.status = .running := by
  decide +kernel

end Moorgate.Jobs
