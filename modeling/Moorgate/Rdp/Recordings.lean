import Moorgate.Framework.Base.Calls
import Moorgate.Recorder.Asciicast
import Moorgate.Store.Cluster

/-!
# Recordings of desktops: `rdp/handlers.go`, `rdp/crypto.go`, `store/rdp_recordings.go`

`connectSession` creates the row of a recording before it has reached `guacd`, which writes the
file in plain; `onDisconnect` replaces it by an encrypted one and marks the row as ended, and a
sweep ends the rows of dead instances. When the attempt or the disconnect has returned, the row
shall not be active; and when it has ended, the file shall be encrypted. `recordings_safe_iff` has
the moves with which one of the two is lost: an attempt that fails after the row was created, a
disconnect whose encryption fails, and a sweep, which does not look at the file.
-/

namespace Moorgate.Rdp

open Framework Models Store Recorder

/-! ## Encryption at rest -/

def encChunkSize : ℕ := 64 * 1024

/-- What reading into a buffer of `n` bytes yields until the end of the file. -/
def readChunks (n : ℕ) : (fuel : ℕ) → List UInt8 → List (List UInt8)
  | 0, _ | _ + 1, [] => []
  | fuel + 1, b :: bs => (b :: bs).take n :: readChunks n fuel ((b :: bs).drop n)

def chunksOf (nonces : ℕ → Bytes 12) (content : List UInt8) : List Framed :=
  (readChunks encChunkSize content.length content).mapIdx fun i c => (nonces i, c)

section

variable (A : Aead (Bytes 32) (Bytes 12)) (sha256 : List UInt8 → Bytes 32) (key : List UInt8)

def encryptedContent (nonces : ℕ → Bytes 12) (content : List UInt8) : List UInt8 :=
  recMagic ++ sealFrames A (sha256 key) (chunksOf nonces content)

def InFormat (file : List UInt8) : Prop :=
  ∃ l : List Framed, file = recMagic ++ sealFrames A (sha256 key) l

variable {A sha256 key}

theorem InFormat.isEncrypted {file : List UInt8} (h : InFormat A sha256 key file) :
    isEncrypted file := by
  obtain ⟨l, rfl⟩ := h
  exact isEncrypted_marked _

end

/-! ## Rows and files -/

inductive RecStatus where
  | active | ended
deriving DecidableEq

/-- A row of `rdp_recordings`. Its path is the id in the directory for recordings. -/
structure RecordingRow where
  id : UUID
  status : RecStatus
  instanceID : Option UUID
  sizeBytes : ℕ
  durationMS : ℤ
deriving DecidableEq

abbrev RdpRecordings := Table RecordingRow.id

def createRDPRecording (id : UUID) (instanceID : Option UUID) (t : RdpRecordings) :
    Option RdpRecordings :=
  t.insert ⟨id, .active, instanceID, 0, 0⟩

def RecordingRow.finish (sizeBytes : ℕ) (durationMS : ℤ) (r : RecordingRow) : RecordingRow :=
  { r with status := .ended, sizeBytes, durationMS }

def RecordingRow.close (r : RecordingRow) : RecordingRow := { r with status := .ended }

def finishRDPRecording (id : UUID) (sizeBytes : ℕ) (durationMS : ℤ) (t : RdpRecordings) :
    RdpRecordings :=
  t.update (fun r => decide (r.id = id)) (RecordingRow.finish sizeBytes durationMS) fun _ => rfl

/-- When, and by which instance, a sweep is made, with what lease, and what the table of
instances says. -/
structure Sweep where
  now : Instant
  lease : Duration
  self : UUID
  instances : Instances

def Sweep.closes (w : Sweep) (r : RecordingRow) : Bool :=
  decide (r.status = .active) && deadOwner w.now w.lease w.self w.instances r.instanceID

def closeStaleRDPRecordings (w : Sweep) (t : RdpRecordings) : RdpRecordings :=
  t.update w.closes RecordingRow.close fun _ => rfl

/-- The table, and the files by the id of their recording. -/
structure Volume where
  rows : RdpRecordings
  files : UUID → Option (List UInt8)

/-- `guacd` creates the file when there is none. -/
def Volume.write (v : Volume) (id : UUID) (bytes : List UInt8) : Volume :=
  { v with files := Function.update v.files id (some ((v.files id).getD [] ++ bytes)) }

def Volume.fileSize (v : Volume) (id : UUID) : ℕ := ((v.files id).map List.length).getD 0

/-! ## Calls -/

/-- Each state stands before the step it is named for. `refused` is a `connectSession` that
has returned an error, `closed` an `onDisconnect` that has returned; both keep the
recording of the session, if it has one. -/
inductive Stage where
  | starting | creating
  | reaching (rec : Option UUID)
  | handshaking (rec : Option UUID)
  | streaming (rec : Option UUID)
  | encrypting (id : UUID)
  | sealing (id : UUID) (content : List UInt8)
  | finishing (id : UUID)
  | refused (rec : Option UUID)
  | closed (rec : Option UUID)
  | crashed
deriving DecidableEq

/-- The instance that serves the session, as the rows it owns name it. -/
structure RecCall where
  instanceID : Option UUID
  stage : Stage
deriving DecidableEq

/-- `ok = false` is whatever makes the step fail. `id` is drawn for the recording, `nonces`
for its frames. -/
structure RecInput where
  ok : Bool
  id : UUID
  nonces : ℕ → Bytes 12
  durationMS : ℤ

section

variable (A : Aead (Bytes 32) (Bytes 12)) (sha256 : List UInt8 → Bytes 32) (key : List UInt8)

/-- How `encryptFileAtRest` goes on after it has looked at the file. -/
def afterHead (i : RecInput) (v : Volume) (id : UUID) : Stage :=
  match v.files id with
  | none => .finishing id
  | some content =>
    if key = [] ∨ i.ok = false ∨ content = [] ∨
      isEncrypted (content.take recMagic.length) = true then
      .finishing id
    else .sealing id content

def stageAct (instanceID : Option UUID) (i : RecInput) (v : Volume) :
    Stage → Option (Volume × Stage)
  | .starting => some (v, if i.ok then .creating else .refused none)
  | .creating =>
    -- without a row the session goes on and is not recorded
    match if i.ok then createRDPRecording i.id instanceID v.rows else none with
    | none => some (v, .reaching none)
    | some rows => some ({ v with rows }, .reaching (some i.id))
  -- a refusal from here on leaves the row as it is
  | .reaching rec => some (v, if i.ok then .handshaking rec else .refused rec)
  | .handshaking rec => some (v, if i.ok then .streaming rec else .refused rec)
  | .streaming rec =>
    match rec with
    | none => some (v, .closed none)
    | some id => some (v, .encrypting id)
  | .encrypting id => some (v, afterHead key i v id)
  | .sealing id content =>
    if i.ok then
      let file := encryptedContent A sha256 key i.nonces content
      some ({ v with files := Function.update v.files id (some file) }, .finishing id)
    -- the error is logged, and the row is ended all the same
    else some (v, .finishing id)
  | .finishing id =>
    if i.ok then
      some ({ v with rows := finishRDPRecording id (v.fileSize id) i.durationMS v.rows },
        .closed (some id))
    else some (v, .closed (some id))
  | .refused _ | .closed _ | .crashed => none

def recStart (instanceID : Option UUID) : RecCall := ⟨instanceID, .starting⟩

def recAct (i : RecInput) (v : Volume) (c : RecCall) : Option (Volume × RecCall) :=
  (stageAct A sha256 key c.instanceID i v c.stage).map fun next => (next.1, ⟨c.instanceID, next.2⟩)

abbrev RecPool := Pool Volume RecCall

/-- The recording of a session that has been refused or closed. -/
def Stage.returned : Stage → Option UUID
  | .refused rec | .closed rec => rec
  | _ => none

/-- A call that has returned does not notice a crash. -/
def RecCall.crash (instanceID : Option UUID) (c : RecCall) : RecCall :=
  match c.stage with
  | .refused _ | .closed _ => c
  | _ => if c.instanceID = instanceID then { c with stage := .crashed } else c

/-- A session moves; `guacd` writes; an instance crashes; an instance sweeps. -/
inductive RecMove where
  | call (m : Move (Option UUID) RecInput)
  | guacd (id : UUID) (bytes : List UInt8)
  | crash (instanceID : Option UUID)
  | sweep (w : Sweep)

def recStep (s : RecPool) : RecMove → Option RecPool
  | .call m => poolStep recStart (recAct A sha256 key) s m
  | .guacd id bytes => some ⟨s.store.write id bytes, s.calls⟩
  | .crash instanceID => some ⟨s.store, s.calls.map (RecCall.crash instanceID)⟩
  | .sweep w => some ⟨{ s.store with rows := closeStaleRDPRecordings w s.store.rows }, s.calls⟩

/-! ## Safe recordings -/

def Active (v : Volume) (id : UUID) : Prop := ∃ r ∈ v.rows.rows, r.id = id ∧ r.status = .active

def Ended (v : Volume) (id : UUID) : Prop := ∃ r ∈ v.rows.rows, r.id = id ∧ r.status = .ended

def Plain (v : Volume) (id : UUID) : Prop :=
  ∃ content, v.files id = some content ∧ content ≠ [] ∧ ¬ InFormat A sha256 key content

variable {A sha256 key} in
theorem not_plain_of_encrypted {v : Volume} {id : UUID} (nonces : ℕ → Bytes 12)
    (content : List UInt8) (h : v.files id = some (encryptedContent A sha256 key nonces content)) :
    ¬ Plain A sha256 key v id := by
  rintro ⟨file, hfile, -, hnot⟩
  cases h.symm.trans hfile
  exact hnot ⟨_, rfl⟩

structure RecordingsSafe (s : RecPool) : Prop where
  closed : ∀ c ∈ s.calls, ∀ id, c.stage.returned = some id → ¬ Active s.store id
  encrypted : ∀ id, Ended s.store id → ¬ Plain A sha256 key s.store id

/-- A step of a session after which its row is active and nobody will close it, or after
which the row has ended and the file is plain. -/
def StageSpoils (i : RecInput) (v : Volume) : Stage → Prop
  | .reaching (some id) | .handshaking (some id) => i.ok = false ∧ Active v id
  | .finishing id => (i.ok ∧ Plain A sha256 key v id) ∨ (i.ok = false ∧ Active v id)
  | _ => False

/-- The same of all moves: `guacd` writes to a file whose row has ended, and a sweep closes
a row whose file is plain. -/
def Spoils (s : RecPool) : RecMove → Prop
  | .call (.begin _) => False
  | .call (.advance k i) => ∃ c, s.call k = some c ∧ StageSpoils A sha256 key i s.store c.stage
  | .guacd id bytes => Ended s.store id ∧ Plain A sha256 key (s.store.write id bytes) id
  | .crash _ => False
  | .sweep w => ∃ r ∈ s.store.rows.rows, w.closes r ∧ Plain A sha256 key s.store r.id

end

/-! ## The table -/

section

variable {v : Volume} {id k : UUID} {files : UUID → Option (List UInt8)}

def HasRow (v : Volume) (id : UUID) : Prop := id ∈ v.rows.rows.map RecordingRow.id

theorem createRDPRecording_eq_some {instanceID : Option UUID} {rows : RdpRecordings}
    (h : createRDPRecording id instanceID v.rows = some rows) :
    ¬ HasRow v id ∧ (∀ k, HasRow v k ∨ k = id → HasRow ⟨rows, files⟩ k) ∧
      (∀ k, Active ⟨rows, files⟩ k → Active v k ∨ k = id) ∧ ∀ k, Ended ⟨rows, files⟩ k →
      Ended v k := by
  have hmem : ∀ r, r ∈ rows.rows ↔ r ∈ v.rows.rows ∨ r = ⟨id, .active, instanceID, 0, 0⟩ :=
    fun r => Table.mem_insert h
  refine ⟨?_, ?_, ?_, ?_⟩
  · intro hk
    obtain ⟨r, hr, hid⟩ := List.mem_map.mp hk
    exact Table.key_ne_of_insert h hr hid
  · rintro k (hk | rfl)
    · obtain ⟨r, hr, rfl⟩ := List.mem_map.mp hk
      exact List.mem_map_of_mem ((hmem r).mpr (.inl hr))
    · exact List.mem_map.mpr ⟨_, (hmem _).mpr (.inr rfl), rfl⟩
  · rintro k ⟨r, hr, rfl, hactive⟩
    rcases (hmem r).mp hr with hold | rfl
    · exact .inl ⟨r, hold, rfl, hactive⟩
    · exact .inr rfl
  · rintro k ⟨r, hr, rfl, hended⟩
    rcases (hmem r).mp hr with hold | rfl
    · exact ⟨r, hold, rfl, hended⟩
    · cases hended

section

variable {p : RecordingRow → Bool} (f : RecordingRow → RecordingRow) (hid : ∀ r, (f r).id = r.id)
  (hends : ∀ r, (f r).status = .ended)

include hid hends

theorem mem_update_cases_row {r : RecordingRow} (hr : r ∈ (v.rows.update p f hid).rows) :
    (r ∈ v.rows.rows ∧ p r = false) ∨
    (r.status = .ended ∧ ∃ q ∈ v.rows.rows, q.id = r.id ∧ p q) := by
  rcases Table.mem_update_cases hr with hold | ⟨q, hq, hp, rfl⟩
  · exact .inl hold
  · exact .inr ⟨hends q, q, hq, (hid q).symm, hp⟩

theorem active_of_update (h : Active ⟨v.rows.update p f hid, files⟩ id) :
    ∃ r ∈ v.rows.rows, r.id = id ∧ r.status = .active ∧ p r = false := by
  obtain ⟨r, hr, rfl, hactive⟩ := h
  rcases mem_update_cases_row f hid hends hr with ⟨hold, hp⟩ | ⟨hended, -⟩
  · exact ⟨r, hold, rfl, hactive, hp⟩
  · cases hended.symm.trans hactive

theorem ended_of_update (h : Ended ⟨v.rows.update p f hid, files⟩ id) :
    Ended v id ∨ ∃ r ∈ v.rows.rows, r.id = id ∧ p r := by
  obtain ⟨r, hr, rfl, hended⟩ := h
  rcases mem_update_cases_row f hid hends hr with ⟨hold, -⟩ | ⟨-, hq⟩
  · exact .inl ⟨r, hold, rfl, hended⟩
  · exact .inr hq

theorem ended_update {r : RecordingRow} (hr : r ∈ v.rows.rows) (hp : p r) :
    Ended ⟨v.rows.update p f hid, files⟩ r.id := by
  have hmem : f r ∈ (v.rows.update p f hid).rows := Table.mem_update_of_pos hr hp
  exact ⟨f r, hmem, hid r, hends r⟩

end

variable {size : ℕ} {dur : ℤ} {w : Sweep}

theorem active_of_finish (h : Active ⟨finishRDPRecording id size dur v.rows, files⟩ k) :
    Active v k ∧ k ≠ id := by
  obtain ⟨r, hr, rfl, hstatus, hp⟩ :=
    active_of_update (RecordingRow.finish size dur) (fun _ => rfl) (fun _ => rfl) h
  exact ⟨⟨r, hr, rfl, hstatus⟩, of_decide_eq_false hp⟩

theorem ended_of_finish (h : Ended ⟨finishRDPRecording id size dur v.rows, files⟩ k) :
    Ended v k ∨ k = id := by
  refine (ended_of_update (RecordingRow.finish size dur) (fun _ => rfl)
    (fun _ => rfl) h).imp_right ?_
  rintro ⟨r, -, rfl, hp⟩
  exact of_decide_eq_true hp

theorem ended_finish (h : HasRow v id) :
    Ended ⟨finishRDPRecording id size dur v.rows, files⟩ id := by
  obtain ⟨r, hr, rfl⟩ := List.mem_map.mp h
  exact ended_update (RecordingRow.finish size dur) (fun _ => rfl) (fun _ => rfl) hr
    (decide_eq_true rfl)

theorem active_of_sweep (h : Active ⟨closeStaleRDPRecordings w v.rows, files⟩ k) : Active v k := by
  obtain ⟨r, hr, rfl, hstatus, -⟩ :=
    active_of_update RecordingRow.close (fun _ => rfl) (fun _ => rfl) h
  exact ⟨r, hr, rfl, hstatus⟩

theorem ended_of_sweep (h : Ended ⟨closeStaleRDPRecordings w v.rows, files⟩ k) :
    Ended v k ∨ ∃ r ∈ v.rows.rows, r.id = k ∧ w.closes r :=
  ended_of_update RecordingRow.close (fun _ => rfl) (fun _ => rfl) h

theorem ended_sweep {r : RecordingRow} (hr : r ∈ v.rows.rows) (hp : w.closes r) :
    Ended ⟨closeStaleRDPRecordings w v.rows, files⟩ r.id :=
  ended_update RecordingRow.close (fun _ => rfl) (fun _ => rfl) hr hp

theorem hasRow_finish : HasRow ⟨finishRDPRecording id size dur v.rows, files⟩ k ↔ HasRow v k := by
  have hkeys : (finishRDPRecording id size dur v.rows).rows.map RecordingRow.id =
      v.rows.rows.map RecordingRow.id :=
    Table.map_key_update _ _ (RecordingRow.finish size dur) fun _ => rfl
  exact iff_of_eq (congrArg (k ∈ ·) hkeys)

theorem hasRow_sweep : HasRow ⟨closeStaleRDPRecordings w v.rows, files⟩ k ↔ HasRow v k := by
  have hkeys : (closeStaleRDPRecordings w v.rows).rows.map RecordingRow.id =
      v.rows.rows.map RecordingRow.id :=
    Table.map_key_update _ _ RecordingRow.close fun _ => rfl
  exact iff_of_eq (congrArg (k ∈ ·) hkeys)

end

/-! ## One step -/

def Stage.recording : Stage → Option UUID
  | .reaching rec | .handshaking rec | .streaming rec | .refused rec | .closed rec => rec
  | .encrypting id | .sealing id _ | .finishing id => some id
  | _ => none

theorem Stage.recording_of_returned {st : Stage} {id : UUID} (h : st.returned = some id) :
    st.recording = some id := by
  cases st <;> first | exact h | cases h

section

variable (A : Aead (Bytes 32) (Bytes 12)) (sha256 : List UInt8 → Bytes 32) (key : List UInt8)

inductive StageEffect (i : RecInput) (v : Volume) : Stage → Volume → Stage → Prop where
  | passed {st st' : Stage} (hrec : st'.recording = none ∨ st'.recording = st.recording)
      (hret : st'.returned = none) : StageEffect i v st v st'
  | created (instanceID : Option UUID) (rows : RdpRecordings)
      (hins : createRDPRecording i.id instanceID v.rows = some rows) :
      StageEffect i v .creating ⟨rows, v.files⟩ (.reaching (some i.id))
  | refused {st : Stage} (id : UUID) (hst : st = .reaching (some id) ∨ st = .handshaking (some id))
      (hok : i.ok = false) : StageEffect i v st v (.refused (some id))
  | sealed (id : UUID) (content : List UInt8) :
      StageEffect i v (.sealing id content)
        ⟨v.rows, Function.update v.files id (some (encryptedContent A sha256 key i.nonces content))⟩
        (.finishing id)
  | finished (id : UUID) (hok : i.ok) :
      StageEffect i v (.finishing id)
        ⟨finishRDPRecording id (v.fileSize id) i.durationMS v.rows, v.files⟩ (.closed (some id))
  | unfinished (id : UUID) (hok : i.ok = false) :
      StageEffect i v (.finishing id) v (.closed (some id))

variable {A sha256 key} {i : RecInput} {v v' : Volume} {st st' : Stage} {instanceID : Option UUID}

theorem afterHead_cases (i : RecInput) (v : Volume) (id : UUID) :
    (afterHead key i v id).recording = some id ∧ (afterHead key i v id).returned = none := by
  unfold afterHead
  split
  · exact ⟨rfl, rfl⟩
  · split_ifs <;> exact ⟨rfl, rfl⟩

theorem stageAct_effect (h : stageAct A sha256 key instanceID i v st = some (v', st')) :
    StageEffect A sha256 key i v st v' st' := by
  revert h
  fun_cases stageAct A sha256 key instanceID i v st with
  | case1 =>
    rintro ⟨⟩
    cases i.ok <;> exact .passed (.inl rfl) rfl
  | case3 rows hrows =>
    rintro ⟨⟩
    obtain ⟨-, hins⟩ := Option.ite_none_right_eq_some.mp hrows
    exact .created instanceID rows hins
  | case4 rec | case5 rec =>
    rintro ⟨⟩
    cases hok : i.ok
    · cases rec with
      | none => exact .passed (.inl rfl) rfl
      | some id => exact .refused id (by simp) hok
    · exact .passed (.inr rfl) rfl
  | case2 | case6 =>
    rintro ⟨⟩
    exact .passed (.inl rfl) rfl
  | case7 | case10 =>
    rintro ⟨⟩
    exact .passed (.inr rfl) rfl
  | case8 id =>
    rintro ⟨⟩
    obtain ⟨hrec, hret⟩ := afterHead_cases i v id
    exact .passed (.inr hrec) hret
  | case9 id content =>
    rintro ⟨⟩
    exact .sealed id content
  | case11 id hok =>
    rintro ⟨⟩
    exact .finished id hok
  | case12 id hok =>
    rintro ⟨⟩
    exact .unfinished id (Bool.eq_false_iff.mpr hok)
  | _ => rintro ⟨⟩

section

variable (h : StageEffect A sha256 key i v st v' st') {id : UUID}

include h

theorem StageEffect.hasRow (hrow : HasRow v id) : HasRow v' id := by
  cases h with
  | created _ rows hins => exact (createRDPRecording_eq_some hins).2.1 id (.inl hrow)
  | finished k hok => exact hasRow_finish.mpr hrow
  | _ => exact hrow

/-- A session has the recording it had, or one whose row has just been created. -/
theorem StageEffect.recording (hid : st'.recording = some id) :
    st.recording = some id ∨ HasRow v' id := by
  cases h with
  | passed hrec =>
    rcases hrec with hnone | hsame
    · cases hnone.symm.trans hid
    · exact .inl (hsame.symm.trans hid)
  | created _ rows hins =>
    cases hid
    exact .inr ((createRDPRecording_eq_some hins).2.1 i.id (.inr rfl))
  | refused k hst => rcases hst with rfl | rfl <;> exact .inl hid
  | sealed k content | finished k | unfinished k => exact .inl hid

theorem StageEffect.active (hactive : Active v' id) (hrow : HasRow v id) : Active v id := by
  cases h with
  | created _ rows hins =>
    obtain ⟨hnew, -, hold, -⟩ := createRDPRecording_eq_some hins
    rcases hold id hactive with hold | rfl
    · exact hold
    · exact absurd hrow hnew
  | finished k hok => exact (active_of_finish hactive).1
  | _ => exact hactive

variable (hno : ¬ StageSpoils A sha256 key i v st)

include hno

/-- A session that returns leaves its row closed, unless the step is one of those. -/
theorem StageEffect.closed (hid : st'.returned = some id) : ¬ Active v' id := by
  intro hactive
  cases h with
  | passed _ hret => cases hret.symm.trans hid
  | created | sealed => cases hid
  | refused k hst hok =>
    cases hid
    rcases hst with rfl | rfl <;> exact hno ⟨hok, hactive⟩
  | finished k hok =>
    cases hid
    exact (active_of_finish hactive).2 rfl
  | unfinished k hok =>
    cases hid
    exact hno (.inr ⟨hok, hactive⟩)

theorem StageEffect.encrypted (henc : ∀ id, Ended v id → ¬ Plain A sha256 key v id)
    (hended : Ended v' id) : ¬ Plain A sha256 key v' id := by
  cases h with
  | created _ rows hins => exact henc id ((createRDPRecording_eq_some hins).2.2.2 id hended)
  | sealed k content =>
    by_cases hk : id = k
    · subst hk
      exact not_plain_of_encrypted i.nonces content (Function.update_self ..)
    · rintro ⟨file, hfile, hrest⟩
      dsimp only at hfile
      rw [Function.update_of_ne hk] at hfile
      exact henc id hended ⟨file, hfile, hrest⟩
  | finished k hok =>
    rcases ended_of_finish hended with hbefore | rfl
    · exact henc id hbefore
    · exact fun hplain => hno (.inl ⟨hok, hplain⟩)
  | _ => exact henc id hended

end

end

/-! ## Runs -/

def Rowed (s : RecPool) : Prop :=
  ∀ c ∈ s.calls, ∀ id, c.stage.recording = some id → HasRow s.store id

section

variable {A : Aead (Bytes 32) (Bytes 12)} {sha256 : List UInt8 → Bytes 32} {key : List UInt8}
  {s s' : RecPool} {m : RecMove}

theorem recAct_effect {i : RecInput} {v v' : Volume} {c c' : RecCall}
    (h : recAct A sha256 key i v c = some (v', c')) :
    StageEffect A sha256 key i v c.stage v' c'.stage := by
  obtain ⟨⟨v₁, st⟩, hact, ⟨⟩⟩ := Option.map_eq_some_iff.mp h
  exact stageAct_effect hact

theorem crash_cases (instanceID : Option UUID) (c : RecCall) : c.crash instanceID = c ∨
      ((c.crash instanceID).stage.recording = none ∧ (c.crash instanceID).stage.returned =
        none) := by
  unfold RecCall.crash
  split
  · exact .inl rfl
  · exact .inl rfl
  · split_ifs
    · exact .inr ⟨rfl, rfl⟩
    · exact .inl rfl

theorem rowed_step (hi : Rowed s) (h : recStep A sha256 key s m = some s') : Rowed s' := by
  cases m with
  | call m =>
    rcases poolStep_cases h with ⟨q, -, rfl⟩ | ⟨k, i, c, v', c', -, hk, hact, rfl⟩
    · exact Pool.forall_enter hi nofun
    have heffect := recAct_effect hact
    refine Pool.forall_put (fun d hd id hid => heffect.hasRow (hi d hd id hid)) fun id hid => ?_
    rcases heffect.recording hid with hold | hnew
    · exact heffect.hasRow (hi c (Pool.mem_of_call hk) id hold)
    · exact hnew
  | guacd id bytes =>
    cases h
    exact hi
  | crash instanceID =>
    cases h
    intro d hd id hid
    obtain ⟨c, hc, rfl⟩ := List.mem_map.mp hd
    rcases crash_cases instanceID c with hsame | ⟨hnone, -⟩
    · rw [hsame] at hid
      exact hi c hc id hid
    · cases hnone.symm.trans hid
  | sweep w =>
    cases h
    exact fun c hc id hid => hasRow_sweep.mpr (hi c hc id hid)

theorem recordingsSafe_step (hi : Rowed s) (hsafe : RecordingsSafe A sha256 key s)
    (hno : ¬ Spoils A sha256 key s m) (h : recStep A sha256 key s m = some s') :
    RecordingsSafe A sha256 key s' := by
  cases m with
  | call m =>
    rcases poolStep_cases h with ⟨q, -, rfl⟩ | ⟨k, i, c, v', c', rfl, hk, hact, rfl⟩
    · exact ⟨Pool.forall_enter hsafe.closed nofun, hsafe.encrypted⟩
    have heffect := recAct_effect hact
    have hstage : ¬ StageSpoils A sha256 key i s.store c.stage :=
      fun hspoils => hno ⟨c, hk, hspoils⟩
    refine ⟨Pool.forall_put ?_ fun id hid => heffect.closed hstage hid,
      fun id hended => heffect.encrypted hstage hsafe.encrypted hended⟩
    intro d hd id hid hactive
    have hrow := hi d hd id (Stage.recording_of_returned hid)
    exact hsafe.closed d hd id hid (heffect.active hactive hrow)
  | guacd id bytes =>
    cases h
    refine ⟨hsafe.closed, fun k hended hplain => ?_⟩
    by_cases hk : k = id
    · subst hk
      exact hno ⟨hended, hplain⟩
    · obtain ⟨content, hfile, hrest⟩ := hplain
      simp only [Volume.write, Function.update_of_ne hk] at hfile
      exact hsafe.encrypted k hended ⟨content, hfile, hrest⟩
  | crash instanceID =>
    cases h
    refine ⟨fun d hd id hid => ?_, hsafe.encrypted⟩
    obtain ⟨c, hc, rfl⟩ := List.mem_map.mp hd
    rcases crash_cases instanceID c with hsame | ⟨-, hnone⟩
    · rw [hsame] at hid
      exact hsafe.closed c hc id hid
    · cases hnone.symm.trans hid
  | sweep w =>
    cases h
    constructor
    · intro c hc id hid hactive
      exact hsafe.closed c hc id hid (active_of_sweep hactive)
    · intro id hended
      rcases ended_of_sweep hended with hbefore | ⟨r, hr, rfl, hp⟩
      · exact hsafe.encrypted id hbefore
      · exact fun hplain => hno ⟨r, hr, hp, hplain⟩

theorem not_safe_of_stageSpoils {k : ℕ} {i : RecInput} {c : RecCall} (hi : Rowed s)
    (hk : s.call k = some c) (hspoils : StageSpoils A sha256 key i s.store c.stage) :
    ∃ s', recStep A sha256 key s (.call (.advance k i)) = some s' ∧
    ¬ RecordingsSafe A sha256 key s' := by
  obtain ⟨instanceID, st⟩ := c
  have hmem := Pool.mem_of_call hk
  have hreturn : ∀ {v' st'}, stageAct A sha256 key instanceID i s.store st = some (v', st') →
      recStep A sha256 key s (.call (.advance k i)) = some (s.put k v' ⟨instanceID, st'⟩) := by
    intro v' st' hact
    simp only [recStep, poolStep, hk, recAct, hact, Option.map_some]
  have hleft : ∀ {id : UUID} {st' : Stage}, st'.returned = some id → Active s.store id →
      ¬ RecordingsSafe A sha256 key (s.put k s.store ⟨instanceID, st'⟩) := by
    intro id st' hret hactive hsafe
    exact hsafe.closed _ (Pool.mem_of_call (Pool.call_put_self hk _ _)) id hret hactive
  cases st with
  | reaching rec | handshaking rec =>
    cases rec with
    | none => exact hspoils.elim
    | some id =>
      obtain ⟨hok, hactive⟩ := hspoils
      exact ⟨_, hreturn (by rw [stageAct, hok]), hleft rfl hactive⟩
  | finishing id =>
    rcases hspoils with ⟨hok, hplain⟩ | ⟨hok, hactive⟩
    · refine ⟨_, hreturn (by rw [stageAct, if_pos hok]), fun hsafe => ?_⟩
      exact hsafe.encrypted id (ended_finish (hi _ hmem id rfl)) hplain
    · exact ⟨_, hreturn (by rw [stageAct, if_neg (by rw [hok]; exact Bool.false_ne_true)]),
        hleft rfl hactive⟩
  | _ => exact hspoils.elim

theorem not_safe_of_spoils (hi : Rowed s) (hspoils : Spoils A sha256 key s m) :
    ∃ s', recStep A sha256 key s m = some s' ∧ ¬ RecordingsSafe A sha256 key s' := by
  match m, hspoils with
  | .call (.advance k i), ⟨c, hk, hstage⟩ => exact not_safe_of_stageSpoils hi hk hstage
  | .guacd id bytes, ⟨hended, hplain⟩ =>
    exact ⟨_, rfl, fun hsafe => hsafe.encrypted id hended hplain⟩
  | .sweep w, ⟨r, hr, hp, hplain⟩ =>
    refine ⟨_, rfl, fun hsafe => ?_⟩
    exact hsafe.encrypted r.id (ended_sweep hr hp) hplain

theorem not_spoils_iff (hi : Rowed s) (hsafe : RecordingsSafe A sha256 key s) :
    ¬ Spoils A sha256 key s m ↔ ∀ s', recStep A sha256 key s m = some s' →
    RecordingsSafe A sha256 key s' := by
  constructor
  · exact fun hno s' hs => recordingsSafe_step hi hsafe hno hs
  · intro hall hspoils
    obtain ⟨s', hs, hnot⟩ := not_safe_of_spoils hi hspoils
    exact hnot (hall s' hs)

end

/-- Exactly the runs throughout which recordings are closed and encrypted, from any table
and files that are so: those without a move that spoils one. -/
theorem recordings_safe_iff (A : Aead (Bytes 32) (Bytes 12)) (sha256 : List UInt8 → Bytes 32)
    (key : List UInt8) (v : Volume) (hv : ∀ id, Ended v id → ¬ Plain A sha256 key v id)
    (ms : List RecMove) :
    Throughout (recStep A sha256 key) (RecordingsSafe A sha256 key) ⟨v, []⟩ ms ↔
      Guarded (recStep A sha256 key) (fun s m => ¬ Spoils A sha256 key s m) ⟨v, []⟩ ms := by
  refine throughout_iff_guarded rowed_step not_spoils_iff ?_ ⟨?_, hv⟩
  all_goals exact fun c hc => absurd hc List.not_mem_nil

def noRecordings : Volume := ⟨.empty, fun _ => none⟩

def recMove (k : ℕ) (ok : Bool) : RecMove :=
  .call (.advance k ⟨ok, .ofNat 3, fun _ => sampleNonce, 60000⟩)

def sampleStep : RecPool → RecMove → Option RecPool := recStep freeAead sampleSha256 [1]

def recordedSession : List RecMove :=
  [.call (.begin (some (.ofNat 7))), recMove 0 true, recMove 0 true, recMove 0 true]

/-- A sweep by instance 8, which does not know of instance 7. -/
def sampleSweep : Sweep := ⟨hour, minute, .ofNat 8, .empty⟩

def recView (s : RecPool) : List RecCall × List RecordingRow × Option (List UInt8) :=
  (s.calls, s.store.rows.rows, s.store.files (.ofNat 3))

/-- The recording of an earlier session, ended and encrypted. -/
def earlierRecording : Volume where
  rows := ⟨[⟨.ofNat 2, .ended, some (.ofNat 7), 112, 60000⟩], by decide⟩
  files := Function.update (fun _ => none) (.ofNat 2)
    (some (encryptedContent freeAead sampleSha256 [1] (fun _ => sampleNonce) [0x33]))

theorem earlierRecording_encrypted (id : UUID) (h : Ended earlierRecording id) :
    ¬ Plain freeAead sampleSha256 [1] earlierRecording id := by
  obtain ⟨r, hr, rfl, -⟩ := h
  cases List.mem_singleton.mp hr
  exact not_plain_of_encrypted (fun _ => sampleNonce) [0x33] rfl

def encryptedSession : List RecMove :=
  recordedSession ++ [recMove 0 true, .guacd (.ofNat 3) [0x34], recMove 0 true, recMove 0 true,
    recMove 0 true, recMove 0 true]

/-- Beside it a session is recorded, the file encrypted and the row ended. -/
theorem recordings_safe_encrypted :
    (exec sampleStep ⟨earlierRecording, []⟩ encryptedSession).map recView =
        some ([⟨some (.ofNat 7), .closed (some (.ofNat 3))⟩],
          [⟨.ofNat 2, .ended, some (.ofNat 7), 112, 60000⟩,
            ⟨.ofNat 3, .ended, some (.ofNat 7), 112, 60000⟩],
          some (encryptedContent freeAead sampleSha256 [1] (fun _ => sampleNonce) [0x34])) ∧
      Throughout sampleStep (RecordingsSafe freeAead sampleSha256 [1]) ⟨earlierRecording, []⟩
        encryptedSession := by
  refine ⟨by decide +kernel, ?_⟩
  refine (recordings_safe_iff freeAead sampleSha256 [1] earlierRecording
    earlierRecording_encrypted _).mpr ?_
  refine ⟨id, ?_, ?_, ?_, ?_, ?_, ?_, ?_, ?_, ?_, trivial⟩
  -- `guacd` writes while the row is active
  case refine_5 => exact fun hspoils => absurd hspoils.1 (by unfold Ended; decide +kernel)
  all_goals
    rintro ⟨c, hc, hspoils⟩
    cases hc
  -- the file is encrypted when the row ends
  case refine_9 =>
    rcases hspoils with ⟨-, hplain⟩ | ⟨hfailed, -⟩
    · exact not_plain_of_encrypted (fun _ => sampleNonce) [0x34] (by decide +kernel) hplain
    · cases hfailed
  all_goals first | exact hspoils | exact absurd hspoils.1 (by decide)

theorem not_safe_of_view {s : RecPool} {calls : List RecCall} {r : RecordingRow}
    (h : recView s = (calls, [r], some [0x34])) (hid : r.id = .ofNat 3)
    (hstatus : r.status = .ended) :
    Ended s.store (.ofNat 3) ∧ Plain freeAead sampleSha256 [1] s.store (.ofNat 3) ∧
      ¬ RecordingsSafe freeAead sampleSha256 [1] s := by
  simp only [recView, Prod.mk.injEq] at h
  obtain ⟨-, hrows, hfile⟩ := h
  have hended : Ended s.store (.ofNat 3) :=
    ⟨r, by rw [hrows]; exact List.mem_singleton_self r, hid, hstatus⟩
  have hplain : Plain freeAead sampleSha256 [1] s.store (.ofNat 3) :=
    ⟨[0x34], hfile, by decide, fun hformat => absurd hformat.isEncrypted (by decide)⟩
  exact ⟨hended, hplain, fun hsafe => hsafe.encrypted _ hended hplain⟩

/-- The handshake with `guacd` fails, and the row stays active; the encrypted file cannot be
written, and the row ends; the instance crashes in the middle of a session, and a sweep
ends the row. -/
theorem recordings_left_active_or_plain :
    (∃ s, exec sampleStep ⟨noRecordings, []⟩ (recordedSession ++ [recMove 0 false]) = some s ∧
      ⟨some (.ofNat 7), .refused (some (.ofNat 3))⟩ ∈ s.calls ∧ Active s.store (.ofNat 3) ∧
      ¬ RecordingsSafe freeAead sampleSha256 [1] s) ∧
        (∃ s, exec sampleStep ⟨noRecordings, []⟩ (recordedSession ++
        [recMove 0 true, .guacd (.ofNat 3) [0x34], recMove 0 true, recMove 0 true, recMove 0 false,
          recMove 0 true]) = some s ∧ Ended s.store (.ofNat 3) ∧
            Plain freeAead sampleSha256 [1] s.store (.ofNat 3) ∧
      ¬ RecordingsSafe freeAead sampleSha256 [1] s) ∧
        (∃ s, exec sampleStep ⟨noRecordings, []⟩ (recordedSession ++
        [recMove 0 true, .guacd (.ofNat 3) [0x34], .crash (some (.ofNat 7)),
          .sweep sampleSweep]) = some s ∧
      Ended s.store (.ofNat 3) ∧ Plain freeAead sampleSha256 [1] s.store (.ofNat 3) ∧
      ¬ RecordingsSafe freeAead sampleSha256 [1] s) := by
  refine ⟨?_, ?_, ?_⟩
  · refine exists_of_view (fun s => decide (⟨some (.ofNat 7), .refused (some (.ofNat 3))⟩ ∈
      s.calls ∧
      ∃ r ∈ s.store.rows.rows, r.id = .ofNat 3 ∧ r.status = .active)) true (by decide +kernel)
      fun s _ hview => ?_
    obtain ⟨hcall, hactive⟩ := of_decide_eq_true hview
    exact ⟨hcall, hactive, fun hsafe => hsafe.closed _ hcall _ rfl hactive⟩
  · exact exists_of_view recView ([⟨some (.ofNat 7), .closed (some (.ofNat 3))⟩],
      [⟨.ofNat 3, .ended, some (.ofNat 7), 1, 60000⟩], some [0x34]) (by decide +kernel)
      fun s _ hview =>
        not_safe_of_view hview rfl rfl
  · exact exists_of_view recView ([⟨some (.ofNat 7), .crashed⟩],
      [⟨.ofNat 3, .ended, some (.ofNat 7), 0, 0⟩], some [0x34]) (by decide +kernel) fun s _ hview =>
        not_safe_of_view hview rfl rfl

end Moorgate.Rdp
