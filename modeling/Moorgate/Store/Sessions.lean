import Mathlib.Data.List.Sort
import Moorgate.Framework.Base.Table
import Moorgate.Models.Ids

/-!
# Browser sessions: `store/sessions.go`

Every function is one SQL statement at the time `now`. The statements that write a session select
it by its id; what they leave is stated once for each of them, as the row that a later lookup
finds.
-/

namespace Moorgate.Store

open Framework Models

/-- A row of `sessions`. -/
structure Session where
  (id userId : UUID)
  refreshHash : String
  ip : Option String
  userAgent : String
  mfaPassed : Bool
  (createdAt lastSeenAt expiresAt : Instant)
  revokedAt : Option Instant
deriving DecidableEq

abbrev Sessions := Table Session.id

/-- `id` is what `gen_random_uuid()` yields. `none` when the address does not
parse or the id is taken. -/
def createSession (castInet : String → Option String) (now : Instant) (id userID : UUID)
    (refreshHash ip ua : String) (mfaPassed : Bool) (expires : Instant) (t : Sessions) :
    Option (Session × Sessions) :=
  match castOrNull castInet ip with
  | none => none
  | some addr =>
    let sess : Session :=
      { id, userId := userID, refreshHash, ip := addr, userAgent := ua, mfaPassed
        createdAt := now, lastSeenAt := now, expiresAt := expires, revokedAt := none }
    (t.insert sess).map fun t' => (sess, t')

/-- Revoked rows stay in the table; callers look at `revokedAt`. -/
def getSession (t : Sessions) (id : UUID) : Option Session := t.lookup id

def getSessionRefreshHash (t : Sessions) (id : UUID) : Option String :=
  (t.lookup id).map Session.refreshHash

def updateSession (id : UUID) (p : Session → Bool) (f : Session → Session)
    (hf : ∀ r, (f r).id = r.id) (t : Sessions) : Sessions :=
  t.update (fun r => decide (r.id = id) && p r) f hf

def rotateRefresh (now : Instant) (id : UUID) (newHash : String) (expires : Instant) :
    Sessions → Sessions :=
  updateSession id (fun _ => true)
    (fun r => { r with refreshHash := newHash, lastSeenAt := now, expiresAt := expires })
    fun _ => rfl

def touchSession (now : Instant) (id : UUID) : Sessions → Sessions :=
  updateSession id (fun _ => true) (fun r => { r with lastSeenAt := now }) fun _ => rfl

def revokeSession (now : Instant) (id : UUID) : Sessions → Sessions :=
  updateSession id (fun r => r.revokedAt.isNone) (fun r => { r with revokedAt := some now })
    fun _ => rfl

/-- The sessions of a user that are not revoked, the last used first. -/
def listUserSessions (userID : UUID) (t : Sessions) : List Session :=
  (t.select fun r => decide (r.userId = userID) && r.revokedAt.isNone).insertionSort
    fun r q => r.lastSeenAt ≥ q.lastSeenAt

/-- The active sessions past one of the two bounds, longest idle first. A bound
that is not positive is off. -/
def listStaleSessions (now : Instant) (idleTTL absoluteTTL : Duration) (t : Sessions) :
    List Session :=
  (t.select fun r => r.revokedAt.isNone && decide (r.expiresAt > now) &&
      (decide (idleTTL > 0 ∧ r.lastSeenAt < now - idleTTL) ||
        decide (absoluteTTL > 0 ∧ r.createdAt < now - absoluteTTL))).insertionSort
    fun r q => r.lastSeenAt ≤ q.lastSeenAt

/-- `user_id=$1 AND revoked_at IS NULL AND expires_at > now()`. -/
def Session.activeFor (now : Instant) (userID : UUID) (r : Session) : Bool :=
  decide (r.userId = userID) && r.revokedAt.isNone && decide (now < r.expiresAt)

def countActiveSessions (now : Instant) (userID : UUID) (t : Sessions) : ℕ :=
  t.rows.countP (Session.activeFor now userID)

def Revoked (t : Sessions) (id : UUID) : Prop := ∃ r, t.lookup id = some r ∧ r.revokedAt.isSome

instance (t : Sessions) (id : UUID) : Decidable (Revoked t id) :=
  inferInstanceAs (Decidable (∃ r ∈ t.lookup id, r.revokedAt.isSome))

variable {t : Sessions} {r : Session}

theorem mem_listUserSessions {userID : UUID} :
    r ∈ listUserSessions userID t ↔ r ∈ t.rows ∧ r.userId = userID ∧ r.revokedAt = none := by
  unfold listUserSessions
  rw [List.mem_insertionSort, Table.mem_select, Bool.and_eq_true, decide_eq_true_iff,
    Option.isNone_iff_eq_none]

theorem not_revoked_of_mem (hr : r ∈ t.rows) (hlive : r.revokedAt = none) : ¬ Revoked t r.id := by
  rintro ⟨q, hq, hrevoked⟩
  obtain ⟨hmem, hid⟩ := Table.lookup_eq_some.mp hq
  rw [Table.eq_of_key hmem hr hid, hlive] at hrevoked
  cases hrevoked

/-! ## What the statements leave -/

theorem lookup_updateSession (t : Sessions) (id : UUID) (p : Session → Bool)
    (f : Session → Session) (hf : ∀ r, (f r).id = r.id) (k : UUID) :
    (updateSession id p f hf t).lookup k = (t.lookup k).map fun r => if k = id ∧
    p r = true then f r else r := by
  unfold updateSession
  rw [Table.lookup_update]
  cases h : t.lookup k with
  | none => rfl
  | some r =>
    obtain ⟨-, hk⟩ := Table.lookup_eq_some.mp h
    simp [hk]

variable {id k : UUID}

theorem lookup_updateSession_of_ne (t : Sessions) (hk : k ≠ id)
    (p : Session → Bool) (f : Session → Session) (hf : ∀ r, (f r).id = r.id) :
    (updateSession id p f hf t).lookup k = t.lookup k := by
  rw [lookup_updateSession]
  simp [hk]

theorem lookup_rotateRefresh (t : Sessions) (now : Instant) (id : UUID) (newHash : String)
    (expires : Instant) :
    (rotateRefresh now id newHash expires t).lookup id = (t.lookup id).map fun r =>
      { r with refreshHash := newHash, lastSeenAt := now, expiresAt := expires } := by
  unfold rotateRefresh
  rw [lookup_updateSession]
  simp

theorem lookup_revokeSession (t : Sessions) (now : Instant) (id : UUID) :
    (revokeSession now id t).lookup id = (t.lookup id).map fun r =>
      if r.revokedAt.isNone then { r with revokedAt := some now } else r := by
  unfold revokeSession
  rw [lookup_updateSession]
  simp

theorem getSessionRefreshHash_rotateRefresh {x : String}
    (hx : getSessionRefreshHash t id = some x) (now : Instant) (newHash : String)
    (expires : Instant) :
    getSessionRefreshHash (rotateRefresh now id newHash expires t) id = some newHash := by
  unfold getSessionRefreshHash at hx ⊢
  obtain ⟨r, hr, -⟩ := Option.map_eq_some_iff.mp hx
  rw [lookup_rotateRefresh, hr]
  rfl

theorem getSessionRefreshHash_rotateRefresh_of_ne (t : Sessions) (now : Instant)
    (hk : k ≠ id) (newHash : String) (expires : Instant) :
    getSessionRefreshHash (rotateRefresh now id newHash expires t) k =
      getSessionRefreshHash t k := by
  unfold getSessionRefreshHash rotateRefresh
  rw [lookup_updateSession_of_ne t hk]

theorem getSessionRefreshHash_revokeSession (t : Sessions) (now : Instant) (id k : UUID) :
    getSessionRefreshHash (revokeSession now id t) k = getSessionRefreshHash t k := by
  unfold getSessionRefreshHash revokeSession
  rw [lookup_updateSession, Option.map_map]
  congr 1
  funext r
  simp only [Function.comp]
  split <;> rfl

variable {now : Instant} {t' : Sessions} {sess : Session}

theorem createSession_eq_some {castInet : String → Option String} {userID : UUID}
    {refreshHash ip ua : String} {mfaPassed : Bool} {expires : Instant}
    (h : createSession castInet now id userID refreshHash ip ua mfaPassed expires t =
      some (sess, t')) :
    t.insert sess = some t' ∧ sess.id = id ∧ sess.userId = userID ∧ sess.revokedAt = none ∧
      sess.expiresAt = expires := by
  unfold createSession at h
  split at h
  · cases h
  · obtain ⟨t'', ht, ⟨⟩⟩ := Option.map_eq_some_iff.mp h
    exact ⟨ht, rfl, rfl, rfl, rfl⟩

theorem Revoked.of_insert (hins : t.insert sess = some t')
    (hlive : sess.revokedAt = none) (h : Revoked t' k) : Revoked t k := by
  obtain ⟨r, hr, hrev⟩ := h
  obtain ⟨hmem, hk⟩ := Table.lookup_eq_some.mp hr
  rcases (Table.mem_insert hins).mp hmem with hmem | rfl
  · exact ⟨r, Table.lookup_eq_some.mpr ⟨hmem, hk⟩, hrev⟩
  · rw [hlive] at hrev
    cases hrev

variable {p : Session → Bool} {f : Session → Session}

theorem Revoked.of_updateSession {hf : ∀ r, (f r).id = r.id}
    (h : Revoked (Store.updateSession id p f hf t) k) (hkeep : ∀ r, (f r).revokedAt = r.revokedAt) :
    Revoked t k := by
  obtain ⟨r, hr, hrev⟩ := h
  rw [lookup_updateSession] at hr
  obtain ⟨q, hq, rfl⟩ := Option.map_eq_some_iff.mp hr
  refine ⟨q, hq, ?_⟩
  split at hrev
  · rwa [hkeep] at hrev
  · exact hrev

theorem Revoked.of_rotateRefresh {newHash : String}
    {expires : Instant} (h : Revoked (Store.rotateRefresh now id newHash expires t) k) :
    Revoked t k := by
  exact h.of_updateSession fun _ => rfl

theorem Revoked.of_touchSession (h : Revoked (Store.touchSession now id t) k) : Revoked t k := by
  exact h.of_updateSession fun _ => rfl

theorem Revoked.of_revokeSession (h : Revoked (Store.revokeSession now id t) k) :
    Revoked t k ∨ k = id := by
  by_cases hk : k = id
  · exact .inr hk
  obtain ⟨r, hr, hrev⟩ := h
  unfold Store.revokeSession at hr
  rw [lookup_updateSession_of_ne t hk] at hr
  exact .inl ⟨r, hr, hrev⟩

theorem revoked_revokeSession (h : t.lookup id = some r) (now : Instant) :
    Revoked (revokeSession now id t) id := by
  refine ⟨_, by rw [lookup_revokeSession, h, Option.map_some], ?_⟩
  by_cases hn : r.revokedAt.isNone
  · simp [hn]
  · rw [if_neg hn]
    exact Option.isSome_iff_ne_none.mpr (by simpa using hn)

theorem Revoked.updateSession {hf : ∀ r, (f r).id = r.id}
    (hkeep : ∀ r, p r → r.revokedAt.isSome → (f r).revokedAt.isSome)
    (h : Revoked t k) : Revoked (updateSession id p f hf t) k := by
  obtain ⟨r, hr, hrev⟩ := h
  refine ⟨_, by rw [lookup_updateSession, hr, Option.map_some], ?_⟩
  by_cases hp : k = id ∧ p r
  · rw [if_pos hp]
    exact hkeep r hp.2 hrev
  · rw [if_neg hp]
    exact hrev

theorem Revoked.rotateRefresh (h : Revoked t k) (now : Instant) (id : UUID) (newHash : String)
    (expires : Instant) : Revoked (rotateRefresh now id newHash expires t) k :=
  h.updateSession fun _ _ hr => hr

theorem Revoked.revokeSession (h : Revoked t k) (now : Instant) (id : UUID) :
    Revoked (revokeSession now id t) k :=
  h.updateSession fun _ _ _ => rfl

/-! ## How many sessions are active -/

theorem countActiveSessions_anti {a b : Instant} (hab : a ≤ b) (userID : UUID) (t : Sessions) :
    countActiveSessions b userID t ≤ countActiveSessions a userID t := by
  refine List.countP_mono_left fun r _ hr => ?_
  simp only [Session.activeFor, Bool.and_eq_true, decide_eq_true_eq] at hr ⊢
  exact ⟨hr.1, lt_of_le_of_lt hab hr.2⟩

theorem countActiveSessions_insert (h : t.insert sess = some t') (now : Instant) (userID : UUID) :
    countActiveSessions now userID t' ≤
      countActiveSessions now userID t + (if sess.userId = userID then 1 else 0) := by
  unfold countActiveSessions
  rw [Table.rows_insert h, List.countP_append, List.countP_singleton]
  by_cases hu : sess.userId = userID
  · split <;> omega
  · have hno : Session.activeFor now userID sess = false := by simp [Session.activeFor, hu]
    simp [hno]

theorem countActiveSessions_revokeSession (time now : Instant) (id userID : UUID) (t : Sessions) :
    countActiveSessions now userID (revokeSession time id t) ≤
      countActiveSessions now userID t := by
  unfold countActiveSessions revokeSession updateSession Table.update
  rw [List.countP_map]
  refine List.countP_mono_left fun r _ hr => ?_
  simp only [Function.comp] at hr
  split at hr
  · simp [Session.activeFor] at hr
  · exact hr

end Moorgate.Store
