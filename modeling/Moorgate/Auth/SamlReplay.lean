import Moorgate.Framework.Base.Expiring
import Moorgate.Framework.Base.Runs

/-!
# One use of an assertion: `auth/saml.go`

The handler remembers the ids of the assertions it has consumed, in one process and for ten
minutes. How long an assertion stays valid is set by the identity provider: a response that is
valid for longer signs in again. A run is a list of requests to the assertion consumer service,
each some time after the one before it.
-/

namespace Moorgate.Auth

open Framework

def samlAssertionTTL : Duration := 10 * minute

/-- A response: the ids of its assertions, and the period in which the library finds it valid. -/
structure SamlResponse where
  ids : List String
  (notBefore notOnOrAfter : Instant)
deriving DecidableEq

/-- A request to the service. `ready` is that SAML is configured and the form parses, `trusted`
that signature and audience are right, and `provisioned` and `session` are the outcomes of
`provisionSAMLUser` and `CreateSession`. -/
structure AcsRequest where
  delay : ℕ
  response : SamlResponse
  (ready trusted provisioned session : Bool)

/-- The clock, the replay memory, and each id from which a session was created, with the time. -/
structure AcsState where
  clock : Instant
  seen : Expiring String
  sessions : List (String × Instant)

def AcsState.initial (clock : Instant) : AcsState := ⟨clock, fun _ => none, []⟩

def AcsRequest.accepted (rq : AcsRequest) (now : Instant) : Bool :=
  rq.trusted && decide (rq.response.notBefore ≤ now ∧ now < rq.response.notOnOrAfter)

section

variable (s : AcsState) (rq : AcsRequest)

def AcsRequest.now : Instant := s.clock + rq.delay

/-- The loop over the assertions. One without an id is refused. -/
def observed : Bool × Expiring String :=
  Expiring.observeAll samlAssertionTTL (rq.now s) (fun id => id ≠ "") s.seen rq.response.ids

def AcsRequest.reaches : Bool := rq.ready && rq.accepted (rq.now s)

def signsIn : Bool := rq.reaches s && (observed s rq).1 && rq.provisioned && rq.session

def samlACS : AcsState where
  clock := rq.now s
  seen := if rq.reaches s then (observed s rq).2 else s.seen
  sessions := if signsIn s rq then s.sessions ++ rq.response.ids.map fun id => (id, rq.now s)
    else s.sessions

def SignedInOnce : Prop := (s.sessions.map Prod.fst).Nodup

/-- A response that is found valid is posted with an id that was signed in with ten minutes ago, or
earlier. -/
def PostedLate : Prop :=
  rq.reaches s ∧ ∃ x ∈ s.sessions, x.1 ∈ rq.response.ids ∧ x.2 + samlAssertionTTL ≤ rq.now s

instance : Decidable (PostedLate s rq) := by
  unfold PostedLate
  infer_instance

end

/-- What is trusted has the periods of its assertions, and none is longer than ten minutes. -/
def AcsRequest.ShortLived (period : String → Instant × Instant) (rq : AcsRequest) : Prop :=
  rq.trusted → ∀ id ∈ rq.response.ids,
    period id = (rq.response.notBefore, rq.response.notOnOrAfter) ∧
      rq.response.notOnOrAfter ≤ rq.response.notBefore + samlAssertionTTL

/-- A session's id is known for ten minutes. -/
def Remembered (s : AcsState) : Prop :=
  ∀ id t, (id, t) ∈ s.sessions → Expiring.Known s.clock s.seen id (t + samlAssertionTTL)

section

variable {s : AcsState} {rq : AcsRequest}

theorem ttl_pos : 0 < samlAssertionTTL := by decide

theorem clock_le_now (s : AcsState) (rq : AcsRequest) : s.clock ≤ rq.now s :=
  Int.le_add_of_nonneg_right (Int.natCast_nonneg rq.delay)

theorem AcsRequest.reaches_iff : rq.reaches s ↔ rq.ready ∧ rq.trusted ∧
    rq.response.notBefore ≤ rq.now s ∧ rq.now s < rq.response.notOnOrAfter := by
  simp [reaches, accepted]

theorem signsIn_cases (s : AcsState) (rq : AcsRequest) :
    (rq.reaches s ∧ (observed s rq).1 ∧ (samlACS s rq).seen = (observed s rq).2 ∧
      (samlACS s rq).sessions = s.sessions ++ rq.response.ids.map fun id => (id, rq.now s)) ∨
    (samlACS s rq).sessions = s.sessions := by
  cases h : signsIn s rq with
  | true =>
    have hparts := h
    simp only [signsIn, Bool.and_eq_true] at hparts
    obtain ⟨⟨⟨hreach, hobs⟩, -⟩, -⟩ := hparts
    exact .inl ⟨hreach, hobs, by simp [samlACS, hreach], by simp [samlACS, h]⟩
  | false => exact .inr (by simp [samlACS, h])

theorem known_samlACS {id : String} {upTo : Instant} (h : Expiring.Known s.clock s.seen id upTo) :
    Expiring.Known (samlACS s rq).clock (samlACS s rq).seen id upTo := by
  have hlater := h.mono (clock_le_now s rq)
  show Expiring.Known (rq.now s) (if rq.reaches s then (observed s rq).2 else s.seen) id upTo
  split
  · exact hlater.observeAll
  · exact hlater

theorem remembered_samlACS (h : Remembered s) : Remembered (samlACS s rq) := by
  intro id t hmem
  rcases signsIn_cases s rq with ⟨-, hobs, hseen, hsessions⟩ | hsessions
  · rw [hsessions, List.mem_append] at hmem
    rcases hmem with hold | hnew
    · exact known_samlACS (h id t hold)
    obtain ⟨id', hid, ⟨⟩⟩ := List.mem_map.mp hnew
    rw [hseen]
    exact ((Expiring.observeAll_fst ttl_pos hobs).2 id hid).2
  · rw [hsessions] at hmem
    exact known_samlACS (h id t hmem)

/-- A request signs in with ids that are all new, unless one of them comes late. -/
theorem signedInOnce_samlACS (hrem : Remembered s) (hlate : ¬ PostedLate s rq)
    (hold : SignedInOnce s) : SignedInOnce (samlACS s rq) := by
  unfold SignedInOnce at hold ⊢
  rcases signsIn_cases s rq with ⟨hreach, hobs, -, hsessions⟩ | hsessions
  · obtain ⟨hnodup, hfresh⟩ := Expiring.observeAll_fst ttl_pos hobs
    have hids : rq.response.ids.map (Prod.fst ∘ fun id => (id, rq.now s)) = rq.response.ids :=
      List.map_id _
    rw [hsessions, List.map_append, List.map_map, hids, List.nodup_append]
    -- an id that is taken for new has been forgotten, or was never there
    refine ⟨hold, hnodup, ?_⟩
    rintro id hmem id' hid rfl
    obtain ⟨⟨i, t⟩, hsession, rfl⟩ := List.mem_map.mp hmem
    refine hlate ⟨hreach, (i, t), hsession, hid, ?_⟩
    exact ((hrem i t hsession).mono (clock_le_now s rq)).le_of_fresh (hfresh i hid).1
  · rwa [hsessions]

variable {period : String → Instant × Instant}

/-- Sessions were created within the period of their assertion. -/
def Begun (period : String → Instant × Instant) (s : AcsState) : Prop :=
  ∀ x ∈ s.sessions, (period x.1).1 ≤ x.2

theorem begun_samlACS (h : Begun period s) (hshort : rq.ShortLived period) :
    Begun period (samlACS s rq) := by
  intro x hx
  rcases signsIn_cases s rq with ⟨hreach, -, -, hsessions⟩ | hsessions
  · rw [hsessions, List.mem_append] at hx
    rcases hx with hx | hx
    · exact h x hx
    obtain ⟨id, hid, rfl⟩ := List.mem_map.mp hx
    obtain ⟨-, htrusted, hbegun, -⟩ := rq.reaches_iff.mp hreach
    rwa [(hshort htrusted id hid).1]
  · rw [hsessions] at hx
    exact h x hx

theorem not_postedLate_of_shortLived (h : Begun period s) (hshort : rq.ShortLived period) :
    ¬ PostedLate s rq := by
  rintro ⟨hreach, x, hx, hid, hlate⟩
  obtain ⟨-, htrusted, -, hover⟩ := rq.reaches_iff.mp hreach
  obtain ⟨hperiod, hshort⟩ := hshort htrusted x.1 hid
  have hbegun := h x hx
  rw [hperiod] at hbegun
  exact absurd (hlate.trans_lt hover) (not_lt.mpr (hshort.trans (Int.add_le_add_right hbegun _)))

end

/-- **An assertion signs in once**, in every run in which no response that is still found valid is
posted ten minutes after it was signed in with; and so if no assertion is valid for longer. -/
theorem assertion_signs_in_once (clock : Instant) (rqs : List AcsRequest)
    (period : String → Instant × Instant)
    (h : Guarded (always samlACS) (fun s rq => ¬ PostedLate s rq) (.initial clock) rqs ∨
      ∀ rq ∈ rqs, rq.ShortLived period) :
    SignedInOnce (rqs.foldl samlACS (.initial clock)) := by
  have hlate : Guarded (always samlACS) (fun s rq => ¬ PostedLate s rq) (.initial clock) rqs := by
    rcases h with h | hshort
    · exact h
    have hstep : ∀ {s rq s'}, Begun period s → AcsRequest.ShortLived period rq →
        always samlACS s rq = some s' → Begun period s' := by
      rintro s rq _ hbegun hshort ⟨⟩
      exact begun_samlACS hbegun hshort
    exact guarded_of_invariant hstep not_postedLate_of_shortLived nofun
      (guarded_of_forall_mem hshort)
  have hstep : ∀ {s rq}, Remembered s ∧ SignedInOnce s → ¬ PostedLate s rq →
      Remembered (samlACS s rq) ∧ SignedInOnce (samlACS s rq) :=
    fun hi hlate => ⟨remembered_samlACS hi.1, signedInOnce_samlACS hi.1 hlate hi.2⟩
  have hstart : Remembered (.initial clock) ∧ SignedInOnce (.initial clock) :=
    ⟨nofun, List.nodup_nil⟩
  exact (foldl_invariant hstep hlate hstart).2

def hourLong : SamlResponse := ⟨["_a1"], 0, hour⟩

def posted (delay : Duration) : AcsRequest := ⟨delay.toNat, hourLong, true, true, true, true⟩

/-- It is refused after nine minutes. -/
theorem assertion_signs_in_once_hourLong :
    SignedInOnce ([posted 0, posted (9 * minute)].foldl samlACS (.initial 0)) :=
  assertion_signs_in_once 0 _ (fun _ => (0, 0)) (.inl (by decide +kernel))

/-- And signs in again after ten. -/
theorem assertion_signs_in_twice :
    (([posted 0, posted (9 * minute), posted minute]).foldl samlACS (.initial 0)).sessions =
        [("_a1", 0), ("_a1", 10 * minute)] ∧
      ¬ SignedInOnce (([posted 0, posted (9 * minute), posted minute]).foldl samlACS
        (.initial 0)) := by
  refine ⟨by decide +kernel, ?_⟩
  unfold SignedInOnce
  decide +kernel

end Moorgate.Auth
