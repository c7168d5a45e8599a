import Moorgate.Framework.Base.Calls

/-!
# Rotation of a site's key: `rotateSiteKey` of `federation/site.go` and `federation/hub.go`

A rotation signs a new key with the present one; the hub verifies the signature with the active key
and stages the new one as pending; the site commits it when it has the acknowledgement. When the
site links with the pending key, the hub promotes it.

A site is locked out when its key is neither of the hub's. There is one pending slot and no lock,
and the promotion takes what is pending at that time (`keys_kept_iff`). A signature verifies with
the key it was made with, so a key here stands for both halves. Every failure ends the call where
it stands.
-/

namespace Moorgate.Federation

open Framework

variable {κ : Type*}

/-! ## The keys -/

/-- The row of the site on the hub, and the site's own key. -/
structure SiteKeys (κ : Type*) where
  active : κ
  pending : Option κ
  site : κ
deriving DecidableEq

def setSitePendingKey (key : κ) (s : SiteKeys κ) : SiteKeys κ := { s with pending := some key }

def promoteSitePendingKey (s : SiteKeys κ) : SiteKeys κ :=
  match s.pending with
  | some key => { s with active := key, pending := none }
  | none => s

def saveSiteKey (key : κ) (s : SiteKeys κ) : SiteKeys κ := { s with site := key }

def SiteKeys.Known (s : SiteKeys κ) : Prop := s.site = s.active ∨ s.pending = some s.site

theorem known_promoteSitePendingKey {s : SiteKeys κ} (h : s.Known) :
    (promoteSitePendingKey s).Known ↔ ∀ key, s.pending = some key → key = s.site := by
  unfold promoteSitePendingKey
  split
  · rename_i key hkey
    rw [hkey]
    constructor
    · rintro (hsite | hpending) other hother
      · cases hother
        exact hsite.symm
      · cases hpending
    · intro hall
      exact .inl (hall key rfl).symm
  · rename_i hnone
    refine iff_of_true h fun key hkey => ?_
    cases hnone.symm.trans hkey

/-! ## Rotations and reconnects -/

/-- Where a rotation stands. The three statements in the middle are those of
`handleSiteKeyRotate`. -/
inductive RotatePc (κ : Type*) where
  | reading
  | signing (own : κ)
  | looking (own new : κ)
  | verifying (own new active : κ)
  | staging (new : κ)
  | acking (new : κ)
  | committing (new : κ)
deriving DecidableEq

/-- A rotation, a reconnect before it has its key, before `GetSite` and before the promotion,
and a call that is over. -/
inductive KeyCall (κ : Type*) where
  | rotate (pc : RotatePc κ)
  | loading
  | linking (key : κ)
  | promoting (key : κ)
  | done
deriving DecidableEq

inductive KeyRequest where
  | rotate | reconnect

def KeyRequest.start : KeyRequest → KeyCall κ
  | .rotate => .rotate .reading
  | .reconnect => .loading

/-- Whether the statement succeeds, and the key that `Generate` yields. -/
structure KeyInput (κ : Type*) where
  ok : Bool
  new : κ

section

variable [DecidableEq κ]

def rotateAct (i : KeyInput κ) (s : SiteKeys κ) : RotatePc κ → SiteKeys κ × KeyCall κ
  | .reading => (s, .rotate (.signing s.site))
  | .signing own => (s, .rotate (.looking own i.new))
  | .looking own new => (s, .rotate (.verifying own new s.active))
  | .verifying own new active => (s, if own = active then .rotate (.staging new) else .done)
  | .staging new => (setSitePendingKey new s, .rotate (.acking new))
  | .acking new => (s, .rotate (.committing new))
  | .committing new => (saveSiteKey new s, .done)

def keyAct (i : KeyInput κ) (s : SiteKeys κ) : KeyCall κ → Option (SiteKeys κ × KeyCall κ)
  | .rotate pc => some (if i.ok then rotateAct i s pc else (s, .done))
  | .loading => some (s, if i.ok then .linking s.site else .done)
  | .linking key =>
    -- the active key first, then the pending one
    some (s, if i.ok ∧ key ≠ s.active ∧ s.pending = some key then .promoting key else .done)
  | .promoting _ => some (if i.ok then promoteSitePendingKey s else s, .done)
  | .done => none

abbrev KeyPool (κ : Type*) := Pool (SiteKeys κ) (KeyCall κ)

abbrev KeyMove (κ : Type*) := Move KeyRequest (KeyInput κ)

def keyStep : KeyPool κ → KeyMove κ → Option (KeyPool κ) := poolStep KeyRequest.start keyAct

def joinedKeys (key : κ) (pending : Option κ) : KeyPool κ := ⟨⟨key, pending, key⟩, []⟩

/-! ## The property -/

def KeysKept (s : KeyPool κ) : Prop := s.store.Known

/-- The statement would lock the site out: it stages a key over the pending one that the site
has committed already, commits one that is neither pending nor active any more, or promotes
one that the site does not have. -/
def KeyCall.Strands (s : SiteKeys κ) : KeyCall κ → Prop
  | .rotate (.staging new) => s.site ≠ s.active ∧ s.site ≠ new
  | .rotate (.committing new) => new ≠ s.active ∧ s.pending ≠ some new
  | .promoting _ => ∃ key, s.pending = some key ∧ key ≠ s.site
  | _ => False

def Strands (s : KeyPool κ) : KeyMove κ → Prop
  | .begin _ => False
  | .advance c i => i.ok ∧ ∃ p, s.call c = some p ∧ p.Strands s.store

section

variable {s s' : KeyPool κ} {m : KeyMove κ} {st st' : SiteKeys κ} {i : KeyInput κ}
  {p p' : KeyCall κ}

theorem known_rotateAct {pc : RotatePc κ} (h : st.Known) :
    (rotateAct i st pc).1.Known ↔ ¬ (KeyCall.rotate pc).Strands st := by
  cases pc with
  | staging new =>
    show (st.site = st.active ∨ some new = some st.site) ↔ ¬ (st.site ≠ st.active ∧ st.site ≠ new)
    rw [Option.some.injEq, eq_comm (a := new)]
    tauto
  | committing new =>
    show (new = st.active ∨ st.pending = some new) ↔ ¬ (new ≠ st.active ∧ st.pending ≠ some new)
    tauto
  | _ => exact iff_of_true h not_false

theorem known_keyAct (h : st.Known) (hact : keyAct i st p = some (st', p')) :
    st'.Known ↔ ¬ (i.ok ∧ p.Strands st) := by
  cases p with
  | rotate pc =>
    cases hok : i.ok with
    | true =>
      simp only [keyAct, hok, if_true, Option.some.injEq] at hact
      rw [show st' = (rotateAct i st pc).1 from congrArg Prod.fst hact.symm, known_rotateAct h]
      tauto
    | false =>
      simp only [keyAct, hok] at hact
      cases hact
      exact iff_of_true h fun hand => by cases hand.1
  | promoting key =>
    cases hok : i.ok with
    | true =>
      simp only [keyAct, hok, if_true] at hact
      cases hact
      rw [known_promoteSitePendingKey h]
      show (∀ key, st.pending = some key → key = st.site) ↔
        ¬ (true ∧ ∃ key, st.pending = some key ∧ key ≠ st.site)
      grind
    | false =>
      simp only [keyAct, hok] at hact
      cases hact
      exact iff_of_true h fun hand => by cases hand.1
  | loading | linking key =>
    cases hact
    exact iff_of_true h fun hand => hand.2
  | done => cases hact

theorem keysKept_step_iff (hp : KeysKept s) :
    ¬ Strands s m ↔ ∀ s', keyStep s m = some s' → KeysKept s' := by
  cases m with
  | begin rq =>
    refine iff_of_true not_false fun s' hs => ?_
    cases hs
    exact hp
  | advance c i =>
    refine Iff.trans ?_ forall_advance_iff.symm
    constructor
    · intro hno p next hc hact
      exact (known_keyAct hp hact).mpr fun hstrands => hno ⟨hstrands.1, p, hc, hstrands.2⟩
    · rintro hall ⟨hok, p, hc, hstrands⟩
      cases hact : keyAct i s.store p with
      | none =>
        cases p with
        | done => exact hstrands
        | _ => cases hact
      | some next => exact (known_keyAct hp hact).mp (hall p next hc hact) ⟨hok, hstrands⟩

end

/-- **A rotation locks the site out** exactly by the statements of `Strands`. -/
theorem keys_kept_iff (key : κ) (pending : Option κ) (ms : List (KeyMove κ)) :
    Throughout keyStep KeysKept (joinedKeys key pending) ms ↔
      Guarded keyStep (fun s m => ¬ Strands s m) (joinedKeys key pending) ms := by
  have hstep : ∀ {s : KeyPool κ} {m s'}, True → keyStep s m = some s' → True := fun _ _ => trivial
  exact throughout_iff_guarded hstep (fun _ => keysKept_step_iff) trivial (.inl rfl)

def keyMoves (n c new : ℕ) : List (KeyMove ℕ) := List.replicate n (.advance c ⟨true, new⟩)

/-- Two rotations at a time: the second stages its key over that of the first, which the
first then commits. -/
def overlappingRotations : List (KeyMove ℕ) :=
  .begin .rotate :: .begin .rotate :: (keyMoves 6 0 1 ++ keyMoves 5 1 2 ++ keyMoves 1 0 1)

/-- The key of a rotation is promoted by a reconnect. A second one stands before its promotion
while the next rotation stages a key, and the acknowledgement is lost. -/
def latePromotion : List (KeyMove ℕ) :=
  .begin .rotate :: (keyMoves 7 0 1 ++ .begin .reconnect :: .begin .reconnect ::
    (keyMoves 2 1 0 ++ keyMoves 2 2 0 ++ keyMoves 1 1 0 ++
      .begin .rotate :: (keyMoves 5 3 2 ++ .advance 3 ⟨false, 0⟩ :: keyMoves 1 2 0)))

/-- The site is left with key 1, and the hub with 0 and 2, or with 2 alone. -/
theorem rotation_locks_out :
    (∃ s, exec keyStep (joinedKeys 0 none) overlappingRotations = some s ∧
      s.store = ⟨0, some 2, 1⟩ ∧ ¬ KeysKept s) ∧
    ∃ s, exec keyStep (joinedKeys 0 none) latePromotion = some s ∧ s.store = ⟨2, none, 1⟩ ∧
    ¬ KeysKept s := by
  have hlost : ∀ {s : KeyPool ℕ} {active : ℕ} {pending : Option ℕ}, s.store = ⟨active, pending, 1⟩ →
      active ≠ 1 → pending ≠ some 1 → ¬ KeysKept s := by
    intro s active pending hstore hactive hpending hkept
    unfold KeysKept at hkept
    rw [hstore] at hkept
    rcases hkept with hsite | hsite
    · exact hactive hsite.symm
    · exact hpending hsite
  constructor
  all_goals exact ⟨_, rfl, rfl, hlost rfl (by decide) (by decide)⟩

end

end Moorgate.Federation
