import Moorgate.Framework.Base.Calls
import Moorgate.Models.Ids

/-!
# The hub a site trusts: `join`, `applyHubKey` and `rotateSiteKey` of `federation/site.go`

The site has one row for its hub, with the hub's public key and its fingerprint. `join` writes it,
a `hubkey` frame replaces the two columns, and `rotateSiteKey` writes the whole row back.

`join` compares the configured fingerprint with the one that the peer names and never with the key;
a frame is compared with nothing; neither looks at the length; and `rotateSiteKey` writes back the
hub's key as it was when it began. These are the only ways to a row that is not trusted
(`hub_trusted_iff`).
-/

namespace Moorgate.Federation

open Framework Models

/-- SHA-256, unpadded base64, the decoder of base64 and of ids. -/
structure Encodings where
  sha256 : List UInt8 → List UInt8
  rawEncode : List UInt8 → String
  decodeString : String → Option (List UInt8)
  parseID : String → Option UUID

def Encodings.fingerprint (E : Encodings) (pub : List UInt8) : String :=
  "SHA256:" ++ E.rawEncode (E.sha256 pub)

def publicKeySize : ℕ := 32

def minSupportedProtocol : ℤ := 1

structure FederationHub where
  hubURL : String
  hubPublicKey : List UInt8
  hubFingerprint : String
  siteID : UUID
  (sitePublicKey sitePrivateKeyEnc : List UInt8)
  managedMode : Bool
deriving DecidableEq

structure SiteConfig where
  (hubURL hubKeyFingerprint : String)

structure JoinResp where
  (siteID hubPublicKey hubFingerprint : String)
  protocolVersion : ℤ

structure HubKeyMsg where
  (publicKey fingerprint : String)

inductive JoinError where
  | fingerprint (pinned got : String)
  | protocol (version : ℤ)
  | hubPublicKey | siteID
deriving DecidableEq

section

variable (E : Encodings) (cfg : SiteConfig)

def join (jr : JoinResp) (pub sealed : List UInt8) : Except JoinError FederationHub :=
  if cfg.hubKeyFingerprint ≠ "" ∧ cfg.hubKeyFingerprint ≠ jr.hubFingerprint then
    .error (.fingerprint cfg.hubKeyFingerprint jr.hubFingerprint)
  else if jr.protocolVersion ≠ 0 ∧
    jr.protocolVersion < minSupportedProtocol then .error (.protocol jr.protocolVersion)
  else
    match E.decodeString jr.hubPublicKey with
    | none => .error .hubPublicKey
    | some hubPub =>
      match E.parseID jr.siteID with
      | none => .error .siteID
      | some siteID => .ok ⟨cfg.hubURL, hubPub, jr.hubFingerprint, siteID, pub, sealed, true⟩

def hubKeyOf (msg : HubKeyMsg) : Option (List UInt8 × String) :=
  match E.decodeString msg.publicKey with
  | none => none
  | some pub => if pub = [] then none else some (pub, msg.fingerprint)

/-! ## Calls -/

/-- Where the key in the row was last taken from. -/
inductive TrustSource where
  | join | frame
deriving DecidableEq

/-- The row of the hub; and, for the statements about runs, the key that was last applied. -/
structure SiteTrust where
  hub : Option FederationHub
  applied : Option (List UInt8 × TrustSource)
deriving DecidableEq

inductive TrustCall where
  | loading | joining
  | saving (hub : FederationHub)
  | applying (msg : HubKeyMsg)
  | reading
  | committing (hub : FederationHub)
  | done

inductive TrustRequest where
  | ensureJoined
  | hubKey (msg : HubKeyMsg)
  | rotate

def TrustRequest.start : TrustRequest → TrustCall
  | .ensureJoined => .loading
  | .hubKey msg => .applying msg
  | .rotate => .reading

/-- Whether the statement succeeds (for a rotation: the exchange with the hub), the response to
the join, and the keypair that the site generates. -/
structure TrustInput where
  ok : Bool
  resp : JoinResp
  (pub sealed : List UInt8)

def rotated (i : TrustInput) (hub : FederationHub) : FederationHub :=
  { hub with sitePublicKey := i.pub, sitePrivateKeyEnc := i.sealed }

def trustAct (i : TrustInput) (s : SiteTrust) : TrustCall → Option (SiteTrust × TrustCall)
  | .loading => some (s, if i.ok ∧ s.hub = none then .joining else .done)
  | .joining =>
    match if i.ok then join E cfg i.resp i.pub i.sealed else .error .siteID with
    | .error _ => some (s, .done)
    | .ok hub => some (s, .saving hub)
  | .saving hub => some (if i.ok then ⟨some hub, some (hub.hubPublicKey, .join)⟩ else s, .done)
  | .applying msg =>
    match hubKeyOf E msg, s.hub with
    | some (pub, fp), some hub =>
      let hub' := { hub with hubPublicKey := pub, hubFingerprint := fp }
      some (if i.ok then ⟨some hub', some (pub, .frame)⟩ else s, .done)
    | _, _ => some (s, .done)
  | .reading =>
    match s.hub with
    | some hub => some (s, if i.ok then .committing hub else .done)
    | none => some (s, .done)
  | .committing hub => some (if i.ok then { s with hub := some (rotated i hub) } else s, .done)
  | .done => none

abbrev TrustPool := Pool SiteTrust TrustCall

abbrev TrustMove := Move TrustRequest TrustInput

def trustStep : TrustPool → TrustMove → Option TrustPool :=
  poolStep TrustRequest.start (trustAct E cfg)

def unjoined : TrustPool := ⟨⟨none, none⟩, []⟩

/-! ## The property -/

def Genuine (pub : List UInt8) (fp : String) : Prop :=
  pub.length = publicKeySize ∧ fp = E.fingerprint pub

/-- The row is genuine and has the key that was applied last; if that was the join, the
configured fingerprint is the key's. -/
def SiteTrust.Trusted (s : SiteTrust) : Prop :=
  ∀ hub, s.hub = some hub → Genuine E hub.hubPublicKey hub.hubFingerprint ∧
    ∃ source, s.applied = some (hub.hubPublicKey, source) ∧
      (source = .join → cfg.hubKeyFingerprint ≠ "" → E.fingerprint hub.hubPublicKey =
      cfg.hubKeyFingerprint)

/-- The statement writes a key and a fingerprint that do not belong together, or hub columns
that have changed since they were read. -/
def TrustCall.Misleads (s : SiteTrust) : TrustCall → Prop
  | .saving hub => ¬ Genuine E hub.hubPublicKey hub.hubFingerprint
  | .applying msg => s.hub.isSome ∧ ∃ pub fp, hubKeyOf E msg = some (pub, fp) ∧ ¬ Genuine E pub fp
  | .committing hub => ∀ now, s.hub = some now →
      ¬ (now.hubPublicKey = hub.hubPublicKey ∧ now.hubFingerprint = hub.hubFingerprint)
  | _ => False

def Misleads (s : TrustPool) : TrustMove → Prop
  | .begin _ => False
  | .advance c i => i.ok ∧ ∃ p, s.call c = some p ∧ p.Misleads E s.store

/-! ## One statement -/

/-- What is about to be saved has passed the check of `join`, and a rotation under way has read a
row. -/
def TrustCall.Checked (s : SiteTrust) : TrustCall → Prop
  | .saving hub => cfg.hubKeyFingerprint ≠ "" → hub.hubFingerprint = cfg.hubKeyFingerprint
  | .committing _ => s.hub.isSome
  | _ => True

structure TrustInv (s : TrustPool) : Prop where
  checked : ∀ q ∈ s.calls, q.Checked cfg s.store

end

section

variable {E : Encodings} {cfg : SiteConfig} {s s' : TrustPool} {m : TrustMove} {st st' : SiteTrust}
  {i : TrustInput} {p p' : TrustCall}

theorem fingerprint_of_join {jr : JoinResp} {pub sealed : List UInt8} {hub : FederationHub}
    (h : join E cfg jr pub sealed = .ok hub) :
    cfg.hubKeyFingerprint ≠ "" → hub.hubFingerprint = cfg.hubKeyFingerprint := by
  intro hset
  revert h
  fun_cases join E cfg jr pub sealed with
  | case5 hpin =>
    rintro ⟨⟩
    by_contra hne
    exact hpin ⟨hset, fun heq => hne heq.symm⟩
  | _ => rintro ⟨⟩

theorem isSome_trustAct (hact : trustAct E cfg i st p = some (st', p')) (h : st.hub.isSome) :
    st'.hub.isSome := by
  revert hact
  fun_cases trustAct E cfg i st p with
  | case4 | case5 | case9 =>
    rintro ⟨⟩
    split
    · rfl
    · exact h
  | case10 => rintro ⟨⟩
  | _ =>
    rintro ⟨⟩
    exact h

theorem checked_trustAct (hact : trustAct E cfg i st p = some (st', p')) : p'.Checked cfg st' := by
  revert hact
  fun_cases trustAct E cfg i st p with
  | case1 =>
    rintro ⟨⟩
    split <;> trivial
  | case3 hub hjoin =>
    rintro ⟨⟩
    split at hjoin
    · exact fingerprint_of_join hjoin
    · cases hjoin
  | case7 hub hhub =>
    rintro ⟨⟩
    split
    · exact Option.isSome_iff_exists.mpr ⟨hub, hhub⟩
    · trivial
  | case10 => rintro ⟨⟩
  | _ =>
    rintro ⟨⟩
    trivial

theorem TrustCall.Checked.mono (h : p.Checked cfg st) (hsome : st.hub.isSome → st'.hub.isSome) :
    p.Checked cfg st' := by
  cases p with
  | committing hub => exact hsome h
  | saving hub => exact h
  | _ => trivial

theorem trustInv_step (hi : TrustInv cfg s) (h : trustStep E cfg s m = some s') :
    TrustInv cfg s' := by
  rcases poolStep_cases h with ⟨rq, -, rfl⟩ | ⟨c, i, p, st, p', -, hc, hact, rfl⟩
  · refine ⟨Pool.forall_enter hi.checked ?_⟩
    cases rq <;> trivial
  · refine ⟨Pool.forall_put (fun q hq => ?_) (checked_trustAct hact)⟩
    exact (hi.checked q hq).mono (isSome_trustAct hact)

theorem SiteTrust.Trusted.applied_eq {hub : FederationHub} {key : List UInt8} {source : TrustSource}
    (h : st.Trusted E cfg) (hhub : st.hub = some hub) (happlied : st.applied = some (key, source)) :
    key = hub.hubPublicKey := by
  obtain ⟨-, _, hlast, -⟩ := h hub hhub
  exact congrArg Prod.fst (Option.some.inj (happlied.symm.trans hlast))

/-- After a join the row is trusted when it is genuine: the check of `join` does the rest. -/
theorem trusted_saving {hub : FederationHub} (hchecked : (TrustCall.saving hub).Checked cfg st) :
    SiteTrust.Trusted E cfg ⟨some hub, some (hub.hubPublicKey, .join)⟩ ↔
      Genuine E hub.hubPublicKey hub.hubFingerprint := by
  constructor
  · intro htrusted
    exact (htrusted hub rfl).1
  · rintro hgenuine _ ⟨⟩
    refine ⟨hgenuine, .join, rfl, fun _ hset => ?_⟩
    rw [← hgenuine.2]
    exact hchecked hset

theorem trusted_applying {hub : FederationHub} {pub : List UInt8} {fp : String} :
    SiteTrust.Trusted E cfg ⟨some { hub with hubPublicKey := pub, hubFingerprint := fp },
      some (pub, .frame)⟩ ↔ Genuine E pub fp := by
  constructor
  · intro htrusted
    exact (htrusted _ rfl).1
  · rintro hgenuine _ ⟨⟩
    exact ⟨hgenuine, .frame, rfl, nofun⟩

/-- A rotation leaves the row trusted when it writes back what is there. -/
theorem trusted_committing {hub now : FederationHub} (hp : st.Trusted E cfg)
    (hnow : st.hub = some now) : SiteTrust.Trusted E cfg { st with hub := some (rotated i hub) } ↔
      now.hubPublicKey = hub.hubPublicKey ∧ now.hubFingerprint = hub.hubFingerprint := by
  obtain ⟨hgenuine, source, happlied, hjoin⟩ := hp now hnow
  constructor
  · intro htrusted
    obtain ⟨hgenuine', -⟩ := htrusted _ rfl
    have hkey : now.hubPublicKey = (rotated i hub).hubPublicKey := htrusted.applied_eq rfl happlied
    refine ⟨hkey, ?_⟩
    rw [hgenuine.2, hkey]
    exact hgenuine'.2.symm
  · rintro ⟨hkey, hfp⟩ _ ⟨⟩
    refine ⟨⟨hkey ▸ hgenuine.1, ?_⟩, source, hkey ▸ happlied, fun hsource hset => ?_⟩
    · show hub.hubFingerprint = E.fingerprint hub.hubPublicKey
      rw [← hfp, ← hkey]
      exact hgenuine.2
    · show E.fingerprint hub.hubPublicKey = cfg.hubKeyFingerprint
      rw [← hkey]
      exact hjoin hsource hset

theorem trusted_trustAct (hchecked : p.Checked cfg st) (hp : st.Trusted E cfg)
    (hact : trustAct E cfg i st p = some (st', p')) :
    st'.Trusted E cfg ↔ ¬ (i.ok ∧ p.Misleads E st) := by
  -- a statement that fails writes nothing
  have hfailed : i.ok = false → st' = st → (st'.Trusted E cfg ↔ ¬ (i.ok ∧ p.Misleads E st)) := by
    rintro hok rfl
    exact iff_of_true hp fun hand => by cases hok.symm.trans hand.1
  revert hact
  fun_cases trustAct E cfg i st p with
  | case4 hub =>
    rintro ⟨⟩
    cases hok : i.ok with
    | false => simpa only [hok] using hfailed hok (by simp [hok])
    | true =>
      rw [if_pos rfl, trusted_saving hchecked]
      simp [TrustCall.Misleads]
  | case5 msg pub fp hub hkey hhub =>
    rintro ⟨⟩
    cases hok : i.ok with
    | false => simpa only [hok] using hfailed hok (by simp [hok])
    | true =>
      rw [if_pos rfl, trusted_applying]
      simp [TrustCall.Misleads, hkey, hhub]
  | case6 msg hno =>
    rintro ⟨⟩
    refine iff_of_true hp ?_
    rintro ⟨-, hsome, pub, fp, hkey, -⟩
    obtain ⟨hub, hhub⟩ := Option.isSome_iff_exists.mp hsome
    exact hno pub fp hub hkey hhub
  | case9 hub =>
    obtain ⟨now, hnow⟩ := Option.isSome_iff_exists.mp hchecked
    rintro ⟨⟩
    cases hok : i.ok with
    | false => simpa only [hok] using hfailed hok (by simp [hok])
    | true =>
      rw [if_pos rfl, trusted_committing hp hnow]
      simp [TrustCall.Misleads, hnow]
  | case10 => rintro ⟨⟩
  | _ =>
    rintro ⟨⟩
    exact iff_of_true hp fun hand => hand.2

theorem enabled_of_misleads (cfg : SiteConfig) (i : TrustInput) (h : p.Misleads E st) :
    ∃ next, trustAct E cfg i st p = some next := by
  cases p with
  | saving hub | committing hub => exact ⟨_, rfl⟩
  | applying msg =>
    obtain ⟨hsome, pub, fp, hkey, -⟩ := h
    obtain ⟨hub, hhub⟩ := Option.isSome_iff_exists.mp hsome
    simp only [trustAct, hkey, hhub]
    exact ⟨_, rfl⟩
  | _ => exact absurd h not_false

theorem trusted_step_iff (hi : TrustInv cfg s) (hp : s.store.Trusted E cfg) :
    ¬ Misleads E s m ↔ ∀ s', trustStep E cfg s m = some s' → s'.store.Trusted E cfg := by
  cases m with
  | begin rq =>
    refine iff_of_true not_false fun s' hs => ?_
    cases hs
    exact hp
  | advance c i =>
    refine advance_iff ?_ fun {p st p'} hc hact => ?_
    · rintro ⟨-, p, hc, hmis⟩
      obtain ⟨next, hact⟩ := enabled_of_misleads cfg i hmis
      exact ⟨p, next, hc, hact⟩
    · refine (trusted_trustAct (hi.checked p (Pool.mem_of_call hc)) hp hact).trans (not_congr ?_)
      simp [Misleads, hc]

end

/-- **A site trusts the hub it was pinned to** exactly in the runs in which nothing misleads it. -/
theorem hub_trusted_iff (E : Encodings) (cfg : SiteConfig) (ms : List TrustMove) :
    Throughout (trustStep E cfg) (fun s => s.store.Trusted E cfg) unjoined ms ↔
      Guarded (trustStep E cfg) (fun s m => ¬ Misleads E s m) unjoined ms :=
  throughout_iff_guarded trustInv_step trusted_step_iff ⟨nofun⟩ nofun

/-! ## A site that is misled -/

def plainEncodings : Encodings where
  sha256 raw := raw
  rawEncode raw := String.ofList (raw.map fun b => Char.ofNat b.toNat)
  decodeString text := some (text.toList.map fun c => UInt8.ofNat c.toNat)
  parseID _ := some ⟨7⟩

def keyText (c : Char) : String := String.ofList (List.replicate 32 c)

def keyBytes (c : Char) : List UInt8 := List.replicate 32 (UInt8.ofNat c.toNat)

def pinnedSite : SiteConfig := ⟨"https://hub.example", "SHA256:" ++ keyText 'h'⟩

def answers (key fp : String) : TrustInput := ⟨true, ⟨"site", key, fp, 1⟩, [], []⟩

def joinedWith (c : Char) : List TrustMove :=
  .begin .ensureJoined :: List.replicate 3
    (.advance 0 (answers (keyText c) pinnedSite.hubKeyFingerprint))

def hubKeyFrame (k : ℕ) (key fp : String) : List TrustMove :=
  [.begin (.hubKey ⟨key, fp⟩), .advance k (answers "" "")]

/-- The rotation reads, the hub's new key is applied, and the rotation writes. -/
def rotatedAcross : List TrustMove :=
  joinedWith 'h' ++ .begin .rotate :: .advance 1 (answers "" "") ::
    (hubKeyFrame 2 (keyText 'n') ("SHA256:" ++ keyText 'n') ++ [.advance 1 (answers "" "")])

/-- The key of another peer is pinned under the fingerprint of the hub; a frame puts a key of
three bytes in its place; and a rotation brings back a key that the hub has replaced. -/
theorem hub_not_trusted :
    (∃ s hub, exec (trustStep plainEncodings pinnedSite) unjoined (joinedWith 'm') = some s ∧
      s.store.hub = some hub ∧ hub.hubPublicKey = keyBytes 'm' ∧
      plainEncodings.fingerprint hub.hubPublicKey ≠ pinnedSite.hubKeyFingerprint ∧
      ¬ s.store.Trusted plainEncodings pinnedSite) ∧
    (∃ s hub, exec (trustStep plainEncodings pinnedSite) unjoined (joinedWith 'h' ++
      hubKeyFrame 1 "abc" "") = some s ∧
      s.store.hub = some hub ∧ hub.hubPublicKey.length = 3 ∧
      ¬ s.store.Trusted plainEncodings pinnedSite) ∧
    ∃ s hub, exec (trustStep plainEncodings pinnedSite) unjoined rotatedAcross = some s ∧
      s.store.hub = some hub ∧ hub.hubPublicKey = keyBytes 'h' ∧
      s.store.applied = some (keyBytes 'n', .frame) ∧
      ¬ s.store.Trusted plainEncodings pinnedSite := by
  refine ⟨⟨_, _, rfl, rfl, rfl, by decide +kernel, fun htrusted => ?_⟩,
    ⟨_, _, rfl, rfl, rfl, fun htrusted => ?_⟩, ⟨_, _, rfl, rfl, rfl, rfl, fun htrusted => ?_⟩⟩
  · exact absurd (htrusted _ rfl).1.2 (by decide +kernel)
  · exact absurd (htrusted _ rfl).1.1 (by decide +kernel)
  · have hkey : keyBytes 'n' = keyBytes 'h' := htrusted.applied_eq rfl rfl
    exact absurd hkey (by decide +kernel)

end Moorgate.Federation
