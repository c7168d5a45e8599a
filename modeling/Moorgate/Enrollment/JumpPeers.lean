import Moorgate.Framework.Base.Runs
import Moorgate.Framework.Base.Table

/-!
# Peers of the jump host: `jumpPeerScript` and `jumpPeerCleanupScript`

The jump host has a directory of peer fragments and the peers that are live in the kernel.
Enrolling a host retires every fragment that claims its overlay IP or has its name, with the live
peer of that fragment, and adds its own. In the name of a fragment every character outside
`[a-zA-Z0-9_-]` is replaced, so two hosts can have one fragment. The directory and the peers are
those of the enrolled hosts as long as no two of them do (`Collides`).
-/

namespace Moorgate.Enrollment

open Framework

def sanitizeChar (c : Char) : Char := if c.isAlphanum || c == '-' || c == '_' then c else '_'

def sanitize (s : String) : String := String.ofList (s.toList.map sanitizeChar)

/-! ## The jump host -/

/-- `/etc/wireguard/peers/<name>.conf`. -/
structure Fragment where
  (name publicKey allowedIP : String)
deriving DecidableEq

/-- A live peer. One whose address was taken by another stays, without an address. -/
structure Peer where
  publicKey : String
  allowedIP : Option String
deriving DecidableEq

structure JumpHost where
  fragments : Table Fragment.name
  live : Table Peer.publicKey

abbrev LivePeers := Table Peer.publicKey

def removePeer (key : String) (live : LivePeers) : LivePeers :=
  live.delete fun p => decide (p.publicKey = key)

def Peer.withoutIP (p : Peer) : Peer := { p with allowedIP := none }

theorem Peer.withoutIP_key (p : Peer) : p.withoutIP.publicKey = p.publicKey := rfl

/-- `wg set peer <key> allowed-ips <ip>/32`: the last peer that is assigned an address takes it. -/
def setPeer (key ip : String) (live : LivePeers) : LivePeers :=
  (live.update (fun p => decide (p.allowedIP = some ip)) Peer.withoutIP Peer.withoutIP_key).upsert
    ⟨key, some ip⟩

/-! ## The scripts -/

section

variable (new ip name : String)

/-- The body of the loop. `grep` finds the address between `AllowedIPs = ` and `/32`. -/
def retire (j : JumpHost) (f : Fragment) : JumpHost :=
  if f.allowedIP = ip ∨ f.name = name then
    { fragments :=
        if f.name ≠ name then j.fragments.delete fun g => decide (g.name = f.name) else j.fragments
      live :=
        if f.publicKey ≠ "" ∧ f.publicKey ≠ new then removePeer f.publicKey j.live else j.live }
  else j

/-- What `*.conf` matches: a file whose name begins with a dot is not in it, and that is the
fragment of the empty name. -/
def globbed (t : Table Fragment.name) : List Fragment := t.select fun f => decide (f.name ≠ "")

def jumpPeerScript (hostname hostPub wgIP : String) (j : JumpHost) : JumpHost :=
  let retired := (globbed j.fragments).foldl (retire hostPub wgIP (sanitize hostname)) j
  { live := setPeer hostPub wgIP retired.live
    fragments := retired.fragments.upsert ⟨sanitize hostname, hostPub, wgIP⟩ }

def jumpPeerCleanupScript (hostname : String) (j : JumpHost) : JumpHost :=
  match j.fragments.lookup (sanitize hostname) with
  | none => j
  | some f =>
    { live := if f.publicKey ≠ "" then removePeer f.publicKey j.live else j.live
      fragments := j.fragments.delete fun g => decide (g.name = f.name) }

end

/-! ## Runs -/

/-- A host that is enrolled and not cleaned up, with the key and the address of its last
enrolment. -/
structure Enrolled where
  (hostname key ip : String)
deriving DecidableEq

structure JumpState where
  jump : JumpHost
  enrolled : Table Enrolled.hostname

inductive JumpMove where
  | enroll (h : Enrolled)
  | cleanup (hostname : String)

def Distinct (t : Table Enrolled.hostname) (h : Enrolled) : Prop :=
  ∀ e ∈ t.rows, e.hostname ≠ h.hostname → e.key ≠ h.key ∧ e.ip ≠ h.ip

instance (t : Table Enrolled.hostname) (h : Enrolled) : Decidable (Distinct t h) :=
  inferInstanceAs (Decidable (∀ e ∈ t.rows, e.hostname ≠ h.hostname → e.key ≠ h.key ∧ e.ip ≠ h.ip))

/-- An execution that completes; `wg` refuses the empty key. -/
def jumpStep (s : JumpState) : JumpMove → Option JumpState
  | .enroll h =>
    if h.key ≠ "" ∧ Distinct s.enrolled h then
      some ⟨jumpPeerScript h.hostname h.key h.ip s.jump, s.enrolled.upsert h⟩
    else none
  | .cleanup hostname =>
    some ⟨jumpPeerCleanupScript hostname s.jump,
      s.enrolled.delete fun e => decide (e.hostname = hostname)⟩

def jumpStart : JumpState := ⟨⟨.empty, .empty⟩, .empty⟩

def Enrolled.fragment (e : Enrolled) : Fragment := ⟨sanitize e.hostname, e.key, e.ip⟩
def Enrolled.peer (e : Enrolled) : Peer := ⟨e.key, some e.ip⟩

/-- The fragments and the live peers are those of the enrolled hosts. -/
structure Mirrors (s : JumpState) : Prop where
  fragments : ∀ f, f ∈ s.jump.fragments.rows ↔ ∃ e ∈ s.enrolled.rows, f = e.fragment
  live : ∀ p, p ∈ s.jump.live.rows ↔ ∃ e ∈ s.enrolled.rows, p = e.peer

/-- Another enrolled host has the name of the fragment; or the host is the one whose fragment
`*.conf` does not match, and gets another key. -/
def Collides (s : JumpState) : JumpMove → Prop
  | .enroll h => h.key ≠ "" ∧ Distinct s.enrolled h ∧ ∃ e ∈ s.enrolled.rows,
      (e.hostname ≠ h.hostname ∧ sanitize e.hostname = sanitize h.hostname) ∨
        (e.hostname = h.hostname ∧ sanitize h.hostname = "" ∧ e.key ≠ h.key)
  | .cleanup hostname =>
    ∃ e ∈ s.enrolled.rows, e.hostname ≠ hostname ∧ sanitize e.hostname = sanitize hostname

/-! ### What a script leaves -/

section

variable {new ip name : String} {j : JumpHost} {l : List Fragment} {f : Fragment} {p : Peer}

theorem mem_fragments_retire {f g : Fragment} : f ∈ (retire new ip name j g).fragments.rows ↔
      f ∈ j.fragments.rows ∧ ¬ (g.allowedIP = ip ∧ g.name ≠ name ∧ f.name = g.name) := by
  unfold retire
  split
  · split
    · rw [Table.mem_delete]
      grind
    · grind
  · grind

theorem mem_live_retire {g : Fragment} : p ∈ (retire new ip name j g).live.rows ↔ p ∈ j.live.rows ∧
        ¬ ((g.allowedIP = ip ∨ g.name = name) ∧ g.publicKey ≠ "" ∧ g.publicKey ≠ new ∧
          p.publicKey = g.publicKey) := by
  unfold retire
  split
  · dsimp only
    split
    · rw [removePeer, Table.mem_delete]
      grind
    · grind
  · grind

theorem mem_fragments_foldl : f ∈ (l.foldl (retire new ip name) j).fragments.rows ↔
      f ∈ j.fragments.rows ∧ ∀ g ∈ l, ¬ (g.allowedIP = ip ∧ g.name ≠ name ∧ f.name = g.name) := by
  induction l generalizing j with
  | nil => simp
  | cons g l ih => rw [List.foldl_cons, ih, mem_fragments_retire, List.forall_mem_cons, and_assoc]

theorem mem_live_foldl : p ∈ (l.foldl (retire new ip name) j).live.rows ↔ p ∈ j.live.rows ∧ ∀ g ∈ l,
        ¬ ((g.allowedIP = ip ∨ g.name = name) ∧ g.publicKey ≠ "" ∧ g.publicKey ≠ new ∧
          p.publicKey = g.publicKey) := by
  induction l generalizing j with
  | nil => simp
  | cons g l ih => rw [List.foldl_cons, ih, mem_live_retire, List.forall_mem_cons, and_assoc]

theorem mem_globbed {t : Table Fragment.name} : f ∈ globbed t ↔ f ∈ t.rows ∧ f.name ≠ "" := by
  rw [globbed, Table.mem_select, decide_eq_true_eq]

/-- The peers that are left have other keys; one that had the address is without it. -/
theorem mem_setPeer {key : String} {live : LivePeers} :
    p ∈ (setPeer key ip live).rows ↔ p = ⟨key, some ip⟩ ∨
      p.publicKey ≠ key ∧ ∃ q ∈ live.rows,
        p = if q.allowedIP = some ip then q.withoutIP else q := by
  rw [setPeer, Table.mem_upsert, Table.mem_update, or_comm, and_comm]
  simp only [decide_eq_true_eq, eq_comm (b := p)]

theorem mem_fragments_script {hostname : String} :
    f ∈ (jumpPeerScript hostname new ip j).fragments.rows ↔ f = ⟨sanitize hostname, new, ip⟩ ∨
      f.name ≠ sanitize hostname ∧ f ∈ j.fragments.rows ∧ (f.name ≠ "" → f.allowedIP ≠ ip) := by
  rw [jumpPeerScript]
  rw [Table.mem_upsert, mem_fragments_foldl, or_comm]
  refine or_congr_right ?_
  rw [and_comm, and_congr_right_iff]
  intro hname
  refine and_congr_right fun hf => ?_
  constructor
  · intro hall hvisible hip
    exact hall f (mem_globbed.mpr ⟨hf, hvisible⟩) ⟨hip, hname, rfl⟩
  · rintro hkeep g hg ⟨hip, -, hsame⟩
    obtain ⟨hg, hvisible⟩ := mem_globbed.mp hg
    cases Table.eq_of_key hf hg hsame
    exact hkeep hvisible hip

theorem mem_live_script {hostname : String} :
    p ∈ (jumpPeerScript hostname new ip j).live.rows ↔ p = ⟨new, some ip⟩ ∨
      p.publicKey ≠ new ∧
      ∃ q ∈ j.live.rows, p = (if q.allowedIP = some ip then q.withoutIP else q) ∧
        ∀ g ∈ j.fragments.rows, g.name ≠ "" → g.publicKey ≠ "" → g.publicKey = q.publicKey →
          g.allowedIP ≠ ip ∧ g.name ≠ sanitize hostname := by
  rw [jumpPeerScript]
  rw [mem_setPeer]
  refine or_congr_right (and_congr_right fun hkey => exists_congr fun q => ?_)
  rw [mem_live_foldl, and_assoc, and_congr_right_iff]
  intro hq
  rw [and_comm, and_congr_right_iff]
  intro hp
  have hsame : q.publicKey ≠ new := by
    intro hnew
    apply hkey
    rw [hp]
    split <;> exact hnew
  simp only [mem_globbed]
  grind

end

/-! ### Steps -/

/-- No two enrolled hosts have one key or one address. -/
structure Proper (t : Table Enrolled.hostname) : Prop where
  nonempty : ∀ e ∈ t.rows, e.key ≠ ""
  keys : ∀ e ∈ t.rows, ∀ e' ∈ t.rows, e.key = e'.key → e = e'
  ips : ∀ e ∈ t.rows, ∀ e' ∈ t.rows, e.ip = e'.ip → e = e'

section

variable {s s' : JumpState} {h : Enrolled} {hostname : String} {m : JumpMove}

theorem Proper.upsert {t : Table Enrolled.hostname} (ht : Proper t) (hkey : h.key ≠ "")
    (hd : Distinct t h) : Proper (t.upsert h) := by
  refine ⟨fun e he => ?_, fun e he e' he' heq => ?_, fun e he e' he' heq => ?_⟩
  · rcases Table.mem_upsert.mp he with ⟨hold, -⟩ | rfl
    · exact ht.nonempty e hold
    · exact hkey
  · rcases Table.mem_upsert.mp he with ⟨hold, hne⟩ | rfl <;> rcases Table.mem_upsert.mp he' with
      ⟨hold', hne'⟩ | rfl
    · exact ht.keys e hold e' hold' heq
    · exact absurd heq (hd e hold hne).1
    · exact absurd heq.symm (hd e' hold' hne').1
    · rfl
  · rcases Table.mem_upsert.mp he with ⟨hold, hne⟩ | rfl <;> rcases Table.mem_upsert.mp he' with
      ⟨hold', hne'⟩ | rfl
    · exact ht.ips e hold e' hold' heq
    · exact absurd heq (hd e hold hne).2
    · exact absurd heq.symm (hd e' hold' hne').2
    · rfl

theorem jumpStep_cases (hs : jumpStep s m = some s') :
    (∃ h, m = .enroll h ∧ h.key ≠ "" ∧ Distinct s.enrolled h ∧
      s' = ⟨jumpPeerScript h.hostname h.key h.ip s.jump, s.enrolled.upsert h⟩) ∨
    ∃ hostname, m = .cleanup hostname ∧
      s' = ⟨jumpPeerCleanupScript hostname s.jump,
        s.enrolled.delete fun e => decide (e.hostname = hostname)⟩ := by
  cases m with
  | enroll h =>
    simp only [jumpStep] at hs
    split at hs
    · next henabled => exact .inl ⟨h, rfl, henabled.1, henabled.2, (Option.some.inj hs).symm⟩
    · cases hs
  | cleanup hostname => exact .inr ⟨hostname, rfl, (Option.some.inj hs).symm⟩

theorem proper_step (hp : Proper s.enrolled) (hs : jumpStep s m = some s') :
    Proper s'.enrolled := by
  rcases jumpStep_cases hs with ⟨h, -, hkey, hd, rfl⟩ | ⟨hostname, -, rfl⟩
  · exact hp.upsert hkey hd
  have hsub : ∀ {e}, e ∈ (s.enrolled.delete fun e => decide (e.hostname = hostname)).rows →
      e ∈ s.enrolled.rows :=
    fun he => (Table.mem_delete.mp he).1
  exact ⟨fun e he => hp.nonempty e (hsub he), fun e he e' he' => hp.keys e (hsub he) e' (hsub he'),
    fun e he e' he' => hp.ips e (hsub he) e' (hsub he')⟩

theorem mirrors_enroll (hp : Proper s.enrolled) (hm : Mirrors s) (hd : Distinct s.enrolled h)
    (hfree : ∀ e ∈ s.enrolled.rows, e.hostname ≠ h.hostname →
      sanitize e.hostname ≠ sanitize h.hostname)
    (hseen : ∀ e ∈ s.enrolled.rows, e.hostname = h.hostname → e.key ≠ h.key →
      sanitize h.hostname ≠ "") :
    Mirrors ⟨jumpPeerScript h.hostname h.key h.ip s.jump, s.enrolled.upsert h⟩ := by
  constructor
  · intro f
    rw [mem_fragments_script]
    constructor
    · rintro (rfl | ⟨hname, hf, -⟩)
      · exact ⟨h, Table.mem_upsert.mpr (.inr rfl), rfl⟩
      · obtain ⟨e, he, rfl⟩ := (hm.fragments f).mp hf
        exact ⟨e, Table.mem_upsert.mpr (.inl ⟨he, fun heq => hname (congrArg sanitize heq)⟩), rfl⟩
    · rintro ⟨e, he, rfl⟩
      rcases Table.mem_upsert.mp he with ⟨hold, hne⟩ | rfl
      · exact .inr ⟨hfree e hold hne, (hm.fragments _).mpr ⟨e, hold, rfl⟩,
          fun _ => (hd e hold hne).2⟩
      · exact .inl rfl
  · intro p
    rw [mem_live_script]
    constructor
    · rintro (rfl | ⟨hkey, q, hq, hpq, hkept⟩)
      · exact ⟨h, Table.mem_upsert.mpr (.inr rfl), rfl⟩
      obtain ⟨e, he, rfl⟩ := (hm.live q).mp hq
      have hne : e.hostname ≠ h.hostname := by
        intro heq
        have hother : e.key ≠ h.key := by
          rw [hpq] at hkey
          split at hkey <;> exact hkey
        -- the fragment of the host is seen, and its peer is retired
        have hname : e.fragment.name = sanitize h.hostname := congrArg sanitize heq
        have hfragment := hkept e.fragment ((hm.fragments _).mpr ⟨e, he, rfl⟩)
          (by rw [hname]; exact hseen e he heq hother) (hp.nonempty e he) rfl
        exact hfragment.2 hname
      have hip : e.peer.allowedIP ≠ some h.ip := fun heq => (hd e he hne).2 (Option.some.inj heq)
      rw [if_neg hip] at hpq
      exact ⟨e, Table.mem_upsert.mpr (.inl ⟨he, hne⟩), hpq⟩
    · rintro ⟨e, he, rfl⟩
      rcases Table.mem_upsert.mp he with ⟨hold, hne⟩ | rfl
      · obtain ⟨hkey, hip⟩ := hd e hold hne
        have hpeer : e.peer.allowedIP ≠ some h.ip := fun heq => hip (Option.some.inj heq)
        refine .inr ⟨hkey, e.peer, (hm.live _).mpr ⟨e, hold, rfl⟩, (if_neg hpeer).symm,
          fun g hg _ _ hgkey => ?_⟩
        obtain ⟨e', he', rfl⟩ := (hm.fragments g).mp hg
        cases hp.keys e' he' e hold hgkey
        exact ⟨hip, hfree e hold hne⟩
      · exact .inl rfl

theorem not_mirrors_enroll (hp : Proper s.enrolled) (hm : Mirrors s) (hkey : h.key ≠ "")
    (hd : Distinct s.enrolled h) {e : Enrolled} (he : e ∈ s.enrolled.rows)
    (hbad : (e.hostname ≠ h.hostname ∧ sanitize e.hostname = sanitize h.hostname) ∨
      (e.hostname = h.hostname ∧ sanitize h.hostname = "" ∧ e.key ≠ h.key)) :
    ¬ Mirrors ⟨jumpPeerScript h.hostname h.key h.ip s.jump, s.enrolled.upsert h⟩ := by
  intro hm'
  have hself : h ∈ (s.enrolled.upsert h).rows := Table.mem_upsert.mpr (.inr rfl)
  rcases hbad with ⟨hne, hsame⟩ | ⟨heq, hempty, hother⟩
  · -- one file cannot hold two fragments
    have hmem : e ∈ (s.enrolled.upsert h).rows := Table.mem_upsert.mpr (.inl ⟨he, hne⟩)
    have hfragment : e.fragment = h.fragment :=
      Table.eq_of_key ((hm'.fragments _).mpr ⟨e, hmem, rfl⟩)
        ((hm'.fragments _).mpr ⟨h, hself, rfl⟩) hsame
    exact (hd e he hne).1 (congrArg Fragment.publicKey hfragment)
  · -- the old key stays, as no fragment that is seen has it
    obtain ⟨p, hpkey, hpmem⟩ : ∃ p : Peer, p.publicKey = e.key ∧
        p ∈ (jumpPeerScript h.hostname h.key h.ip s.jump).live.rows := by
      refine ⟨if e.peer.allowedIP = some h.ip then e.peer.withoutIP else e.peer,
        by split <;> rfl, ?_⟩
      refine mem_live_script.mpr
        (.inr ⟨by split <;> exact hother, e.peer, (hm.live _).mpr ⟨e, he, rfl⟩, rfl, ?_⟩)
      intro g hg hseen _ hgkey
      obtain ⟨e', he', rfl⟩ := (hm.fragments g).mp hg
      cases hp.keys e' he' e he hgkey
      exact absurd ((congrArg sanitize heq).trans hempty) hseen
    obtain ⟨e', he', rfl⟩ := (hm'.live p).mp hpmem
    rcases Table.mem_upsert.mp he' with ⟨hold, hne⟩ | rfl
    · cases hp.keys e' hold e he hpkey
      exact hne heq
    · exact hother hpkey.symm

theorem cleanup_cases (hm : Mirrors s) (hostname : String) :
    (∃ e ∈ s.enrolled.rows, sanitize e.hostname = sanitize hostname ∧
      (∀ f, f ∈ (jumpPeerCleanupScript hostname s.jump).fragments.rows ↔
        f ∈ s.jump.fragments.rows ∧ f.name ≠ sanitize hostname) ∧
      ∀ p, e.key ≠ "" → (p ∈ (jumpPeerCleanupScript hostname s.jump).live.rows ↔
        p ∈ s.jump.live.rows ∧ p.publicKey ≠ e.key)) ∨
    (∀ e ∈ s.enrolled.rows, sanitize e.hostname ≠ sanitize hostname) ∧
      jumpPeerCleanupScript hostname s.jump = s.jump := by
  unfold jumpPeerCleanupScript
  cases hlookup : s.jump.fragments.lookup (sanitize hostname) with
  | none =>
    refine .inr ⟨fun e he heq => ?_, rfl⟩
    exact Table.lookup_eq_none.mp hlookup e.fragment ((hm.fragments _).mpr ⟨e, he, rfl⟩) heq
  | some f =>
    obtain ⟨hf, hname⟩ := Table.lookup_eq_some.mp hlookup
    obtain ⟨e, he, rfl⟩ := (hm.fragments f).mp hf
    refine .inl ⟨e, he, hname, fun g => ?_, fun p hkey => ?_⟩
    · rw [Table.mem_delete, hname, decide_eq_false_iff_not]
    · have hkey' : e.fragment.publicKey ≠ "" := hkey
      dsimp only
      rw [if_pos hkey', removePeer, Table.mem_delete, decide_eq_false_iff_not]
      rfl

theorem mirrors_cleanup (hp : Proper s.enrolled) (hm : Mirrors s)
    (hfree : ∀ e ∈ s.enrolled.rows, sanitize e.hostname = sanitize hostname →
      e.hostname = hostname) :
    Mirrors ⟨jumpPeerCleanupScript hostname s.jump,
      s.enrolled.delete fun e => decide (e.hostname = hostname)⟩ := by
  have hleft : ∀ {e}, e ∈ (s.enrolled.delete fun e => decide (e.hostname = hostname)).rows ↔
      e ∈ s.enrolled.rows ∧ e.hostname ≠ hostname := by
    intro e
    rw [Table.mem_delete, decide_eq_false_iff_not]
  rcases cleanup_cases hm hostname with ⟨e₀, he₀, hname, hfragments, hlive⟩ | ⟨hnone, hsame⟩
  · have hhost : e₀.hostname = hostname := hfree e₀ he₀ hname
    constructor
    · intro f
      rw [hfragments, hm.fragments]
      constructor
      · rintro ⟨⟨e, he, rfl⟩, hne⟩
        exact ⟨e, hleft.mpr ⟨he, fun heq => hne (congrArg sanitize heq)⟩, rfl⟩
      · rintro ⟨e, he, rfl⟩
        obtain ⟨hold, hne⟩ := hleft.mp he
        exact ⟨⟨e, hold, rfl⟩, fun heq => hne (hfree e hold heq)⟩
    · intro p
      rw [hlive p (hp.nonempty e₀ he₀), hm.live]
      constructor
      · rintro ⟨⟨e, he, rfl⟩, hne⟩
        refine ⟨e, hleft.mpr ⟨he, fun heq => hne ?_⟩, rfl⟩
        cases Table.eq_of_key he he₀ (heq.trans hhost.symm)
        rfl
      · rintro ⟨e, he, rfl⟩
        obtain ⟨hold, hne⟩ := hleft.mp he
        refine ⟨⟨e, hold, rfl⟩, fun heq => hne ?_⟩
        cases hp.keys e hold e₀ he₀ heq
        exact hhost
  · -- the host is not enrolled, and no fragment is its
    have hall : ∀ {e}, e ∈ s.enrolled.rows → e.hostname ≠ hostname :=
      fun he heq => hnone _ he (congrArg sanitize heq)
    have hrows : ∀ {e}, e ∈ (s.enrolled.delete fun e => decide (e.hostname = hostname)).rows ↔
        e ∈ s.enrolled.rows :=
      hleft.trans (and_iff_left_of_imp hall)
    rw [hsame]
    exact ⟨fun f => by simp only [hrows, hm.fragments], fun p => by simp only [hrows, hm.live]⟩

theorem not_mirrors_cleanup (hm : Mirrors s) {e : Enrolled} (he : e ∈ s.enrolled.rows)
    (hne : e.hostname ≠ hostname) (hsame : sanitize e.hostname = sanitize hostname) :
    ¬ Mirrors ⟨jumpPeerCleanupScript hostname s.jump,
      s.enrolled.delete fun e => decide (e.hostname = hostname)⟩ := by
  intro hm'
  have hmem : e ∈ (s.enrolled.delete fun e => decide (e.hostname = hostname)).rows :=
    Table.mem_delete.mpr ⟨he, decide_eq_false hne⟩
  have hfragment := (hm'.fragments _).mpr ⟨e, hmem, rfl⟩
  rcases cleanup_cases hm hostname with ⟨-, -, -, hfragments, -⟩ | ⟨hnone, -⟩
  · exact ((hfragments _).mp hfragment).2 hsame
  · exact hnone e he hsame

theorem not_collides_iff (hp : Proper s.enrolled) (hm : Mirrors s) :
    ¬ Collides s m ↔ ∀ s', jumpStep s m = some s' → Mirrors s' := by
  cases m with
  | enroll h =>
    constructor
    · intro hno s' hs
      obtain ⟨_, hm', hkey, hd, rfl⟩ | ⟨_, hm', -⟩ := jumpStep_cases hs
      · cases hm'
        refine mirrors_enroll hp hm hd (fun e he hne hsame => ?_) fun e he heq hother hempty => ?_
        · exact hno ⟨hkey, hd, e, he, .inl ⟨hne, hsame⟩⟩
        · exact hno ⟨hkey, hd, e, he, .inr ⟨heq, hempty, hother⟩⟩
      · cases hm'
    · rintro hall ⟨hkey, hd, e, he, hbad⟩
      exact not_mirrors_enroll hp hm hkey hd he hbad (hall _ (if_pos ⟨hkey, hd⟩))
  | cleanup hostname =>
    constructor
    · intro hno s' hs
      cases hs
      refine mirrors_cleanup hp hm fun e he hsame => ?_
      by_contra hne
      exact hno ⟨e, he, hne, hsame⟩
    · rintro hall ⟨e, he, hne, hsame⟩
      exact not_mirrors_cleanup hm he hne hsame (hall _ rfl)

end

/-- **Every enrolled host keeps its own peer** exactly in the runs in which no script is run for a
host while another enrolled host has the same name of a fragment, and the host with the empty name
keeps its key. -/
theorem peers_mirrored_iff (ms : List JumpMove) :
    Throughout jumpStep Mirrors jumpStart ms ↔
    Guarded jumpStep (fun s m => ¬ Collides s m) jumpStart ms := by
  have hproper : Proper jumpStart.enrolled := ⟨nofun, nofun, nofun⟩
  have hmirrors : Mirrors jumpStart := by
    constructor <;> simp [jumpStart, Table.empty]
  exact throughout_iff_guarded (fun hp hs => proper_step hp hs)
    (fun hp hm => not_collides_iff hp hm) hproper hmirrors

/-- Enrolling `a_b` takes the fragment of `a.b` and its live peer. -/
theorem peers_not_mirrored :
    ∃ s, exec jumpStep jumpStart [.enroll ⟨"a.b", "K1", "10.100.0.2"⟩,
      .enroll ⟨"a_b", "K2", "10.100.0.3"⟩] = some s ∧
      s.jump.fragments.rows = [⟨"a_b", "K2", "10.100.0.3"⟩] ∧
      s.jump.live.rows = [⟨"K2", some "10.100.0.3"⟩] ∧
      (⟨"a.b", "K1", "10.100.0.2"⟩ : Enrolled) ∈ s.enrolled.rows ∧ ¬ Mirrors s := by
  refine ⟨_, rfl, rfl, rfl, by decide, fun hm => ?_⟩
  have hlost :=
    (hm.live ⟨"K1", some "10.100.0.2"⟩).mpr ⟨⟨"a.b", "K1", "10.100.0.2"⟩, by decide, rfl⟩
  exact absurd hlost (by decide)

end Moorgate.Enrollment
