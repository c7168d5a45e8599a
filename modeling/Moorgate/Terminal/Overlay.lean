import Mathlib.Data.List.Basic

/-!
# Strict overlay mode: `store/settings.go`, `terminal/terminal.go`, `sftp/handlers.go`,
`rdp/handlers.go`

The handlers for terminals, files and desktops dial the addresses of a host in turn, the overlay
address first; where the setting `requireOverlay` is true they shall dial no other.
`RequireOverlay` takes a read that fails for `false`, and the handler for desktops looks at the
overlay address of enrolled hosts only. `dials_only_overlay_iff` says when neither matters.
-/

namespace Moorgate.Terminal

/-! ## The setting -/

/-- A member of a JSON object; `other` is what does not decode as a `bool`. -/
inductive JsonMember where
  | null
  | bool (b : Bool)
  | other
deriving DecidableEq

/-- The value of the settings row `wireguard`. -/
inductive SettingValue where
  | null
  | object (members : List (String × JsonMember))
  | other

/-- What `json.Unmarshal` has decoded so far, and whether it has met a value of a wrong
type. -/
structure Decoded where
  (requireOverlay wrongType : Bool)

/-- A member is decoded if its name is that of the field but for case. The last one counts. -/
def decodeMember (v : Decoded) (m : String × JsonMember) : Decoded :=
  if m.1.toLower = "requireoverlay" then
    match m.2 with
    | .null => v
    | .bool b => { v with requireOverlay := b }
    | .other => { v with wrongType := true }
  else v

def unmarshalRequireOverlay : SettingValue → Option Bool
  | .null => some false
  | .object members =>
    let v := members.foldl decodeMember ⟨false, false⟩
    if v.wrongType then none else some v.requireOverlay
  | .other => none

def requireOverlay : Option SettingValue → Bool
  | none => false
  | some raw => (unmarshalRequireOverlay raw).getD false

def SettingValue.Strict : SettingValue → Prop
  | .object members => ("requireOverlay", .bool true) ∈ members
  | _ => False

/-! ## The addresses -/

/-- The columns of a host that the handlers choose an address by. -/
structure HostAddresses where
  (hostname address wgAddress : String)
  enrolled : Bool

def dedupe (l : List String) : List String :=
  l.foldl (fun out v => if v = "" ∨ v ∈ out then out else out ++ [v]) []

def terminalCandidates (h : HostAddresses) (strictWG : Bool) : List String :=
  if strictWG ∧ h.wgAddress ≠ "" then [h.wgAddress] else dedupe [h.wgAddress, h.address, h.hostname]

def sftpCandidates (h : HostAddresses) (strictWG : Bool) : List String :=
  if h.wgAddress ≠ "" ∧ strictWG then [h.wgAddress] else dedupe [h.wgAddress, h.address, h.hostname]

def rdpCandidates (h : HostAddresses) (strictWG : Bool) : List String :=
  let others := [h.address, h.hostname].filter (· ≠ "")
  if h.enrolled ∧ h.wgAddress ≠ "" then
    if strictWG then [h.wgAddress] else dedupe (h.wgAddress :: others)
  else dedupe others

/-- The addresses that the loop of a handler dials, and the one it has connected to. -/
def dialEach (reach : String → Bool) : List String → List String × Option String
  | [] => ([], none)
  | addr :: rest =>
    if reach addr then ([addr], some addr)
    else (addr :: (dialEach reach rest).1, (dialEach reach rest).2)

inductive Surface where
  | terminal | sftp | rdp
deriving DecidableEq

def Surface.candidates : Surface → HostAddresses → Bool → List String
  | .terminal => terminalCandidates
  | .sftp => sftpCandidates
  | .rdp => rdpCandidates

/-- What a handler meets: whether the setting can be read, whether it gets the credential
of the host, and which addresses answer. -/
structure DialInput where
  (readable credential : Bool)
  reach : String → Bool

/-- The addresses that a handler dials for a host, with the setting as it is stored. -/
def dialed (surface : Surface) (h : HostAddresses) (stored : SettingValue) (i : DialInput) :
    List String :=
  let strictWG := requireOverlay (if i.readable then some stored else none)
  if i.credential then (dialEach i.reach (surface.candidates h strictWG)).1 else []

/-! ## Which addresses are dialled -/

theorem foldl_dedupe (l out : List String) :
    ∃ rest, l.foldl (fun out v => if v = "" ∨ v ∈ out then out else out ++ [v]) out = out ++ rest ∧
      (∀ a, a ∈ out ++ rest ↔ a ∈ out ∨ (a ∈ l ∧ a ≠ "")) ∧
      (out = [] → rest.head? = l.find? (· ≠ "")) := by
  induction l generalizing out with
  | nil => exact ⟨[], by simp, by simp, fun _ => rfl⟩
  | cons v l ih =>
    rw [List.foldl_cons]
    by_cases hskip : v = "" ∨ v ∈ out
    · rw [if_pos hskip]
      obtain ⟨rest, heq, hmem, hhead⟩ := ih out
      refine ⟨rest, heq, fun a => ?_, fun hout => ?_⟩
      · grind
      · rcases hskip with rfl | hv
        · exact hhead hout
        · rw [hout] at hv
          cases hv
    · rw [if_neg hskip]
      obtain ⟨hne, -⟩ := not_or.mp hskip
      obtain ⟨rest, heq, hmem, -⟩ := ih (out ++ [v])
      refine ⟨v :: rest,
        by rw [heq, List.append_assoc, List.singleton_append], fun a => ?_, fun _ => ?_⟩
      · grind
      · simp [hne]

variable {l : List String}

theorem mem_dedupe {a : String} : a ∈ dedupe l ↔ a ∈ l ∧ a ≠ "" := by
  obtain ⟨rest, heq, hmem, -⟩ := foldl_dedupe l []
  unfold dedupe
  rw [heq, hmem]
  simp

theorem head?_dedupe (l : List String) : (dedupe l).head? = l.find? (· ≠ "") := by
  obtain ⟨rest, heq, -, hhead⟩ := foldl_dedupe l []
  unfold dedupe
  rw [heq]
  exact hhead rfl

theorem dedupe_only_iff {w : String} : (∀ a ∈ dedupe l, a = w) ↔ ∀ a ∈ l, a = "" ∨ a = w := by
  constructor
  · intro hall a ha
    by_cases hempty : a = ""
    · exact .inl hempty
    · exact .inr (hall a (mem_dedupe.mpr ⟨ha, hempty⟩))
  · intro hall a ha
    obtain ⟨hmem, hne⟩ := mem_dedupe.mp ha
    exact (hall a hmem).resolve_left hne

theorem dedupe_filter (l : List String) : dedupe (l.filter (· ≠ "")) = dedupe l := by
  unfold dedupe
  rw [List.foldl_filter]
  congr 1
  funext out v
  by_cases hempty : v = ""
  · simp [hempty]
  · simp [hempty]

/-- One address only is dialled if it is the only candidate, or the first one and answers. -/
theorem dialEach_only_iff {reach : String → Bool} {w : String} :
    (∀ a ∈ (dialEach reach l).1, a = w) ↔ (∀ a ∈ l, a = w) ∨ (l.head? = some w ∧ reach w) := by
  induction l with
  | nil => simp [dialEach]
  | cons v l ih =>
    by_cases hv : reach v
    · simp only [dialEach, if_pos hv, List.forall_mem_singleton, List.forall_mem_cons,
        List.head?_cons, Option.some.injEq]
      grind
    · simp only [dialEach, if_neg hv, List.forall_mem_cons, List.head?_cons, ih]
      grind

section

variable {surface : Surface} {h : HostAddresses} {strictWG : Bool}

/-- The other addresses are empty or the overlay address as well. -/
def HostAddresses.OnlyOverlay (h : HostAddresses) : Prop :=
  ∀ a ∈ [h.address, h.hostname], a = "" ∨ a = h.wgAddress

/-- The handler begins with the overlay address: always, but for desktops of hosts that are
not enrolled, whose first other address has to be the same. -/
def PrefersOverlay (surface : Surface) (h : HostAddresses) : Prop :=
  surface = .rdp → h.enrolled ∨ h.address = h.wgAddress ∨
    (h.address = "" ∧ h.hostname = h.wgAddress)

/-- The handler sees that it may dial the overlay address only. -/
def SeesStrict (surface : Surface) (h : HostAddresses) (strictWG : Bool) : Prop :=
  strictWG ∧ (surface = .rdp → h.enrolled)

instance : Decidable (SeesStrict surface h strictWG) := inferInstanceAs (Decidable (_ ∧ _))

theorem candidates_of_seesStrict (hwg : h.wgAddress ≠ "") (hs : SeesStrict surface h strictWG) :
    surface.candidates h strictWG = [h.wgAddress] := by
  obtain ⟨rfl, henrolled⟩ := hs
  cases surface with
  | terminal => exact if_pos ⟨rfl, hwg⟩
  | sftp => exact if_pos ⟨hwg, rfl⟩
  | rdp => exact if_pos ⟨henrolled rfl, hwg⟩

theorem candidates_of_not_seesStrict (hwg : h.wgAddress ≠ "")
    (hs : ¬ SeesStrict surface h strictWG) :
    (surface.candidates h strictWG = dedupe [h.wgAddress, h.address, h.hostname] ∧
        (surface = .rdp → h.enrolled)) ∨
      (surface = .rdp ∧ h.enrolled = false ∧ surface.candidates h strictWG = dedupe [h.address,
        h.hostname]) := by
  cases surface with
  | terminal => exact .inl ⟨if_neg fun hc => hs ⟨hc.1, nofun⟩, nofun⟩
  | sftp => exact .inl ⟨if_neg fun hc => hs ⟨hc.2, nofun⟩, nofun⟩
  | rdp =>
    by_cases henrolled : h.enrolled
    · left
      have hlax : strictWG ≠ true := fun hstrict => hs ⟨hstrict, fun _ => henrolled⟩
      refine ⟨?_, fun _ => henrolled⟩
      rw [← dedupe_filter, List.filter_cons_of_pos (by simpa using hwg)]
      simp only [Surface.candidates, rdpCandidates, henrolled, hwg, ne_eq, not_false_eq_true,
        and_self, if_true]
      exact if_neg hlax
    · right
      rw [Bool.not_eq_true] at henrolled
      refine ⟨rfl, henrolled, ?_⟩
      rw [← dedupe_filter]
      simp only [Surface.candidates, rdpCandidates, henrolled, Bool.false_eq_true, false_and,
        if_false]

theorem candidates_only_iff (hwg : h.wgAddress ≠ "") (hs : ¬ SeesStrict surface h strictWG) :
    (∀ a ∈ surface.candidates h strictWG, a = h.wgAddress) ↔ h.OnlyOverlay := by
  rcases candidates_of_not_seesStrict hwg hs with ⟨heq, -⟩ | ⟨-, -, heq⟩
  · rw [heq, dedupe_only_iff, List.forall_mem_cons]
    exact and_iff_right (.inr rfl)
  · rw [heq, dedupe_only_iff]
    rfl

theorem candidates_head?_iff (hwg : h.wgAddress ≠ "") (hs : ¬ SeesStrict surface h strictWG) :
    (surface.candidates h strictWG).head? = some h.wgAddress ↔ PrefersOverlay surface h := by
  rcases candidates_of_not_seesStrict hwg hs with ⟨heq, henrolled⟩ | ⟨rfl, henrolled, heq⟩
  · rw [heq, head?_dedupe, List.find?_cons_of_pos (by simpa using hwg)]
    exact iff_of_true rfl fun hrdp => .inl (henrolled hrdp)
  · rw [heq, head?_dedupe]
    unfold PrefersOverlay
    by_cases hempty : h.address = ""
    · grind
    · grind

end

/-- Exactly when a handler dials no address of a host but the overlay address: it gets no
credential and dials nothing; or it sees that it may not; or it has no other address; or
it begins with the overlay address, which answers. -/
theorem dials_only_overlay_iff (surface : Surface) (h : HostAddresses) (stored : SettingValue)
    (i : DialInput) (hwg : h.wgAddress ≠ "") :
    (∀ a ∈ dialed surface h stored i, a = h.wgAddress) ↔ i.credential = false ∨
        SeesStrict surface h (requireOverlay (if i.readable then some stored else none)) ∨
        h.OnlyOverlay ∨ (PrefersOverlay surface h ∧ i.reach h.wgAddress) := by
  unfold dialed
  generalize requireOverlay (if i.readable then some stored else none) = strictWG
  by_cases hcred : i.credential
  · rw [if_pos hcred, dialEach_only_iff]
    by_cases hs : SeesStrict surface h strictWG
    · rw [candidates_of_seesStrict hwg hs]
      simp [hs]
    · rw [candidates_only_iff hwg hs, candidates_head?_iff hwg hs]
      simp [hcred, hs]
  · simp [hcred]

/-- Reachable at a direct address only, and with an overlay address. -/
def overlayHost (enrolled : Bool) : HostAddresses := ⟨"db-7", "192.168.4.7", "10.77.0.7", enrolled⟩

def strictSetting : SettingValue := .object [("jumpHost", .other), ("requireOverlay", .bool true)]

def tunnelDown (readable : Bool) : DialInput := ⟨readable, true, (· = "192.168.4.7")⟩

/-- Enrolled, and with a setting that can be read, the host is not reached. -/
theorem dials_only_overlay_down :
    dialed .rdp (overlayHost true) strictSetting (tunnelDown true) = ["10.77.0.7"] ∧
      ∀ a ∈ dialed .rdp (overlayHost true) strictSetting (tunnelDown true),
        a = (overlayHost true).wgAddress :=
  ⟨by decide +kernel,
    (dials_only_overlay_iff .rdp (overlayHost true) strictSetting (tunnelDown true)
    (by decide)).mpr (.inr (.inl (by decide +kernel)))⟩

/-- Where the setting cannot be read, every handler goes on to the direct address of an
enrolled host; and where it can, a desktop of a host that is not enrolled is dialled at
its direct address at once. -/
theorem direct_address_dialed : strictSetting.Strict ∧
      (∀ surface, dialed surface (overlayHost true) strictSetting (tunnelDown false) = ["10.77.0.7",
        "192.168.4.7"]) ∧
      dialed .rdp (overlayHost false) strictSetting (tunnelDown true) = ["192.168.4.7"] := by
  refine ⟨List.mem_cons_of_mem _ (List.mem_singleton_self _), ?_, by decide +kernel⟩
  rintro (_ | _ | _) <;> decide +kernel

end Moorgate.Terminal
