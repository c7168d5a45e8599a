import Moorgate.Framework.Base.Text

/-!
# Where signing in leads: `auth/saml.go`

`samlRelay` passes on what begins with one slash and not with two. A browser reads the value
otherwise: it leaves out tabs and line ends, and takes a backslash for a slash. What begins with two
slashes only then names another host.
-/

namespace Moorgate.Auth

open Framework

def samlRelay (s : String) : String :=
  let s := trimSpace s
  if s = "" ∨ ¬ ['/'] <+: s.toList ∨ ['/', '/'] <+: s.toList then "/" else s

/-- Where the form value `RelayState` comes from: the provider sets one itself, or hands back what
`samlLogin` gave it. -/
inductive RelaySource where
  | relayState (s : String)
  | returnTo (s : String)

def RelaySource.formValue : RelaySource → String
  | .relayState s => s
  | .returnTo s => samlRelay s

/-- What the HTTP layer writes for a character of a header value. -/
structure HeaderWriter where
  write : Char → List Char
  keeps : ∀ c, c ≠ '\r' → c ≠ '\n' → write c = [c]

/-- The redirect at the end of `samlACS`. That `http.Redirect` cleans the path is left out. -/
def samlLocation (H : HeaderWriter) (q : RelaySource) : List Char :=
  (samlRelay q.formValue).toList.flatMap H.write

/-! ## The browser -/

def kept (c : Char) : Bool := c != '\t' && c != '\r' && c != '\n'

def slashed (c : Char) : Char := if c = '\\' then '/' else c

/-- The reference that the browser resolves. -/
def readByBrowser (location : List Char) : List Char := (location.filter kept).map slashed

/-- A reference with one slash in front is a path of the site. Control characters at the ends, which
the browser leaves out as well, tell nothing about its slashes. -/
def OnSite (location : List Char) : Prop :=
  (readByBrowser location)[0]? = some '/' ∧ (readByBrowser location)[1]? ≠ some '/'

instance (location : List Char) : Decidable (OnSite location) := inferInstanceAs (Decidable (_ ∧ _))

/-- After the one slash that `samlRelay` has seen, the browser sees another one. -/
def SecondSlash (H : HeaderWriter) (value : String) : Prop :=
  ∃ rest, (trimSpace value).toList = '/' :: rest ∧ rest.head? ≠ some '/' ∧
    ((rest.flatMap H.write).find? kept).map slashed = some '/'

theorem onSite_slash_iff (rest : List Char) :
    OnSite ('/' :: rest) ↔ (rest.find? kept).map slashed ≠ some '/' := by
  have hread : readByBrowser ('/' :: rest) = '/' :: readByBrowser rest := rfl
  have hsecond : (readByBrowser rest)[0]? = (rest.find? kept).map slashed := by
    rw [readByBrowser, List.getElem?_map, ← List.head?_eq_getElem?, List.head?_filter]
  unfold OnSite
  rw [hread, List.getElem?_cons_succ, hsecond]
  exact and_iff_right rfl

variable {H : HeaderWriter}

theorem onSite_slash : OnSite ("/".toList.flatMap H.write) := by
  rw [show "/".toList.flatMap H.write = ['/'] by simp [H.keeps]]
  decide

/-- **Signing in leads to the site** exactly if behind the first slash of the value the browser does
not find a second one. -/
theorem sign_in_on_site_iff (H : HeaderWriter) (q : RelaySource) :
    OnSite (samlLocation H q) ↔ ¬ SecondSlash H q.formValue := by
  unfold samlLocation samlRelay SecondSlash
  generalize trimSpace q.formValue = s
  dsimp only
  split
  · -- the site's start page
    rename_i hrefused
    refine iff_of_true onSite_slash ?_
    rintro ⟨rest, hs, hone, -⟩
    rcases hrefused with rfl | hfirst | ⟨l, htwo⟩
    · cases hs
    · exact hfirst ⟨rest, hs.symm⟩
    · rw [hs] at htwo
      exact hone (by rw [← (List.cons.inj htwo).2]; rfl)
  · rename_i hpassed
    simp only [not_or, not_not] at hpassed
    obtain ⟨-, ⟨rest, hs⟩, hone⟩ := hpassed
    rw [← hs, List.singleton_append, List.flatMap_cons, H.keeps '/' (by decide) (by decide),
      List.singleton_append, onSite_slash_iff]
    refine not_congr ⟨fun hslash => ⟨rest, rfl, fun hhead => ?_, hslash⟩, ?_⟩
    · obtain ⟨l, rfl⟩ := List.head?_eq_some_iff.mp hhead
      exact hone ⟨l, hs⟩
    · rintro ⟨l, hl, -, hslash⟩
      rwa [(List.cons.inj hl).2]

def blankNewlines : HeaderWriter where
  write c := if c = '\r' ∨ c = '\n' then [' '] else [c]
  keeps _ hr hn := if_neg (not_or.mpr ⟨hr, hn⟩)

/-- A backslash, or a tab, before the name of another host. -/
theorem sign_in_leads_off :
    ¬ OnSite (samlLocation blankNewlines (.relayState "/\\evil.example")) ∧
    ¬ OnSite (samlLocation blankNewlines (.returnTo "/\\evil.example")) ∧
    ¬ OnSite (samlLocation blankNewlines (.relayState "/\t/evil.example")) := by decide +kernel

end Moorgate.Auth
