import LifeEngine.Support.Text
import Mathlib.Data.List.DropRight

/-!
# Hosts of URLs

The host component of a URL in the generic syntax of URIs.  The authority
follows the scheme and `://` and ends at `/`, `?`, `#` or with the text; before the
last `@` stands user information; the host is an address in brackets, or what stands
before the port.
-/

namespace LifeEngine.Support

namespace Uri

/-- The authority of a URL, if it has one. -/
def authority (url : List Char) : Option (List Char) :=
  match url.dropWhile (fun c => c ≠ ':') with
  | ':' :: '/' :: '/' :: rest => some (rest.takeWhile fun c => c ∉ ['/', '?', '#'])
  | _ => none

def authorityHost (authority : List Char) : List Char :=
  let hostPort := authority.rtakeWhile (fun c => c ≠ '@')
  if hostPort.head? = some '[' then
    if ']' ∈ hostPort then hostPort.takeWhile (fun c => c ≠ ']') ++ [']'] else hostPort
  else hostPort.takeWhile (fun c => c ≠ ':')

/-- The host of a URL, if it has one. -/
def host (url : List Char) : Option (List Char) :=
  (authority url).map authorityHost

/-- Hosts are read without regard to case. -/
def SameHost (a b : List Char) : Prop :=
  a.map Char.toLower = b.map Char.toLower

instance (a b : List Char) : Decidable (SameHost a b) :=
  inferInstanceAs (Decidable (a.map Char.toLower = b.map Char.toLower))

/-- The host is followed by a path, a port or the end. -/
def HostLeads (url : List Char) : Prop :=
  ∃ scheme lead rest h, url = scheme ++ "://".toList ++ (lead ++ rest) ∧ ':' ∉ scheme ∧
    (∀ c ∈ lead, c ≠ '/' ∧ c ≠ ':') ∧ (∀ c ∈ rest.head?, c = '/' ∨ c = ':') ∧
    host url = some h ∧ SameHost lead h

theorem authority_eq_none {url : List Char} (hurl : ':' ∉ url) : authority url = none := by
  have hdrop : url.dropWhile (fun c => c ≠ ':') = [] := by
    rw [List.dropWhile_eq_nil_iff]
    intro c hc
    have hne : c ≠ ':' := fun he => hurl (he ▸ hc)
    simpa using hne
  rw [authority, hdrop]

end Uri

end LifeEngine.Support
