import Mathlib.Data.List.DropRight

/-!
# Urls of the message broker

`URL::parse` and `operator<<` of `url.hpp`. A string is a list of characters.
-/

namespace Urb

structure URL where
  servers : List Char
  credentials : List Char := []
  path : List Char
  ha : Bool
  deriving DecidableEq, Repr

namespace URL

/-- `strings::trim` -/
def trim (s : List Char) : List Char :=
  (s.dropWhile (· ∈ [' ', '\t', '\n', '\r'])).rdropWhile (· ∈ [' ', '\t', '\n', '\r'])

/-- `s.substr(0, index)` for `index = s.find_last_of(c)` -/
def beforeLast (c : Char) (s : List Char) : List Char := (s.rdropWhile (· ≠ c)).dropLast

/-- `s.substr(index + 1)` for `index = s.find_last_of(c)` -/
def afterLast (c : Char) (s : List Char) : List Char := s.rtakeWhile (· ≠ c)

theorem beforeLast_append {c : Char} {s : List Char} (h : c ∈ s) :
    beforeLast c s ++ c :: afterLast c s = s := by
  induction s using List.reverseRecOn with
  | nil => cases h
  | append_singleton s x ih =>
    unfold beforeLast afterLast at ih ⊢
    by_cases hx : x = c
    · simp [hx]
    · have hc : c ∈ s := by simpa [Ne.symm hx] using h
      have ih := ih hc
      simp only [List.rdropWhile_concat, List.rtakeWhile_concat, ne_eq, hx, not_false_eq_true,
        decide_true, if_true]
      rw [← List.cons_append, ← List.append_assoc, ih]

/-- The loop that moves everything from the first `/` on to the path. -/
def peelPath (s path : List Char) : List Char × List Char :=
  if h : '/' ∈ s then peelPath (beforeLast '/' s) ('/' :: afterLast '/' s ++ path) else (s, path)
termination_by s.length
decreasing_by
  have hlength := congrArg List.length (beforeLast_append h)
  simp only [List.length_append, List.length_cons] at hlength
  omega

/-- Look for the trailing `@`, where the servers start. -/
def splitServers (ha : Bool) (path s : List Char) : URL :=
  if '@' ∈ s then { credentials := beforeLast '@' s, servers := afterLast '@' s, path, ha }
  else { servers := s, path, ha }

/-- The end of `parse`, after the prefixes. -/
def split (ha : Bool) (s : List Char) : URL :=
  let (s, path) := peelPath s []
  splitServers ha (if path = [] then ['/'] else path) s

def parse (url : List Char) : Except String URL :=
  let s := trim url
  if "urb://".toList.isPrefixOf s then
    let s := s.drop 6
    if "ha://".toList.isPrefixOf s then .ok (split true (s.drop 5))
    else if ',' ∈ s then .error "Expecting a single server when HA is not specified"
    else .ok (split false s)
  else .error "Expecting 'urb://' at the beginning of the URL"

/-- What `operator<<` prints in front of the path. -/
def authority (u : URL) : List Char :=
  (if u.credentials ≠ [] then u.credentials ++ ['@'] else []) ++ u.servers

/-- `operator<<` -/
def print (u : URL) : List Char := "urb://".toList ++ (u.authority ++ u.path)

end URL

end Urb
