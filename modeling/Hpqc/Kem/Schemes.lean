import Mathlib.Data.List.Nodup
import Hpqc.Kem.Contract

/-!
# The scheme registry

Package `schemes` holds every KEM scheme the library offers. `init` appends the non-nil
entries of `potentialSchemes` to `allSchemes` and fills the map `allSchemeNames` from each
scheme's lower-cased name; `ByName` looks a lower-cased name up, and `All` returns the list.
The schemes come from other packages, so both lists are parameters.

`strings.ToLower` (package `strings`, not among the sources) maps each rune to its Unicode
lower case, so it also folds letters such as `É` and the Kelvin sign; it is a parameter
`toLower` here, and nothing below depends on how it folds.

A Go map keeps the last value stored under a key, so `ByName` finds the last registered
scheme whose name folds to the same string (`foldl_register`). Nothing checks that folded
names are unique; where they are, every registered scheme is found under its own name, and
a scheme `ByName` returns is a registered one of that name.
-/

namespace Hpqc.Kem.Schemes

/-- `allSchemeNames`, a Go map from lower-cased names to schemes, as the function it
denotes; a missing key gives the nil scheme. -/
def SchemeMap : Type := String → Option Scheme

/-- `allSchemeNames[key] = scheme`. -/
def SchemeMap.insert (names : SchemeMap) (key : String) (scheme : Scheme) : SchemeMap :=
  fun k => if k = key then some scheme else names k

/-- The package's variables once `init` has run. -/
structure Registry where
  allSchemes : List Scheme
  allSchemeNames : SchemeMap

section

variable (toLower : String → String)

/-- One iteration of `init`'s second loop. -/
def register (names : SchemeMap) (scheme : Scheme) : SchemeMap :=
  names.insert (toLower scheme.name) scheme

/-- `init()`: append the non-nil potential schemes to `allSchemes`, then map each scheme's
lower-cased name to it, in order. -/
def init (potentialSchemes : List (Option Scheme)) (allSchemes : List Scheme) : Registry :=
  let allSchemes := allSchemes ++ potentialSchemes.filterMap id
  { allSchemes, allSchemeNames := allSchemes.foldl (register toLower) fun _ => none }

namespace Registry

/-- `ByName(name)`. -/
def byName (registry : Registry) (name : String) : Option Scheme :=
  registry.allSchemeNames (toLower name)

/-- `All()`. -/
def all (registry : Registry) : List Scheme := registry.allSchemes

end Registry

/-- Filling a map from a list leaves, under each key, the last scheme of the list with that
folded name, and the map's old value where there is none. -/
theorem foldl_register (schemes : List Scheme) (names : SchemeMap) (key : String) :
    schemes.foldl (register toLower) names key =
      (schemes.reverse.find? fun s => toLower s.name == key).or (names key) := by
  induction schemes generalizing names with
  | nil => simp
  | cons scheme rest ih =>
    rw [List.foldl_cons, ih, List.reverse_cons, List.find?_append, Option.or_assoc]
    by_cases named : key = toLower scheme.name
    · simp [register, SchemeMap.insert, named]
    · simp [register, SchemeMap.insert, named, Ne.symm named]

/-- In a list whose folded names are unique, the search for a member's folded name finds
that member. -/
theorem find?_reverse_of_unique {schemes : List Scheme} {s : Scheme}
    (unique : (schemes.map fun s => toLower s.name).Nodup) (registered : s ∈ schemes) :
    (schemes.reverse.find? fun u => toLower u.name == toLower s.name) = some s := by
  have isSome : (schemes.reverse.find? fun u => toLower u.name == toLower s.name).isSome :=
    List.find?_isSome.2 ⟨s, List.mem_reverse.2 registered, beq_self_eq_true _⟩
  obtain ⟨t, found⟩ := Option.isSome_iff_exists.1 isSome
  have sameName : toLower t.name = toLower s.name := by simpa using List.find?_some found
  rw [found, List.inj_on_of_nodup_map unique
    (List.mem_reverse.1 (List.mem_of_find?_eq_some found)) registered sameName]

/-- `ByName` returns the last scheme of `All()` whose lower-cased name is the lower-cased
`name`, and nil when there is none; so what it returns is a registered scheme of that name,
and when the lower-cased names are unique every registered scheme is found under its own
name. -/
theorem byName_finds_last_registered (potentialSchemes : List (Option Scheme))
    (allSchemes : List Scheme) :
    (∀ name, (init toLower potentialSchemes allSchemes).byName toLower name =
      (init toLower potentialSchemes allSchemes).all.reverse.find? fun s =>
        toLower s.name == toLower name) ∧
    (∀ name s, (init toLower potentialSchemes allSchemes).byName toLower name = some s →
      s ∈ (init toLower potentialSchemes allSchemes).all ∧ toLower s.name = toLower name) ∧
    (((init toLower potentialSchemes allSchemes).all.map fun s => toLower s.name).Nodup →
      ∀ s ∈ (init toLower potentialSchemes allSchemes).all,
        (init toLower potentialSchemes allSchemes).byName toLower s.name = some s) := by
  have lookup : ∀ name, (init toLower potentialSchemes allSchemes).byName toLower name =
      (init toLower potentialSchemes allSchemes).all.reverse.find? fun s =>
        toLower s.name == toLower name := fun name => by
    simp only [Registry.byName, Registry.all, init, foldl_register, Option.or_none]
  refine ⟨lookup, fun name s found => ?_, fun unique s registered => ?_⟩
  · rw [lookup] at found
    exact ⟨List.mem_reverse.1 (List.mem_of_find?_eq_some found),
      by simpa using List.find?_some found⟩
  · rw [lookup]
    exact find?_reverse_of_unique toLower unique registered

end

/-- `strings.ToLower` on strings of ASCII letters, digits and hyphens, in which the
registered names are written. -/
def asciiToLower (s : String) : String := ⟨s.toList.map Char.toLower⟩

/-- Two schemes of one name: `ByName` finds the later one, whatever the case of the name. -/
example : ((init asciiToLower [] [Scheme.seedEcho 1, Scheme.seedEcho 2]).byName asciiToLower
    "SEED-Echo").map Scheme.ref = some 2 := by
  decide

/-- Under ASCII folding, the two schemes of a registry of a hybrid and a `seedEcho` scheme are
each found under their own names. -/
theorem byName_finds_last_registered_echo :
    ((init asciiToLower [some (Scheme.seedEcho 5)]
      [Hybrid.echoPair.toKem fun _ => Digest.zero]).all.map fun s => asciiToLower s.name).Nodup ∧
    ∀ s ∈ (init asciiToLower [some (Scheme.seedEcho 5)]
      [Hybrid.echoPair.toKem fun _ => Digest.zero]).all,
      (init asciiToLower [some (Scheme.seedEcho 5)]
        [Hybrid.echoPair.toKem fun _ => Digest.zero]).byName asciiToLower s.name = some s := by
  have unique : ((init asciiToLower [some (Scheme.seedEcho 5)]
      [Hybrid.echoPair.toKem fun _ => Digest.zero]).all.map fun s => asciiToLower s.name).Nodup := by
    decide
  exact ⟨unique, (byName_finds_last_registered asciiToLower _ _).2.2 unique⟩

end Hpqc.Kem.Schemes
