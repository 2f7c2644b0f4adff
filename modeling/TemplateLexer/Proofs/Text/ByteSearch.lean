import Mathlib.Data.List.Destutter
import Mathlib.Data.List.Sort
import TemplateLexer.Proofs.Text.Search

/-!
# Searching the bytes of a text

The search for the earliest of several markers can be carried out on bytes
alone.  It asks for the places of the markers' first bytes, as long as there
are at most three of them, and compares whole markers only there; with more
first bytes it compares at every place.  Either way it finds what a plain scan
over the boundaries between characters finds: the places are tried in
increasing order, and no place at which a marker stands is left out.
-/

namespace TemplateLexer

namespace Text

/-- What finds all the places of some bytes among others, in increasing order. -/
structure ByteFinder where
  places : List UInt8 → List UInt8 → List Nat
  sorted (needles bytes : List UInt8) : (places needles bytes).Pairwise (· < ·)
  mem_places_iff (needles bytes : List UInt8) (place : Nat) :
    place ∈ places needles bytes ↔ ∃ byte ∈ needles, bytes[place]? = some byte

def markerFrom? (markers : List Text) (text : Text) (place : Nat) : Option (Nat × Text) :=
  (markers.find? fun marker => marker ≠ [] ∧ OccursAt marker text place).map fun marker =>
    (place, marker)

def firstBytes (markers : List Text) : List UInt8 :=
  ((markers.filterMap fun marker => (utf8 marker).head?).mergeSort (· ≤ ·)).destutter (· ≠ ·)

def ByteFinder.search (finder : ByteFinder) (markers : List Text) (text : Text) :
    Option (Nat × Text) :=
  match firstBytes markers with
  | [] => none
  | [a] => (finder.places [a] (utf8 text)).findSome? (markerFrom? markers text)
  | [a, b] => (finder.places [a, b] (utf8 text)).findSome? (markerFrom? markers text)
  | [a, b, c] => (finder.places [a, b, c] (utf8 text)).findSome? (markerFrom? markers text)
  | _ => (List.range (utf8 text).length).findSome? (markerFrom? markers text)

def boundaries (text : Text) : List Nat :=
  (List.range (byteLength text + 1)).filter fun offset => (text.splitAt? offset).isSome

/-- The scan that tries the boundaries in order and compares whole markers at each. -/
def searchBoundaries (markers : List Text) (text : Text) : Option (Nat × Text) :=
  (boundaries text).findSome? fun offset => do
    let (_, after) ← text.splitAt? offset
    let marker ← markerAt? markers after
    some (offset, marker)

section

variable {markers : List Text} {marker text before after : Text} {place offset : Nat}

theorem markerFrom?_eq_none_iff :
    markerFrom? markers text place = none ↔
      ∀ marker ∈ markers, marker ≠ [] → ¬ marker.OccursAt text place := by
  simp [markerFrom?, List.find?_eq_none]

theorem markerFrom?_ne_none_iff :
    markerFrom? markers text place ≠ none ↔
      ∃ marker ∈ markers, marker ≠ [] ∧ marker.OccursAt text place := by
  rw [Ne, markerFrom?_eq_none_iff]
  push Not
  rfl

theorem markerFrom?_eq_some_iff :
    markerFrom? markers text place = some (offset, marker) ↔
      place = offset ∧
        (markers.find? fun marker => marker ≠ [] ∧ OccursAt marker text place) = some marker := by
  simp [markerFrom?, and_comm]

theorem markerFrom?_of_append :
    markerFrom? markers (before ++ after) (byteLength before) =
      (markerAt? markers after).map fun marker => (byteLength before, marker) := by
  have hagree : (fun marker : Text => decide
      (marker ≠ [] ∧ marker.OccursAt (before ++ after) (byteLength before))) =
        fun marker => !marker.isEmpty && marker.isPrefixOf after := by
    funext marker
    rw [Bool.eq_iff_iff]
    simp [occursAt_append]
  rw [markerFrom?, markerAt?, hagree]

theorem markerFrom?_eq_bind_splitAt? :
    markerFrom? markers text offset = (do
      let (_, after) ← text.splitAt? offset
      let marker ← markerAt? markers after
      some (offset, marker)) := by
  cases hsplit : text.splitAt? offset with
  | none =>
      change markerFrom? markers text offset = none
      rw [markerFrom?_eq_none_iff]
      intro marker _ hne hoccurs
      obtain ⟨before, after, hcut⟩ := exists_cut_of_occursAt hne hoccurs
      rw [splitAt?_eq_some_iff.mpr hcut] at hsplit
      cases hsplit
  | some parts =>
      obtain ⟨before, after⟩ := parts
      obtain ⟨rfl, rfl⟩ := splitAt?_eq_some_iff.mp hsplit
      rw [markerFrom?_of_append]
      cases hmarker : markerAt? markers after <;> simp [hmarker]

theorem exists_firstByte (h : markerFrom? markers text place ≠ none) :
    ∃ byte ∈ firstBytes markers, (utf8 text)[place]? = some byte := by
  obtain ⟨marker, hmem, hne, rest, hoccurs⟩ := markerFrom?_ne_none_iff.mp h
  obtain ⟨byte, bytes, hbytes⟩ : ∃ byte bytes, utf8 marker = byte :: bytes := by
    apply List.exists_cons_of_length_pos
    rw [length_utf8]
    exact byteLength_pos hne
  refine ⟨byte, ?_, ?_⟩
  · rw [firstBytes, (List.pairwise_mergeSort' (· ≤ ·) _).destutter_eq_dedup, List.mem_dedup,
      List.mem_mergeSort, List.mem_filterMap]
    exact ⟨marker, hmem, by rw [hbytes, List.head?_cons]⟩
  · have hget := congrArg List.head? hoccurs
    rw [hbytes, List.cons_append, List.head?_cons, List.head?_drop] at hget
    exact hget.symm

theorem findSome?_eq_some_iff_isLeast {α : Type} {places : List Nat} {f : Nat → Option α}
    {found : α} (hsorted : places.Pairwise (· < ·)) (hall : ∀ place, f place ≠ none → place ∈ places) :
    places.findSome? f = some found ↔
      ∃ place, IsLeast { place | f place ≠ none } place ∧ f place = some found := by
  rw [List.findSome?_eq_some_iff]
  constructor
  · rintro ⟨front, place, back, rfl, hplace, hfront⟩
    refine ⟨place, ⟨by simp [hplace], ?_⟩, hplace⟩
    intro other hother
    rcases List.mem_append.mp (hall other hother) with hmem | hmem
    · exact absurd (hfront other hmem) hother
    · rcases List.mem_cons.mp hmem with rfl | hback
      · exact Nat.le_refl _
      · obtain ⟨-, hsorted, -⟩ := List.pairwise_append.mp hsorted
        exact Nat.le_of_lt (List.rel_of_pairwise_cons hsorted hback)
  · rintro ⟨place, ⟨hplace, hleast⟩, hfound⟩
    obtain ⟨front, back, rfl⟩ := List.append_of_mem (hall place hplace)
    refine ⟨front, place, back, rfl, hfound, ?_⟩
    intro other hother
    by_contra hne
    have hlt : other < place :=
      (List.pairwise_append.mp hsorted).2.2 other hother place List.mem_cons_self
    exact Nat.not_le_of_lt hlt (hleast hne)

theorem ByteFinder.search_eq_some_iff (finder : ByteFinder) {found : Nat × Text} :
    finder.search markers text = some found ↔
      ∃ place, IsLeast { place | markerFrom? markers text place ≠ none } place ∧
        markerFrom? markers text place = some found := by
  have hfirst : ∀ place, markerFrom? markers text place ≠ none →
      ∃ byte ∈ firstBytes markers, (utf8 text)[place]? = some byte :=
    fun place => exists_firstByte
  have hplaces : ∀ needles, firstBytes markers = needles →
      ((finder.places needles (utf8 text)).findSome? (markerFrom? markers text) = some found ↔
        ∃ place, IsLeast { place | markerFrom? markers text place ≠ none } place ∧
          markerFrom? markers text place = some found) := by
    rintro needles rfl
    apply findSome?_eq_some_iff_isLeast (finder.sorted _ _)
    intro place hplace
    exact (finder.mem_places_iff _ _ _).mpr (hfirst place hplace)
  rw [search]
  split
  · next hnil =>
      simp only [reduceCtorEq, false_iff, not_exists, not_and]
      intro place hplace
      obtain ⟨byte, hbyte, -⟩ := hfirst place hplace.1
      simp [hnil] at hbyte
  · next hone => exact hplaces _ hone
  · next htwo => exact hplaces _ htwo
  · next hthree => exact hplaces _ hthree
  · apply findSome?_eq_some_iff_isLeast List.pairwise_lt_range
    intro place hplace
    obtain ⟨byte, -, hbyte⟩ := hfirst place hplace
    exact List.mem_range.mpr (List.getElem?_eq_some_iff.mp hbyte).1

theorem searchBoundaries_eq_some_iff {found : Nat × Text} :
    searchBoundaries markers text = some found ↔
      ∃ place, IsLeast { place | markerFrom? markers text place ≠ none } place ∧
        markerFrom? markers text place = some found := by
  have hsame : searchBoundaries markers text =
      (boundaries text).findSome? (markerFrom? markers text) := by
    rw [searchBoundaries]
    congr 1
    funext offset
    exact markerFrom?_eq_bind_splitAt?.symm
  rw [hsame]
  apply findSome?_eq_some_iff_isLeast (List.pairwise_lt_range.filter _)
  intro place hplace
  obtain ⟨marker, -, hne, hoccurs⟩ := markerFrom?_ne_none_iff.mp hplace
  obtain ⟨before, after, rfl, rfl⟩ := exists_cut_of_occursAt hne hoccurs
  rw [List.mem_filter, List.mem_range, splitAt?_append]
  refine ⟨?_, rfl⟩
  rw [byteLength_append]
  omega

theorem offsetOfAny?_eq_some_iff_isLeast {found : Nat × Text} :
    offsetOfAny? markers text = some found ↔
      ∃ place, IsLeast { place | markerFrom? markers text place ≠ none } place ∧
        markerFrom? markers text place = some found := by
  obtain ⟨offset, marker⟩ := found
  rw [offsetOfAny?_eq_some_iff]
  constructor
  · rintro ⟨before, after, rfl, rfl, hbefore, hafter⟩
    have hfound : markerFrom? markers (before ++ after) (byteLength before) =
        some (byteLength before, marker) := by
      rw [markerFrom?_of_append, hafter, Option.map_some]
    refine ⟨byteLength before, ⟨by simp [hfound], ?_⟩, hfound⟩
    intro place hplace
    obtain ⟨other, hmem, hne, hoccurs⟩ := markerFrom?_ne_none_iff.mp hplace
    by_contra hlt
    exact unmarked_iff_occursAt.mp hbefore other hmem hne place (Nat.lt_of_not_le hlt) hoccurs
  · rintro ⟨place, ⟨hplace, hleast⟩, hfound⟩
    obtain ⟨other, -, hne, hoccurs⟩ := markerFrom?_ne_none_iff.mp hplace
    obtain ⟨before, after, rfl, rfl⟩ := exists_cut_of_occursAt hne hoccurs
    rw [markerFrom?_of_append] at hfound
    obtain ⟨marker, hmarker, heq⟩ := Option.map_eq_some_iff.mp hfound
    cases heq
    refine ⟨before, after, rfl, rfl, ?_, hmarker⟩
    rw [unmarked_iff_occursAt]
    intro other hmem hne place hlt hoccurs
    exact Nat.not_le_of_lt hlt (hleast (markerFrom?_ne_none_iff.mpr ⟨other, hmem, hne, hoccurs⟩))

end

def ByteFinder.plain : ByteFinder where
  places needles bytes :=
    (List.range bytes.length).filter fun place => bytes[place]?.any fun byte => needles.contains byte
  sorted _ _ := List.pairwise_lt_range.filter _
  mem_places_iff needles bytes place := by
    rw [List.mem_filter, List.mem_range, Option.any_eq_true]
    constructor
    · rintro ⟨-, byte, hbyte, hneedle⟩
      exact ⟨byte, by simpa using hneedle, hbyte⟩
    · rintro ⟨byte, hneedle, hbyte⟩
      exact ⟨(List.getElem?_eq_some_iff.mp hbyte).1, byte, hbyte, by simpa using hneedle⟩

/--
However the places of first bytes are found, the search on bytes gives the
same result as the scan over all boundaries: the least offset at which the
bytes of a marker that is not empty stand, with the first-listed such marker.
That offset is always a boundary.
-/
theorem offsetOfAny?_eq_naive_search (markers : List Text) (text : Text) :
    (∀ finder : ByteFinder, finder.search markers text = offsetOfAny? markers text) ∧
      searchBoundaries markers text = offsetOfAny? markers text ∧
      (offsetOfAny? markers text = none ↔
        ∀ marker ∈ markers, marker ≠ [] → ∀ offset, ¬ OccursAt marker text offset) ∧
      ∀ offset marker,
        (offsetOfAny? markers text = some (offset, marker) ↔
          IsLeast { offset | ∃ marker ∈ markers, marker ≠ [] ∧ OccursAt marker text offset } offset ∧
            (markers.find? fun marker => marker ≠ [] ∧ OccursAt marker text offset) =
              some marker) ∧
        (offsetOfAny? markers text = some (offset, marker) →
          ∃ before after, text.splitAt? offset = some (before, marker ++ after)) := by
  refine ⟨?_, ?_, ?_, ?_⟩
  · intro finder
    apply Option.ext
    intro found
    rw [finder.search_eq_some_iff, offsetOfAny?_eq_some_iff_isLeast]
  · apply Option.ext
    intro found
    rw [searchBoundaries_eq_some_iff, offsetOfAny?_eq_some_iff_isLeast]
  · rw [offsetOfAny?_eq_none_iff, unmarked_nil_right_iff_occursAt]
  · intro offset marker
    constructor
    · rw [offsetOfAny?_eq_some_iff_isLeast]
      simp only [markerFrom?_ne_none_iff, markerFrom?_eq_some_iff]
      constructor
      · rintro ⟨place, hleast, rfl, hmarker⟩
        exact ⟨hleast, hmarker⟩
      · rintro ⟨hleast, hmarker⟩
        exact ⟨offset, hleast, rfl, hmarker⟩
    · intro h
      obtain ⟨before, after, rfl, rfl, -, hafter⟩ := offsetOfAny?_eq_some_iff.mp h
      obtain ⟨-, -, rest, rfl⟩ := of_markerAt?_eq_some hafter
      exact ⟨before, rest, splitAt?_append _ _⟩

theorem search_of_five_first_bytes :
    let markers : List Text := [['b', 'é'], [], ['é', 'a'], ['é'], ['q'], ['w'], ['→', 'x']]
    let text : Text := ['x', 'à', 'é', 'b', 'é', 'a']
    ByteFinder.plain.search markers text = some (3, ['é']) ∧
      IsLeast { offset | ∃ marker ∈ markers, marker ≠ [] ∧ OccursAt marker text offset } 3 ∧
      ∃ before after, text.splitAt? 3 = some (before, 'é' :: after) := by
  intro markers text
  have hfound : offsetOfAny? markers text = some (3, ['é']) := by
    decide +kernel
  obtain ⟨hsearch, -, -, hall⟩ := offsetOfAny?_eq_naive_search markers text
  obtain ⟨hleast, hcut⟩ := hall 3 ['é']
  exact ⟨(hsearch ByteFinder.plain).trans hfound, (hleast.mp hfound).1, hcut hfound⟩

end Text

end TemplateLexer
