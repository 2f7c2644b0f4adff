import Mathlib.Data.List.Find
import TemplateLexer.Proofs.Cursor

/-!
# The search for several markers and the search for one

A cursor can look for the earliest of several markers or go past one marker.
The two ways are searches of their own, and they agree: the first finds what
remains in front of the nearest marker when every marker is tried alone.  The
text in front of a marker is a part that the remaining text begins with, so the
nearest marker is the one with the shortest such text, and markers that begin
at one place have the same.
-/

namespace TemplateLexer

namespace Cursor

open Text

section

variable {markers : List Text} {marker before other : Text} {cursor next : Cursor}

/-- The text in front of the marker's first occurrence.  The empty marker is none to look for. -/
def textBefore? (cursor : Cursor) (marker : Text) : Option Text :=
  if marker.isEmpty then none else (cursor.takePast? marker false).map Prod.fst

theorem textBefore?_eq_some_iff :
    cursor.textBefore? marker = some before ↔
      marker ≠ [] ∧ ∃ rest, cursor.remaining = before ++ rest ∧ marker <+: rest ∧
        Unmarked [marker] before rest := by
  by_cases hmarker : marker = []
  · simp [textBefore?, hmarker]
  · rw [textBefore?, if_neg (by simpa using hmarker), Option.map_eq_some_iff]
    constructor
    · rintro ⟨⟨passed, next⟩, htake, rfl⟩
      obtain ⟨front, hsplit, -, hfront, rfl⟩ := (takePast?_eq_some_iff hmarker).mp htake
      rw [List.append_assoc] at hsplit
      exact ⟨hmarker, _, hsplit, List.prefix_append _ _, hfront⟩
    · rintro ⟨-, _, hsplit, ⟨rest, rfl⟩, hbefore⟩
      rw [← List.append_assoc] at hsplit
      refine ⟨(before, ⟨cursor.pos + (before ++ marker).byteLength, rest⟩), ?_, rfl⟩
      exact (takePast?_eq_some_iff hmarker).mpr ⟨before, hsplit, rfl, hbefore, rfl⟩

theorem isSome_textBefore?_iff :
    (cursor.textBefore? marker).isSome ↔
      marker ≠ [] ∧ (cursor.takePast? marker false).isSome := by
  by_cases hmarker : marker = [] <;> simp [textBefore?, hmarker]

theorem textBefore?_eq_some_iff_prefix (hmem : marker ∈ markers)
    (hsplit : cursor.remaining = before ++ next.remaining)
    (hbefore : Unmarked markers before next.remaining) :
    cursor.textBefore? marker = some before ↔ marker ≠ [] ∧ marker <+: next.remaining := by
  rw [textBefore?_eq_some_iff]
  constructor
  · rintro ⟨hmarker, rest, hrest, hbegins, -⟩
    rw [hsplit, List.append_cancel_left_eq] at hrest
    exact ⟨hmarker, hrest ▸ hbegins⟩
  · rintro ⟨hmarker, hbegins⟩
    refine ⟨hmarker, next.remaining, hsplit, hbegins, ?_⟩
    rw [unmarked_iff_occursAt] at hbefore ⊢
    intro found hfound
    obtain rfl := List.mem_singleton.mp hfound
    exact hbefore found hmem

theorem find?_textBefore? (hseek : cursor.seekAny? markers = some (marker, before, next)) :
    (markers.find? fun marker => cursor.textBefore? marker = some before) = some marker := by
  obtain ⟨hsplit, -, hbefore, hmarker⟩ := seekAny?_eq_some_iff.mp hseek
  rw [← hmarker, markerAt?]
  apply List.find?_congr
  intro found hmem
  rw [Bool.eq_iff_iff, decide_eq_true_iff, textBefore?_eq_some_iff_prefix hmem hsplit hbefore]
  simp

theorem textBefore?_of_seekAny? (hseek : cursor.seekAny? markers = some (marker, before, next)) :
    marker ∈ markers ∧ cursor.textBefore? marker = some before := by
  have hfound := find?_textBefore? hseek
  exact ⟨List.mem_of_find?_eq_some hfound, by simpa using List.find?_some hfound⟩

theorem byteLength_le_of_seekAny? (hseek : cursor.seekAny? markers = some (marker, before, next))
    (hother : other ∈ markers.filterMap cursor.textBefore?) :
    before.byteLength ≤ other.byteLength := by
  obtain ⟨hsplit, -, hbefore, -⟩ := seekAny?_eq_some_iff.mp hseek
  obtain ⟨found, hmem, hfound⟩ := List.mem_filterMap.mp hother
  obtain ⟨hne, rest, hrest, hbegins, -⟩ := textBefore?_eq_some_iff.mp hfound
  by_contra hlt
  have hoccurs : OccursAt found (before ++ next.remaining) other.byteLength := by
    rw [← hsplit, hrest]
    exact occursAt_append.mpr hbegins
  exact unmarked_iff_occursAt.mp hbefore found hmem hne _ (Nat.lt_of_not_le hlt) hoccurs

theorem isSome_seekAny?_iff :
    (cursor.seekAny? markers).isSome ↔
      ∃ marker ∈ markers, marker ≠ [] ∧ (cursor.takePast? marker false).isSome := by
  constructor
  · intro h
    obtain ⟨⟨marker, before, next⟩, hseek⟩ := Option.isSome_iff_exists.mp h
    obtain ⟨hmem, hbefore⟩ := textBefore?_of_seekAny? hseek
    exact ⟨marker, hmem, isSome_textBefore?_iff.mp (by simp [hbefore])⟩
  · rintro ⟨marker, hmem, hmarker, htake⟩
    by_contra hnone
    rw [Option.not_isSome_iff_eq_none, seekAny?_eq_none_iff, unmarked_nil_right_iff] at hnone
    have hunmarked := (unmarked_singleton_nil_iff hmarker).mpr (hnone marker hmem hmarker)
    rw [(takePast?_eq_none_iff hmarker).mpr hunmarked] at htake
    cases htake

def IsShortest (texts : List Text) (text : Text) : Prop :=
  text ∈ texts ∧ ∀ other ∈ texts, text.byteLength ≤ other.byteLength

theorem isShortest_of_seekAny? (hseek : cursor.seekAny? markers = some (marker, before, next)) :
    IsShortest (markers.filterMap cursor.textBefore?) before :=
  ⟨List.mem_filterMap.mpr ⟨marker, textBefore?_of_seekAny? hseek⟩,
    fun _ => byteLength_le_of_seekAny? hseek⟩

theorem IsShortest.unique (hbefore : IsShortest (markers.filterMap cursor.textBefore?) before)
    (hother : IsShortest (markers.filterMap cursor.textBefore?) other) : before = other := by
  have hlength : before.byteLength = other.byteLength :=
    Nat.le_antisymm (hbefore.2 other hother.1) (hother.2 before hbefore.1)
  obtain ⟨_, -, hfirst⟩ := List.mem_filterMap.mp hbefore.1
  obtain ⟨_, -, hsecond⟩ := List.mem_filterMap.mp hother.1
  obtain ⟨-, rest, hsplit, -⟩ := textBefore?_eq_some_iff.mp hfirst
  obtain ⟨-, _, hrest, -⟩ := textBefore?_eq_some_iff.mp hsecond
  have hcut := splitAt?_append before rest
  rw [← hsplit, hrest, hlength, splitAt?_append] at hcut
  cases hcut
  rfl

theorem seekAny?_eq_some_iff_isShortest :
    cursor.seekAny? markers = some (marker, before, next) ↔
      IsShortest (markers.filterMap cursor.textBefore?) before ∧
        (markers.find? fun marker => cursor.textBefore? marker = some before) = some marker ∧
        cursor.advance? before.byteLength = some (before, next) := by
  constructor
  · intro hseek
    obtain ⟨hsplit, hpos, -, -⟩ := seekAny?_eq_some_iff.mp hseek
    exact ⟨isShortest_of_seekAny? hseek, find?_textBefore? hseek,
      advance?_eq_some_iff.mpr ⟨hsplit, rfl, hpos⟩⟩
  · rintro ⟨hshortest, hfind, hadvance⟩
    obtain ⟨found, hmem, hfound⟩ := List.mem_filterMap.mp hshortest.1
    have hsome : (cursor.seekAny? markers).isSome :=
      isSome_seekAny?_iff.mpr ⟨found, hmem, isSome_textBefore?_iff.mp (by simp [hfound])⟩
    obtain ⟨⟨first, front, behind⟩, hseek⟩ := Option.isSome_iff_exists.mp hsome
    obtain rfl := hshortest.unique (isShortest_of_seekAny? hseek)
    obtain ⟨hsplit, hpos, -, -⟩ := seekAny?_eq_some_iff.mp hseek
    rw [advance?_eq_some_iff.mpr ⟨hsplit, rfl, hpos⟩] at hadvance
    rw [find?_textBefore? hseek] at hfind
    cases hadvance
    cases hfind
    exact hseek

theorem takePast?_of_seekAny? (hseek : cursor.seekAny? markers = some (marker, before, next)) :
    ∃ behind, next.takePast? marker true = some (marker, behind) ∧
      cursor.takePast? marker false = some (before, behind) ∧
      cursor.takePast? marker true = some (before ++ marker, behind) := by
  obtain ⟨hsplit, hpos, -, hfound⟩ := seekAny?_eq_some_iff.mp hseek
  obtain ⟨-, hmarker, rest, hrest⟩ := of_markerAt?_eq_some hfound
  obtain ⟨-, hbefore⟩ := textBefore?_of_seekAny? hseek
  obtain ⟨-, after, hafter, -, hunmarked⟩ := textBefore?_eq_some_iff.mp hbefore
  have hsame : after = next.remaining := by
    rw [hsplit, List.append_cancel_left_eq] at hafter
    exact hafter.symm
  rw [hsame, ← hrest] at hunmarked
  have hthrough : cursor.remaining = before ++ marker ++ rest := by
    rw [hsplit, ← hrest, List.append_assoc]
  have hbehind : cursor.pos + (before ++ marker).byteLength =
      next.pos + byteLength ([] ++ marker) := by
    rw [hpos, List.nil_append, byteLength_append, Nat.add_assoc]
  refine ⟨⟨cursor.pos + (before ++ marker).byteLength, rest⟩, ?_, ?_, ?_⟩
  · exact (takePast?_eq_some_iff hmarker).mpr ⟨[], hrest.symm, hbehind, unmarked_nil, rfl⟩
  · exact (takePast?_eq_some_iff hmarker).mpr ⟨before, hthrough, rfl, hunmarked, rfl⟩
  · exact (takePast?_eq_some_iff hmarker).mpr ⟨before, hthrough, rfl, hunmarked, rfl⟩

end

/--
The search for several markers succeeds where the search for one of them does.
It finds the shortest of the texts that lie in front of the markers taken one
by one, with the first-listed marker behind it, and going past that marker ends
in the same place whether one starts in front of it or where the search began.
-/
theorem searches_agree (markers : List Text) (cursor : Cursor) :
    ((cursor.seekAny? markers).isSome ↔
        ∃ marker ∈ markers, marker ≠ [] ∧ (cursor.takePast? marker false).isSome) ∧
      ∀ marker before next,
        (cursor.seekAny? markers = some (marker, before, next) ↔
          IsShortest (markers.filterMap cursor.textBefore?) before ∧
            (markers.find? fun marker => cursor.textBefore? marker = some before) = some marker ∧
            cursor.advance? before.byteLength = some (before, next)) ∧
        (cursor.seekAny? markers = some (marker, before, next) →
          ∃ behind, next.takePast? marker true = some (marker, behind) ∧
            cursor.takePast? marker false = some (before, behind) ∧
            cursor.takePast? marker true = some (before ++ marker, behind)) :=
  ⟨isSome_seekAny?_iff, fun _ _ _ => ⟨seekAny?_eq_some_iff_isShortest, takePast?_of_seekAny?⟩⟩

theorem searches_agree_on_mutual_prefixes :
    let cursor : Cursor := ⟨3, ['é', '{', '{', '%', 'x']⟩
    let markers : List Text := [[], ['{', '%'], ['{'], ['{', '{', '%'], ['x']]
    cursor.seekAny? markers = some (['{'], ['é'], ⟨5, ['{', '{', '%', 'x']⟩) ∧
      IsShortest [['é', '{'], ['é'], ['é'], ['é', '{', '{', '%']] ['é'] ∧
      ∃ behind, (⟨5, ['{', '{', '%', 'x']⟩ : Cursor).takePast? ['{'] true = some (['{'], behind) ∧
        cursor.takePast? ['{'] false = some (['é'], behind) ∧
        cursor.takePast? ['{'] true = some (['é', '{'], behind) := by
  intro cursor markers
  have hseek : cursor.seekAny? markers = some (['{'], ['é'], ⟨5, ['{', '{', '%', 'x']⟩) := by
    rfl
  have htexts : markers.filterMap cursor.textBefore? =
      [['é', '{'], ['é'], ['é'], ['é', '{', '{', '%']] := by
    rfl
  obtain ⟨hiff, hplace⟩ := (searches_agree markers cursor).2 _ _ _
  have hshortest := (hiff.mp hseek).1
  rw [htexts] at hshortest
  exact ⟨hseek, hshortest, hplace hseek⟩

end Cursor

end TemplateLexer
