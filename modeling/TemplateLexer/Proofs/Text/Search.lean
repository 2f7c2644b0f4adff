import Mathlib.Data.List.Infix
import Mathlib.Order.Bounds.Defs
import TemplateLexer.Proofs.Text.Occurrence
import TemplateLexer.Text.Search

/-!
# What the searches find

Both searches cut a text in two: a part in which no marker begins, and a rest
at whose beginning a marker stands.  Whether a marker begins in the first part
depends on the rest as well, since a marker may begin on the last characters
of one and run into the other.  `Unmarked` says it of the two parts together.
The comparison of first bytes changes nothing in the result.
-/

namespace TemplateLexer

namespace Text

/-- No marker begins at a character of the first text when the second follows it. -/
def Unmarked (markers : List Text) : Text → Text → Prop
  | [], _ => True
  | c :: before, after =>
      markerAt? markers (c :: (before ++ after)) = none ∧ Unmarked markers before after

instance decidableUnmarked (markers : List Text) :
    (before after : Text) → Decidable (Unmarked markers before after)
  | [], _ => .isTrue trivial
  | _ :: before, after =>
      have := decidableUnmarked markers before after
      inferInstanceAs (Decidable (_ ∧ _))

section

variable {markers : List Text} {marker text before after rest : Text}

theorem markerAt?_eq_none_iff :
    markerAt? markers text = none ↔
      ∀ marker ∈ markers, marker ≠ [] → ¬ marker <+: text := by
  simp [markerAt?, List.find?_eq_none]

theorem of_markerAt?_eq_some (h : markerAt? markers text = some marker) :
    marker ∈ markers ∧ marker ≠ [] ∧ marker <+: text := by
  have hfound := List.find?_some h
  simp only [Bool.and_eq_true, Bool.not_eq_true', List.isEmpty_eq_false_iff,
    List.isPrefixOf_iff_prefix] at hfound
  exact ⟨List.mem_of_find?_eq_some h, hfound⟩

@[simp] theorem markerAt?_nil : markerAt? markers [] = none := by
  rw [markerAt?_eq_none_iff]
  intro marker _ hne hbegins
  exact hbegins.ne_nil hne rfl

theorem markerAt?_of_append (rest : Text) (h : markerAt? markers (text ++ rest) = none) :
    markerAt? markers text = none := by
  rw [markerAt?_eq_none_iff] at h ⊢
  intro marker hmem hne hbegins
  exact h marker hmem hne (hbegins.trans (List.prefix_append _ _))

theorem markerAt?_append (rest : Text)
    (hlength : ∀ marker ∈ markers, marker.length ≤ text.length)
    (h : markerAt? markers text = none) : markerAt? markers (text ++ rest) = none := by
  rw [markerAt?_eq_none_iff] at h ⊢
  intro marker hmem hne hbegins
  exact h marker hmem hne
    (List.prefix_of_prefix_length_le hbegins (List.prefix_append _ _)
      (hlength marker hmem))

@[simp] theorem unmarked_nil : Unmarked markers [] after := trivial

@[simp] theorem unmarked_cons {c : Char} :
    Unmarked markers (c :: before) after ↔
      markerAt? markers (c :: (before ++ after)) = none ∧ Unmarked markers before after :=
  Iff.rfl

theorem unmarked_append :
    Unmarked markers (before ++ after) rest ↔
      Unmarked markers before (after ++ rest) ∧ Unmarked markers after rest := by
  induction before with
  | nil => simp
  | cons c before ih => simp [ih, and_assoc]

theorem Unmarked.of_append (h : Unmarked markers before (after ++ rest)) :
    Unmarked markers before after := by
  induction before with
  | nil => exact unmarked_nil
  | cons c before ih =>
      obtain ⟨hhead, htail⟩ := h
      refine ⟨markerAt?_of_append rest ?_, ih htail⟩
      simpa using hhead

theorem Unmarked.append
    (hlength : ∀ marker ∈ markers, marker.length ≤ after.length + 1)
    (h : Unmarked markers before after) : Unmarked markers before (after ++ rest) := by
  induction before with
  | nil => exact unmarked_nil
  | cons c before ih =>
      obtain ⟨hhead, htail⟩ := h
      refine ⟨?_, ih htail⟩
      have hlong : ∀ marker ∈ markers, marker.length ≤ (c :: (before ++ after)).length := by
        intro marker hmem
        have := hlength marker hmem
        simp only [List.length_cons, List.length_append]
        omega
      simpa using markerAt?_append rest hlong hhead

theorem unmarked_nil_right_iff :
    Unmarked markers text [] ↔ ∀ marker ∈ markers, marker ≠ [] → ¬ marker <:+: text := by
  induction text with
  | nil =>
      simp only [unmarked_nil, List.infix_nil, true_iff]
      intro marker _ hne hnil
      exact hne hnil
  | cons c text ih =>
      rw [unmarked_cons, List.append_nil, markerAt?_eq_none_iff, ih]
      simp only [List.infix_cons_iff, not_or]
      constructor
      · rintro ⟨hhead, htail⟩ marker hmem hne
        exact ⟨hhead marker hmem hne, htail marker hmem hne⟩
      · intro h
        exact ⟨fun marker hmem hne => (h marker hmem hne).1,
          fun marker hmem hne => (h marker hmem hne).2⟩

theorem unmarked_singleton_nil_iff (hmarker : marker ≠ []) :
    Unmarked [marker] text [] ↔ ¬ marker <:+: text := by
  simp [unmarked_nil_right_iff, hmarker]

theorem unmarked_of_junction (hlength : ∀ marker ∈ markers, marker.length ≤ 2)
    (hbefore : Unmarked markers before [])
    (hjunction : ∀ c, before.getLast? = some c → markerAt? markers (c :: after) = none) :
    Unmarked markers before after := by
  induction before with
  | nil => exact unmarked_nil
  | cons c before ih =>
      obtain ⟨hhead, htail⟩ := hbefore
      cases before with
      | nil => exact ⟨hjunction c rfl, unmarked_nil⟩
      | cons d before =>
          refine ⟨?_, ih htail (by simpa using hjunction)⟩
          have hlong : ∀ marker ∈ markers,
              marker.length ≤ (c :: (d :: before ++ [])).length := by
            intro marker hmem
            have := hlength marker hmem
            simp only [List.length_cons, List.length_append]
            omega
          simpa using markerAt?_append after hlong hhead

theorem unmarked_iff_occursAt :
    Unmarked markers before after ↔
      ∀ marker ∈ markers, marker ≠ [] → ∀ offset < byteLength before,
        ¬ OccursAt marker (before ++ after) offset := by
  constructor
  · intro h marker hmem hne offset hoffset hoccurs
    obtain ⟨front, back, hsplit, rfl, hbegins⟩ := (occursAt_iff hne).mp hoccurs
    rcases List.append_eq_append_iff.mp hsplit with ⟨inner, rfl, rfl⟩ | ⟨inner, rfl, rfl⟩
    · rw [byteLength_append] at hoffset
      omega
    · have hinner := (unmarked_append.mp h).2
      cases inner with
      | nil => simp at hoffset
      | cons c inner =>
          exact markerAt?_eq_none_iff.mp hinner.1 marker hmem hne hbegins
  · intro h
    induction before with
    | nil => exact unmarked_nil
    | cons c before ih =>
        have hpos := c.utf8Size_pos
        constructor
        · rw [markerAt?_eq_none_iff]
          intro marker hmem hne hbegins
          have hzero : 0 < byteLength (c :: before) := by
            rw [byteLength_cons]
            omega
          exact h marker hmem hne 0 hzero
            ((occursAt_iff hne).mpr ⟨[], _, rfl, rfl, hbegins⟩)
        · apply ih
          intro marker hmem hne offset hoffset hoccurs
          obtain ⟨front, back, hsplit, rfl, hbegins⟩ := (occursAt_iff hne).mp hoccurs
          refine h marker hmem hne (byteLength (c :: front)) ?_
            ((occursAt_iff hne).mpr ⟨c :: front, back, ?_, rfl, hbegins⟩)
          · simpa using hoffset
          · simpa using hsplit

/-! ## The search for the earliest of several markers -/

theorem unmarked_or_marked (markers : List Text) (text : Text) :
    Unmarked markers text [] ∨
      ∃ before after marker, text = before ++ after ∧ Unmarked markers before after ∧
        markerAt? markers after = some marker := by
  induction text with
  | nil => exact .inl unmarked_nil
  | cons c text ih =>
      cases hhead : markerAt? markers (c :: text) with
      | some marker => exact .inr ⟨[], c :: text, marker, rfl, unmarked_nil, hhead⟩
      | none =>
          rcases ih with htext | ⟨before, after, marker, rfl, hbefore, hafter⟩
          · exact .inl ⟨by simpa using hhead, htext⟩
          · exact .inr ⟨c :: before, after, marker, rfl, ⟨hhead, hbefore⟩, hafter⟩

theorem scanFrom_of_markerAt? {offset : Nat} (h : markerAt? markers text = some marker) :
    scanFrom (fun _ => true) markers offset text = some (offset, marker) := by
  cases text with
  | nil => simp at h
  | cons c text => simp [scanFrom, h]

theorem scanFrom_append {offset : Nat} (h : Unmarked markers before after) :
    scanFrom (fun _ => true) markers offset (before ++ after) =
      scanFrom (fun _ => true) markers (offset + byteLength before) after := by
  induction before generalizing offset with
  | nil => simp
  | cons c before ih =>
      rw [List.cons_append, scanFrom, if_pos rfl, h.1, ih h.2, byteLength_cons, Nat.add_assoc]

theorem scanFrom_of_unmarked {offset : Nat} (h : Unmarked markers text []) :
    scanFrom (fun _ => true) markers offset text = none := by
  have hscan : scanFrom (fun _ => true) markers offset (text ++ []) = _ := scanFrom_append h
  simpa [scanFrom] using hscan

theorem scanFrom_candidate {candidate : Char → Bool} {offset : Nat}
    (hcandidate : ∀ c rest, markerAt? markers (c :: rest) ≠ none → candidate c = true) :
    scanFrom candidate markers offset text =
      scanFrom (fun _ => true) markers offset text := by
  induction text generalizing offset with
  | nil => rfl
  | cons c text ih =>
      cases hhead : markerAt? markers (c :: text) with
      | some found =>
          have hc : candidate c = true := hcandidate c text (by simp [hhead])
          simp [scanFrom, hc, hhead]
      | none => simpa [scanFrom, hhead] using ih

theorem leadByte_mem_leadBytes {c : Char} (h : markerAt? markers (c :: rest) ≠ none) :
    leadByte c ∈ leadBytes markers := by
  obtain ⟨marker, hmarker⟩ := Option.ne_none_iff_exists'.mp h
  obtain ⟨hmem, hne, hbegins⟩ := of_markerAt?_eq_some hmarker
  obtain ⟨d, tail, rfl⟩ := List.exists_cons_of_ne_nil hne
  obtain ⟨rfl, -⟩ := List.cons_prefix_cons.mp hbegins
  rw [leadBytes, List.mem_eraseDups, List.mem_filterMap]
  exact ⟨d :: tail, hmem, rfl⟩

theorem unmarked_of_leadBytes_eq_nil (h : leadBytes markers = []) :
    Unmarked markers before after := by
  induction before with
  | nil => exact unmarked_nil
  | cons c before ih =>
      refine ⟨?_, ih⟩
      by_contra hmarker
      have hmem := leadByte_mem_leadBytes hmarker
      simp [h] at hmem

theorem offsetOfAny?_eq_scanFrom :
    offsetOfAny? markers text = scanFrom (fun _ => true) markers 0 text := by
  rw [offsetOfAny?]
  split
  · next hleads => exact (scanFrom_of_unmarked (unmarked_of_leadBytes_eq_nil hleads)).symm
  · split
    · apply scanFrom_candidate
      intro c rest hmarker
      simpa using leadByte_mem_leadBytes hmarker
    · rfl

theorem offsetOfAny?_eq_none_iff :
    offsetOfAny? markers text = none ↔ Unmarked markers text [] := by
  rw [offsetOfAny?_eq_scanFrom]
  constructor
  · intro h
    rcases unmarked_or_marked markers text with htext | ⟨before, after, marker, rfl, hbefore, hafter⟩
    · exact htext
    · rw [scanFrom_append hbefore, scanFrom_of_markerAt? hafter] at h
      cases h
  · exact scanFrom_of_unmarked

theorem offsetOfAny?_eq_some_iff {offset : Nat} :
    offsetOfAny? markers text = some (offset, marker) ↔
      ∃ before after, text = before ++ after ∧ byteLength before = offset ∧
        Unmarked markers before after ∧ markerAt? markers after = some marker := by
  rw [offsetOfAny?_eq_scanFrom]
  constructor
  · intro h
    rcases unmarked_or_marked markers text with htext | ⟨before, after, found, rfl, hbefore, hafter⟩
    · rw [scanFrom_of_unmarked htext] at h
      cases h
    · rw [scanFrom_append hbefore, scanFrom_of_markerAt? hafter] at h
      cases h
      exact ⟨before, after, rfl, (Nat.zero_add _).symm, hbefore, hafter⟩
  · rintro ⟨before, after, rfl, rfl, hbefore, hafter⟩
    rw [scanFrom_append hbefore, scanFrom_of_markerAt? hafter, Nat.zero_add]

/-! ## The search for one marker -/

theorem markerAt?_singleton (hmarker : marker ≠ []) :
    markerAt? [marker] text = if marker.isPrefixOf text then some marker else none := by
  have hfilled : marker.isEmpty = false := by simpa using hmarker
  cases hbegins : marker.isPrefixOf text <;> simp [markerAt?, List.find?, hfilled, hbegins]

theorem offsetOfFrom?_eq_scanFrom (hmarker : marker ≠ []) {offset : Nat} :
    offsetOfFrom? marker offset text =
      (scanFrom (fun _ => true) [marker] offset text).map Prod.fst := by
  induction text generalizing offset with
  | nil => simp [offsetOfFrom?, scanFrom, hmarker]
  | cons c text ih =>
      rw [offsetOfFrom?, scanFrom, if_pos rfl, markerAt?_singleton hmarker]
      split
      · rfl
      · exact ih

theorem offsetOf?_eq_offsetOfAny? (hmarker : marker ≠ []) :
    offsetOf? marker text = (offsetOfAny? [marker] text).map Prod.fst := by
  rw [offsetOf?, offsetOfFrom?_eq_scanFrom hmarker, offsetOfAny?_eq_scanFrom]

theorem offsetOf?_eq_none_iff (hmarker : marker ≠ []) :
    offsetOf? marker text = none ↔ Unmarked [marker] text [] := by
  rw [offsetOf?_eq_offsetOfAny? hmarker, Option.map_eq_none_iff, offsetOfAny?_eq_none_iff]

theorem offsetOf?_eq_some_iff (hmarker : marker ≠ []) {offset : Nat} :
    offsetOf? marker text = some offset ↔
      ∃ before after, text = before ++ marker ++ after ∧ byteLength before = offset ∧
        Unmarked [marker] before (marker ++ after) := by
  rw [offsetOf?_eq_offsetOfAny? hmarker]
  simp only [Option.map_eq_some_iff, Prod.exists, exists_and_right, exists_eq_right,
    offsetOfAny?_eq_some_iff]
  constructor
  · rintro ⟨found, before, after, rfl, rfl, hbefore, hafter⟩
    obtain ⟨hmem, -, rest, rfl⟩ := of_markerAt?_eq_some hafter
    obtain rfl := List.mem_singleton.mp hmem
    exact ⟨before, rest, (List.append_assoc ..).symm, rfl, hbefore⟩
  · rintro ⟨before, after, rfl, rfl, hbefore⟩
    refine ⟨marker, before, marker ++ after, List.append_assoc .., rfl, hbefore, ?_⟩
    rw [markerAt?_singleton hmarker, if_pos (by simp)]

theorem isLeast_occursAt_iff (hmarker : marker ≠ []) {offset : Nat} :
    IsLeast { offset | OccursAt marker text offset } offset ↔
      ∃ before after, text = before ++ marker ++ after ∧ byteLength before = offset ∧
        Unmarked [marker] before (marker ++ after) := by
  constructor
  · rintro ⟨hoccurs, hleast⟩
    obtain ⟨before, _, rfl, rfl, after, rfl⟩ := (occursAt_iff hmarker).mp hoccurs
    refine ⟨before, after, (List.append_assoc ..).symm, rfl, ?_⟩
    rw [unmarked_iff_occursAt]
    intro found hmem _ position hposition hfound
    obtain rfl := List.mem_singleton.mp hmem
    exact Nat.not_le_of_lt hposition (hleast hfound)
  · rintro ⟨before, after, rfl, rfl, hbefore⟩
    rw [List.append_assoc]
    refine ⟨occursAt_append.mpr (List.prefix_append _ _), ?_⟩
    intro position hposition
    by_contra hlt
    exact unmarked_iff_occursAt.mp hbefore marker (List.mem_singleton_self _) hmarker
      position (Nat.lt_of_not_le hlt) hposition

theorem unmarked_nil_right_iff_occursAt :
    Unmarked markers text [] ↔
      ∀ marker ∈ markers, marker ≠ [] → ∀ offset, ¬ OccursAt marker text offset := by
  rw [unmarked_iff_occursAt, List.append_nil]
  constructor
  · intro h marker hmem hne offset hoccurs
    have hlength := hoccurs.add_byteLength_le hne
    have hmarker := byteLength_pos hne
    exact h marker hmem hne offset (by omega) hoccurs
  · intro h marker hmem hne offset _
    exact h marker hmem hne offset

theorem unmarked_singleton_iff (hmarker : marker ≠ []) :
    Unmarked [marker] text [] ↔ ∀ offset, ¬ OccursAt marker text offset := by
  simp [unmarked_nil_right_iff_occursAt, hmarker]

end

end Text

end TemplateLexer
