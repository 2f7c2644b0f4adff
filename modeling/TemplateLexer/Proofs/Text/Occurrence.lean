import Mathlib.Data.List.Infix
import TemplateLexer.Text

/-!
# Where a marker occurs

A marker occurs in a text at a byte offset when its bytes stand among the
bytes of the text from there on.  The encoding synchronises itself: no first
byte of a character is found inside another one, and no encoded character is a
proper prefix of another.  So a marker that is not empty occurs only where the
text can be cut, and there it occurs exactly when its characters do.
-/

namespace TemplateLexer

namespace Text

@[simp] theorem utf8_nil : utf8 [] = [] := rfl

@[simp] theorem utf8_cons (c : Char) (rest : Text) :
    utf8 (c :: rest) = String.utf8EncodeChar c ++ utf8 rest := rfl

@[simp] theorem utf8_append (before after : Text) :
    utf8 (before ++ after) = utf8 before ++ utf8 after := by
  simp [utf8]

theorem byteLength_pos {text : Text} (htext : text ≠ []) : 0 < byteLength text :=
  Nat.lt_of_lt_of_le (List.length_pos_iff.mpr htext) (length_le_byteLength text)

/-- The bytes of the marker stand in the bytes of the text at the offset. -/
def OccursAt (marker text : Text) (offset : Nat) : Prop :=
  utf8 marker <+: (utf8 text).drop offset

instance (marker text : Text) (offset : Nat) : Decidable (OccursAt marker text offset) :=
  inferInstanceAs (Decidable (utf8 marker <+: (utf8 text).drop offset))

theorem utf8EncodeChar_append_inj {c d : Char} {front back : List UInt8}
    (h : String.utf8EncodeChar c ++ front = String.utf8EncodeChar d ++ back) :
    c = d ∧ front = back := by
  have hdecode := congrArg (fun bytes => bytes.toByteArray.utf8DecodeChar? 0) h
  simp only [List.toByteArray_append,
    ByteArray.utf8DecodeChar?_utf8EncodeChar_append, Option.some.injEq] at hdecode
  subst hdecode
  exact ⟨rfl, List.append_cancel_left h⟩

theorem utf8_prefix_iff {marker text : Text} :
    utf8 marker <+: utf8 text ↔ marker <+: text := by
  constructor
  · intro h
    induction marker generalizing text with
    | nil => exact List.nil_prefix
    | cons c marker ih =>
        obtain ⟨bytes, hbytes⟩ := h
        rw [utf8_cons, List.append_assoc] at hbytes
        cases text with
        | nil =>
            have hlength := congrArg List.length hbytes
            have hpos := c.utf8Size_pos
            simp only [List.length_append, String.length_utf8EncodeChar, utf8_nil,
              List.length_nil] at hlength
            omega
        | cons d rest =>
            rw [utf8_cons] at hbytes
            obtain ⟨rfl, htail⟩ := utf8EncodeChar_append_inj hbytes
            exact (List.cons_prefix_cons).mpr ⟨rfl, ih ⟨bytes, htail⟩⟩
  · rintro ⟨rest, rfl⟩
    rw [utf8_append]
    exact List.prefix_append _ _

theorem occursAt_append_add {marker before after : Text} {offset : Nat} :
    OccursAt marker (before ++ after) (byteLength before + offset) ↔
      OccursAt marker after offset := by
  rw [OccursAt, OccursAt, utf8_append, ← length_utf8, List.drop_length_add_append]

theorem occursAt_append {marker before after : Text} :
    OccursAt marker (before ++ after) (byteLength before) ↔ marker <+: after := by
  rw [← Nat.add_zero (byteLength before), occursAt_append_add, OccursAt, List.drop_zero,
    utf8_prefix_iff]

theorem exists_cut_of_occursAt {marker text : Text} {offset : Nat}
    (hmarker : marker ≠ []) (h : OccursAt marker text offset) :
    ∃ before after, text = before ++ after ∧ byteLength before = offset := by
  obtain ⟨m, marker, rfl⟩ := List.exists_cons_of_ne_nil hmarker
  obtain ⟨bytes, hbytes⟩ := h
  have hm := m.utf8Size_pos
  induction text generalizing offset with
  | nil =>
      have hlength := congrArg List.length hbytes
      simp only [utf8_cons, List.append_assoc, List.length_append,
        String.length_utf8EncodeChar, utf8_nil, List.drop_nil, List.length_nil] at hlength
      omega
  | cons c rest ih =>
      rcases Nat.lt_or_ge offset c.utf8Size with hinside | hbehind
      · -- Inside a character only offset zero carries a first byte.
        have hlt : offset < (String.utf8EncodeChar c).length := by
          rwa [String.length_utf8EncodeChar]
        have hlead : 0 < (String.utf8EncodeChar m).length := by
          rwa [String.length_utf8EncodeChar]
        have hbyte : (String.utf8EncodeChar c)[offset] = (String.utf8EncodeChar m)[0] := by
          have hget := congrArg (fun list => list[0]?) hbytes
          simpa [List.getElem?_append, hm, hinside] using hget.symm
        have hfirst : (String.utf8EncodeChar c)[offset].IsUTF8FirstByte := by
          rw [hbyte]
          exact UInt8.isUTF8FirstByte_getElem_zero_utf8EncodeChar
        have hzero := UInt8.isUTF8FirstByte_getElem_utf8EncodeChar.mp hfirst
        exact ⟨[], c :: rest, rfl, hzero.symm⟩
      · have hdrop : (utf8 (c :: rest)).drop offset =
            (utf8 rest).drop (offset - c.utf8Size) := by
          rw [utf8_cons, List.drop_append, String.length_utf8EncodeChar,
            List.drop_eq_nil_of_le (by rwa [String.length_utf8EncodeChar]),
            List.nil_append]
        obtain ⟨before, after, rfl, hlength⟩ := ih (hdrop ▸ hbytes)
        refine ⟨c :: before, after, rfl, ?_⟩
        rw [byteLength_cons, hlength]
        omega

theorem occursAt_iff {marker text : Text} {offset : Nat} (hmarker : marker ≠ []) :
    OccursAt marker text offset ↔
      ∃ before after, text = before ++ after ∧ byteLength before = offset ∧
        marker <+: after := by
  constructor
  · intro h
    obtain ⟨before, after, rfl, rfl⟩ := exists_cut_of_occursAt hmarker h
    exact ⟨before, after, rfl, rfl, occursAt_append.mp h⟩
  · rintro ⟨before, after, rfl, rfl, h⟩
    exact occursAt_append.mpr h

theorem OccursAt.add_byteLength_le {marker text : Text} {offset : Nat} (hmarker : marker ≠ [])
    (h : OccursAt marker text offset) : offset + byteLength marker ≤ byteLength text := by
  obtain ⟨before, _, rfl, rfl, rest, rfl⟩ := (occursAt_iff hmarker).mp h
  simp

end Text

end TemplateLexer
