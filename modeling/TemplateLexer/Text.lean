/-!
# Texts and byte offsets

A text is its list of characters.  Every offset, position and length of this
library counts bytes of the UTF-8 encoding, so a text can be cut only where a
character begins or ends.  `Text.splitAt?` is the one operation that turns an
offset into a cut, and it has no answer at any other offset:
`splitAt?_eq_some_iff` characterises it by the two parts it produces.
-/

namespace TemplateLexer

abbrev Text := List Char

namespace Text

def utf8 (text : Text) : List UInt8 :=
  text.flatMap String.utf8EncodeChar

def byteLength (text : Text) : Nat :=
  text.foldr (fun c length => c.utf8Size + length) 0

@[simp] theorem byteLength_nil : byteLength [] = 0 := rfl

@[simp] theorem byteLength_cons (c : Char) (rest : Text) :
    byteLength (c :: rest) = c.utf8Size + byteLength rest := rfl

@[simp] theorem byteLength_append (before after : Text) :
    byteLength (before ++ after) = byteLength before + byteLength after := by
  induction before with
  | nil => simp
  | cons c before ih => simp [ih, Nat.add_assoc]

theorem length_utf8 (text : Text) : (utf8 text).length = byteLength text := by
  induction text with
  | nil => rfl
  | cons c rest ih =>
      rw [utf8, List.flatMap_cons, List.length_append,
        String.length_utf8EncodeChar, byteLength_cons, ← ih, utf8]

theorem length_le_byteLength (text : Text) : text.length ≤ byteLength text := by
  induction text with
  | nil => exact Nat.le_refl 0
  | cons c rest ih =>
      have := c.utf8Size_pos
      simp only [List.length_cons, byteLength_cons]
      omega

def charIndicesFrom (offset : Nat) : Text → List (Nat × Char)
  | [] => []
  | c :: rest => (offset, c) :: charIndicesFrom (offset + c.utf8Size) rest

def charIndices (text : Text) : List (Nat × Char) :=
  charIndicesFrom 0 text

/--
The parts before and after the offset.  There are none when the offset lies
inside a character or beyond the end.
-/
def splitAt? : Text → Nat → Option (Text × Text)
  | text, 0 => some ([], text)
  | [], _ + 1 => none
  | c :: rest, offset + 1 =>
      if c.utf8Size ≤ offset + 1 then
        (splitAt? rest (offset + 1 - c.utf8Size)).map fun (before, after) =>
          (c :: before, after)
      else none

def slice? (text : Text) (first last : Nat) : Option Text := do
  let (_, tail) ← text.splitAt? first
  if first ≤ last then
    let (part, _) ← tail.splitAt? (last - first)
    some part
  else none

@[simp] theorem splitAt?_zero (text : Text) : splitAt? text 0 = some ([], text) := by
  cases text <;> rfl

theorem splitAt?_append (before after : Text) :
    splitAt? (before ++ after) (byteLength before) = some (before, after) := by
  induction before with
  | nil => simp
  | cons c before ih =>
      have hpos := c.utf8Size_pos
      obtain ⟨n, hn⟩ : ∃ n, byteLength (c :: before) = n + 1 :=
        ⟨byteLength (c :: before) - 1, by simp only [byteLength_cons]; omega⟩
      have hrest : n + 1 - c.utf8Size = byteLength before := by
        rw [← hn, byteLength_cons]; omega
      have hle : c.utf8Size ≤ n + 1 := by
        rw [← hn, byteLength_cons]; omega
      rw [hn, List.cons_append, splitAt?, if_pos hle, hrest, ih]
      rfl

theorem splitAt?_eq_some_iff {text : Text} {offset : Nat} {before after : Text} :
    splitAt? text offset = some (before, after) ↔
      text = before ++ after ∧ byteLength before = offset := by
  constructor
  · intro h
    fun_induction splitAt? text offset generalizing before after with
    | case1 text => cases h; exact ⟨rfl, rfl⟩
    | case2 => cases h
    | case3 c rest offset hle ih =>
        obtain ⟨⟨before', after'⟩, hsplit, heq⟩ := Option.map_eq_some_iff.mp h
        cases heq
        obtain ⟨rfl, hlen⟩ := ih hsplit
        exact ⟨rfl, by rw [byteLength_cons, hlen]; omega⟩
    | case4 => cases h
  · rintro ⟨rfl, rfl⟩
    exact splitAt?_append before after

end Text

end TemplateLexer
