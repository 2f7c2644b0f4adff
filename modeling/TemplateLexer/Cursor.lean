import TemplateLexer.Text.Search

/-!
# Cursors

A cursor is a place in a text: the offset of the place and the text from
there on.  Every operation gives back the text it passes over together with
the cursor behind it, and has no result, so that the caller keeps the cursor
it has, when the marker it looks for does not occur.
-/

namespace TemplateLexer

structure Cursor where
  pos : Nat
  remaining : Text
  deriving DecidableEq, Repr

namespace Cursor

def start (source : Text) : Cursor :=
  ⟨0, source⟩

def isEmpty (cursor : Cursor) : Bool :=
  cursor.remaining.isEmpty

def advance? (cursor : Cursor) (count : Nat) : Option (Text × Cursor) :=
  (cursor.remaining.splitAt? count).map fun (passed, rest) =>
    (passed, ⟨cursor.pos + count, rest⟩)

/--
Go to the first occurrence of any marker and stop in front of it.  The result
is the marker, the text passed over and the cursor at the marker.
-/
def seekAny? (markers : List Text) (cursor : Cursor) :
    Option (Text × Text × Cursor) := do
  let (offset, marker) ← Text.offsetOfAny? markers cursor.remaining
  let (before, next) ← cursor.advance? offset
  some (marker, before, next)

/--
Go past the first occurrence of a marker.  The text before it is returned,
with the marker when `includeMarker` is set.  The empty marker stands
everywhere, so nothing is passed over.
-/
def takePast? (marker : Text) (includeMarker : Bool) (cursor : Cursor) :
    Option (Text × Cursor) :=
  if marker.isEmpty then some ([], cursor)
  else do
    let offset ← Text.offsetOf? marker cursor.remaining
    let (through, next) ← cursor.advance? (offset + marker.byteLength)
    let (before, _) ← cursor.advance? offset
    some (if includeMarker then through else before, next)

def takePast (marker : Text) (includeMarker : Bool) (cursor : Cursor) :
    Text × Cursor :=
  (cursor.takePast? marker includeMarker).getD ([], cursor)

def takeRest (cursor : Cursor) : Text × Cursor :=
  (cursor.remaining, ⟨cursor.pos + cursor.remaining.byteLength, []⟩)

theorem advance?_eq_some_iff {cursor next : Cursor} {count : Nat} {passed : Text} :
    cursor.advance? count = some (passed, next) ↔
      cursor.remaining = passed ++ next.remaining ∧
        passed.byteLength = count ∧ next.pos = cursor.pos + count := by
  rw [advance?, Option.map_eq_some_iff]
  constructor
  · rintro ⟨⟨before, after⟩, hsplit, heq⟩
    cases heq
    obtain ⟨happend, hlength⟩ := Text.splitAt?_eq_some_iff.mp hsplit
    exact ⟨happend, hlength, rfl⟩
  · rintro ⟨happend, hlength, hpos⟩
    refine ⟨(passed, next.remaining), ?_, ?_⟩
    · exact Text.splitAt?_eq_some_iff.mpr ⟨happend, hlength⟩
    · rw [← hpos]

theorem remaining_of_seekAny? {markers : List Text} {cursor next : Cursor}
    {marker before : Text}
    (h : cursor.seekAny? markers = some (marker, before, next)) :
    cursor.remaining = before ++ next.remaining := by
  simp only [seekAny?, bind, Option.bind_eq_some_iff] at h
  obtain ⟨⟨offset, found⟩, -, ⟨passed, behind⟩, hadvance, heq⟩ := h
  cases heq
  exact (advance?_eq_some_iff.mp hadvance).1

theorem length_remaining_lt_of_takePast? {marker : Text} {includeMarker : Bool}
    {cursor next : Cursor} {passed : Text} (hmarker : marker ≠ [])
    (h : cursor.takePast? marker includeMarker = some (passed, next)) :
    next.remaining.length < cursor.remaining.length := by
  rw [takePast?, if_neg (by simpa using hmarker)] at h
  simp only [bind, Option.bind_eq_some_iff] at h
  obtain ⟨offset, -, ⟨through, behind⟩, hthrough, ⟨before, other⟩, -, heq⟩ := h
  cases heq
  obtain ⟨happend, hlength, -⟩ := advance?_eq_some_iff.mp hthrough
  have hpos : 0 < marker.byteLength :=
    Nat.lt_of_lt_of_le (List.length_pos_iff.mpr hmarker) (Text.length_le_byteLength marker)
  have hne : through ≠ [] := by
    rintro rfl
    rw [Text.byteLength_nil] at hlength
    omega
  have := List.length_pos_iff.mpr hne
  show behind.remaining.length < cursor.remaining.length
  rw [happend, List.length_append]
  omega

end Cursor

end TemplateLexer
