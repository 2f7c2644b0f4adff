import TemplateLexer.Cursor.Session
import TemplateLexer.Proofs.Text.Search

/-!
# Cursor operations

Each operation is characterised by the text that it passes over and the cursor
behind it.  A cursor that was made for a source stays inside it: what lies
behind the cursor and what remains make up the source, and the position counts
the bytes behind it.  Every step of a session keeps this.
-/

namespace TemplateLexer

namespace Cursor

open Text

variable {markers : List Text} {marker before text passed : Text} {cursor next : Cursor}

theorem advance?_of_append (h : cursor.remaining = passed ++ text) :
    cursor.advance? passed.byteLength = some (passed, ⟨cursor.pos + passed.byteLength, text⟩) :=
  advance?_eq_some_iff.mpr ⟨h, rfl, rfl⟩

theorem seekAny?_eq_none_iff :
    cursor.seekAny? markers = none ↔ Unmarked markers cursor.remaining [] := by
  rw [← offsetOfAny?_eq_none_iff, seekAny?]
  cases hfound : offsetOfAny? markers cursor.remaining with
  | none => simp
  | some found =>
      obtain ⟨offset, marker⟩ := found
      obtain ⟨before, after, hsplit, rfl, -, -⟩ := offsetOfAny?_eq_some_iff.mp hfound
      simp [advance?_of_append hsplit]

theorem seekAny?_eq_some_iff :
    cursor.seekAny? markers = some (marker, before, next) ↔
      cursor.remaining = before ++ next.remaining ∧
        next.pos = cursor.pos + before.byteLength ∧
        Unmarked markers before next.remaining ∧
        markerAt? markers next.remaining = some marker := by
  constructor
  · intro h
    simp only [seekAny?, bind, Option.bind_eq_some_iff] at h
    obtain ⟨⟨offset, found⟩, hfound, ⟨passed, behind⟩, hadvance, heq⟩ := h
    cases heq
    obtain ⟨front, back, hsplit, rfl, hfront, hback⟩ := offsetOfAny?_eq_some_iff.mp hfound
    rw [advance?_of_append hsplit] at hadvance
    cases hadvance
    exact ⟨hsplit, rfl, hfront, hback⟩
  · rintro ⟨hsplit, hpos, hbefore, hmarker⟩
    have hfound : offsetOfAny? markers cursor.remaining = some (before.byteLength, marker) :=
      offsetOfAny?_eq_some_iff.mpr ⟨before, next.remaining, hsplit, rfl, hbefore, hmarker⟩
    simp [seekAny?, hfound, advance?_of_append hsplit, ← hpos]

theorem takePast?_eq_none_iff (hmarker : marker ≠ []) {includeMarker : Bool} :
    cursor.takePast? marker includeMarker = none ↔
      Unmarked [marker] cursor.remaining [] := by
  rw [← offsetOf?_eq_none_iff hmarker, takePast?, if_neg (by simpa using hmarker)]
  cases hfound : offsetOf? marker cursor.remaining with
  | none => simp
  | some offset =>
      obtain ⟨before, after, hsplit, rfl, -⟩ := (offsetOf?_eq_some_iff hmarker).mp hfound
      have hthrough := advance?_of_append hsplit
      rw [byteLength_append] at hthrough
      rw [List.append_assoc] at hsplit
      simp [hthrough, advance?_of_append hsplit]

theorem takePast?_eq_some_iff (hmarker : marker ≠ []) {includeMarker : Bool} :
    cursor.takePast? marker includeMarker = some (passed, next) ↔
      ∃ before, cursor.remaining = before ++ marker ++ next.remaining ∧
        next.pos = cursor.pos + (before ++ marker).byteLength ∧
        Unmarked [marker] before (marker ++ next.remaining) ∧
        passed = if includeMarker then before ++ marker else before := by
  rw [takePast?, if_neg (by simpa using hmarker)]
  constructor
  · intro h
    simp only [bind, Option.bind_eq_some_iff] at h
    obtain ⟨offset, hfound, ⟨through, behind⟩, hthrough, ⟨front, other⟩, hfront, heq⟩ := h
    cases heq
    obtain ⟨before, after, hsplit, rfl, hbefore⟩ := (offsetOf?_eq_some_iff hmarker).mp hfound
    rw [← byteLength_append, advance?_of_append hsplit] at hthrough
    cases hthrough
    rw [advance?_of_append ((List.append_assoc ..).symm.trans hsplit.symm).symm] at hfront
    cases hfront
    exact ⟨front, hsplit, rfl, hbefore, rfl⟩
  · rintro ⟨before, hsplit, hpos, hbefore, rfl⟩
    have hfound : offsetOf? marker cursor.remaining = some before.byteLength :=
      (offsetOf?_eq_some_iff hmarker).mpr ⟨before, next.remaining, hsplit, rfl, hbefore⟩
    have hthrough := advance?_of_append hsplit
    rw [← hpos, byteLength_append] at hthrough
    rw [List.append_assoc] at hsplit
    simp [hfound, hthrough, advance?_of_append hsplit]

/-- What lies behind the cursor and what remains make up the source. -/
def Within (source : Text) (cursor : Cursor) : Prop :=
  ∃ behind, source = behind ++ cursor.remaining ∧ behind.byteLength = cursor.pos

theorem within_start (source : Text) : Within source (start source) :=
  ⟨[], rfl, rfl⟩

theorem Within.splitAt?_pos {source : Text} (h : Within source cursor) :
    ∃ behind, source.splitAt? cursor.pos = some (behind, cursor.remaining) := by
  obtain ⟨behind, rfl, hbehind⟩ := h
  exact ⟨behind, splitAt?_eq_some_iff.mpr ⟨rfl, hbehind⟩⟩

theorem Within.of_passed {source : Text} (h : Within source cursor)
    (hsplit : cursor.remaining = passed ++ next.remaining)
    (hpos : next.pos = cursor.pos + passed.byteLength) : Within source next := by
  obtain ⟨behind, rfl, hbehind⟩ := h
  refine ⟨behind ++ passed, ?_, ?_⟩
  · rw [hsplit, List.append_assoc]
  · rw [byteLength_append, hbehind, hpos]

theorem Within.of_seekAny? {source : Text} (h : Within source cursor)
    (hseek : cursor.seekAny? markers = some (marker, before, next)) :
    Within source next := by
  obtain ⟨hsplit, hpos, -, -⟩ := seekAny?_eq_some_iff.mp hseek
  exact h.of_passed hsplit hpos

theorem Within.of_takePast? {source : Text} {includeMarker : Bool} (h : Within source cursor)
    (htake : cursor.takePast? marker includeMarker = some (passed, next)) :
    Within source next := by
  by_cases hmarker : marker = []
  · subst hmarker
    cases htake
    exact h
  · obtain ⟨before, hsplit, hpos, -, -⟩ := (takePast?_eq_some_iff hmarker).mp htake
    exact h.of_passed hsplit hpos

theorem Within.takePast {source : Text} (h : Within source cursor) (marker : Text)
    (includeMarker : Bool) : Within source (cursor.takePast marker includeMarker).2 := by
  rw [Cursor.takePast]
  cases htake : cursor.takePast? marker includeMarker with
  | none => exact h
  | some result => exact h.of_takePast? htake

theorem Within.takeRest {source : Text} (h : Within source cursor) :
    Within source cursor.takeRest.2 :=
  h.of_passed (List.append_nil _).symm rfl

namespace Session

def Within (source : Text) (session : Session) : Prop :=
  session.current.Within source ∧ session.saved.Within source

theorem within_start (source : Text) : Within source (start source) :=
  ⟨Cursor.within_start source, Cursor.within_start source⟩

theorem Within.perform {source : Text} {session : Session} (h : Within source session)
    (step : Step) : Within source (session.perform step).2 := by
  obtain ⟨hcurrent, hsaved⟩ := h
  cases step with
  | observe => exact ⟨hcurrent, hsaved⟩
  | seekAny markers =>
      rw [Session.perform]
      split
      · exact ⟨hcurrent, hsaved⟩
      · next hseek => exact ⟨hcurrent.of_seekAny? hseek, hsaved⟩
  | takePast marker includeMarker => exact ⟨hcurrent.takePast marker includeMarker, hsaved⟩
  | tryTakePast marker includeMarker =>
      rw [Session.perform]
      split
      · exact ⟨hcurrent, hsaved⟩
      · next htake => exact ⟨hcurrent.of_takePast? htake, hsaved⟩
  | takeRest => exact ⟨hcurrent.takeRest, hsaved⟩
  | save => exact ⟨hcurrent, hcurrent⟩
  | restore => exact ⟨hsaved, hsaved⟩

theorem Within.run {source : Text} {session : Session} (h : Within source session)
    (steps : List Step) : Within source (session.run steps).2 := by
  induction steps generalizing session with
  | nil => exact h
  | cons first steps ih => exact ih (h.perform first)

end Session

end Cursor

end TemplateLexer
