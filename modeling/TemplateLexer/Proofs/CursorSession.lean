import TemplateLexer.Proofs.Cursor

/-!
# Cursors in use

Whatever steps a session takes, its cursors stand where the source can be cut,
and what remains is the source from there on.  A step goes forward unless it
restores a saved cursor, and what it passes over can be read off its result: it
passes over nothing when no marker that it looks for occurs ahead.
-/

namespace TemplateLexer

namespace Cursor

open Text

section

variable {marker : Text} {cursor : Cursor} {source : Text}

/-- The source can be cut where the cursor stands, and what remains is the source from there on. -/
structure StandsIn (source : Text) (cursor : Cursor) : Prop where
  pos_le : cursor.pos ≤ source.byteLength
  splitAt?_pos : ∃ behind, source.splitAt? cursor.pos = some (behind, cursor.remaining)
  isEmpty_iff_remaining : cursor.isEmpty ↔ cursor.remaining = []
  isEmpty_iff_pos : cursor.isEmpty ↔ source.byteLength ≤ cursor.pos

theorem isEmpty_iff : cursor.isEmpty ↔ cursor.remaining = [] :=
  List.isEmpty_iff

theorem Within.standsIn (h : cursor.Within source) : cursor.StandsIn source where
  pos_le := by
    obtain ⟨behind, rfl, hbehind⟩ := h
    rw [byteLength_append, hbehind]
    exact Nat.le_add_right _ _
  splitAt?_pos := h.splitAt?_pos
  isEmpty_iff_remaining := isEmpty_iff
  isEmpty_iff_pos := by
    obtain ⟨behind, rfl, hbehind⟩ := h
    rw [isEmpty_iff, byteLength_append, hbehind]
    constructor
    · intro hremaining
      simp [hremaining]
    · intro hle
      by_contra hne
      have := byteLength_pos hne
      omega

theorem seekAny?_eq_none_iff_absent {markers : List Text} :
    cursor.seekAny? markers = none ↔
      ∀ marker ∈ markers, marker ≠ [] → ¬ marker <:+: cursor.remaining := by
  rw [seekAny?_eq_none_iff, unmarked_nil_right_iff]

theorem takePast?_of_absent (h : marker = [] ∨ ¬ marker <:+: cursor.remaining)
    (includeMarker : Bool) :
    cursor.takePast? marker includeMarker = none ∨
      cursor.takePast? marker includeMarker = some ([], cursor) := by
  by_cases hmarker : marker = []
  · right
    rw [takePast?, if_pos (by simpa using hmarker)]
  · left
    rw [takePast?_eq_none_iff hmarker, unmarked_singleton_nil_iff hmarker]
    exact h.resolve_left hmarker

theorem exists_takePast?_of_present (hmarker : marker ≠ []) (h : marker <:+: cursor.remaining)
    (includeMarker : Bool) :
    ∃ before next, cursor.remaining = before ++ marker ++ next.remaining ∧
      next.pos = cursor.pos + (before ++ marker).byteLength ∧
      cursor.takePast? marker includeMarker =
        some (if includeMarker then before ++ marker else before, next) := by
  have hfound : cursor.takePast? marker includeMarker ≠ none := by
    rw [Ne, takePast?_eq_none_iff hmarker, unmarked_singleton_nil_iff hmarker]
    exact not_not_intro h
  obtain ⟨⟨passed, next⟩, htake⟩ := Option.ne_none_iff_exists'.mp hfound
  obtain ⟨before, hsplit, hpos, -, rfl⟩ := (takePast?_eq_some_iff hmarker).mp htake
  exact ⟨before, next, hsplit, hpos, htake⟩

theorem isSome_splitAt?_of_occursAt {text : Text} {offset : Nat} (hmarker : marker ≠ [])
    (h : marker.OccursAt text offset) :
    (text.splitAt? offset).isSome ∧ (text.splitAt? (offset + marker.byteLength)).isSome := by
  obtain ⟨before, after, rfl, rfl, rest, rfl⟩ := (occursAt_iff hmarker).mp h
  constructor
  · rw [splitAt?_append]
    rfl
  · rw [← byteLength_append, ← List.append_assoc, splitAt?_append]
    rfl

end

/-! ## Steps -/

namespace Session

/--
The step passes over nothing: it does not go forward at all, or it has no
marker to look for, or none that it looks for occurs ahead.
-/
def Step.IsIdle (remaining : Text) : Step → Prop
  | .observe | .save | .restore => True
  | .seekAny markers => ∀ marker ∈ markers, marker ≠ [] → ¬ marker <:+: remaining
  | .takePast marker _ | .tryTakePast marker _ => marker = [] ∨ ¬ marker <:+: remaining
  | .takeRest => False

instance (remaining : Text) : (step : Step) → Decidable (step.IsIdle remaining)
  | .observe | .save | .restore => inferInstanceAs (Decidable True)
  | .seekAny markers =>
      inferInstanceAs (Decidable (∀ marker ∈ markers, marker ≠ [] → ¬ marker <:+: remaining))
  | .takePast marker _ | .tryTakePast marker _ =>
      inferInstanceAs (Decidable (marker = [] ∨ ¬ marker <:+: remaining))
  | .takeRest => inferInstanceAs (Decidable False)

def Step.unreturned : Step → Text
  | .takePast marker false | .tryTakePast marker false => marker
  | _ => []

def Result.text : Result → Text
  | .nothing => []
  | .passed text => text
  | .found _ before => before

/-- What the step passes over, as its result shows it. -/
def Step.consumed (remaining : Text) (step : Step) (result : Result) : Text :=
  if step.IsIdle remaining then [] else result.text ++ step.unreturned

/-- The step may cut what remains at the offset: the bytes of its marker begin or end there. -/
def Step.MayCutAt (remaining : Text) (offset : Nat) : Step → Prop
  | .seekAny markers => ∃ marker ∈ markers, marker ≠ [] ∧ marker.OccursAt remaining offset
  | .takePast marker _ | .tryTakePast marker _ =>
      marker ≠ [] ∧ ∃ first, marker.OccursAt remaining first ∧
        (offset = first ∨ offset = first + marker.byteLength)
  | _ => False

section

variable {session : Session} {step : Step} {remaining : Text}

theorem Step.MayCutAt.isSome_splitAt? {offset : Nat} (h : step.MayCutAt remaining offset) :
    (remaining.splitAt? offset).isSome := by
  cases step with
  | seekAny markers =>
      obtain ⟨marker, -, hmarker, hoccurs⟩ := h
      exact (isSome_splitAt?_of_occursAt hmarker hoccurs).1
  | takePast marker includeMarker =>
      obtain ⟨hmarker, first, hoccurs, rfl | rfl⟩ := h
      · exact (isSome_splitAt?_of_occursAt hmarker hoccurs).1
      · exact (isSome_splitAt?_of_occursAt hmarker hoccurs).2
  | tryTakePast marker includeMarker =>
      obtain ⟨hmarker, first, hoccurs, rfl | rfl⟩ := h
      · exact (isSome_splitAt?_of_occursAt hmarker hoccurs).1
      · exact (isSome_splitAt?_of_occursAt hmarker hoccurs).2
  | observe => exact h.elim
  | takeRest => exact h.elim
  | save => exact h.elim
  | restore => exact h.elim

theorem perform_of_isIdle (hstep : step ≠ .restore) (h : step.IsIdle session.current.remaining) :
    (session.perform step).1.text = [] ∧ (session.perform step).2.current = session.current := by
  cases step with
  | observe => exact ⟨rfl, rfl⟩
  | seekAny markers =>
      rw [perform, seekAny?_eq_none_iff_absent.mpr h]
      exact ⟨rfl, rfl⟩
  | takePast marker includeMarker =>
      rcases takePast?_of_absent h includeMarker with htake | htake
      · simp [perform, takePast, htake, Result.text]
      · simp [perform, takePast, htake, Result.text]
  | tryTakePast marker includeMarker =>
      rcases takePast?_of_absent h includeMarker with htake | htake
      · rw [perform, htake]
        exact ⟨rfl, rfl⟩
      · rw [perform, htake]
        exact ⟨rfl, rfl⟩
  | takeRest => exact h.elim
  | save => exact ⟨rfl, rfl⟩
  | restore => exact absurd rfl hstep

theorem perform_of_not_isIdle (h : ¬ step.IsIdle session.current.remaining) :
    (session.perform step).1 ≠ .nothing ∧
      session.current.remaining = (session.perform step).1.text ++ step.unreturned ++
        (session.perform step).2.current.remaining ∧
      (session.perform step).2.current.pos = session.current.pos +
        ((session.perform step).1.text ++ step.unreturned).byteLength := by
  cases step with
  | observe => exact absurd trivial h
  | save => exact absurd trivial h
  | restore => exact absurd trivial h
  | takeRest =>
      simp [perform, takeRest, Result.text, Step.unreturned]
  | seekAny markers =>
      have hfound : session.current.seekAny? markers ≠ none :=
        fun hnone => h (seekAny?_eq_none_iff_absent.mp hnone)
      obtain ⟨⟨marker, before, next⟩, hseek⟩ := Option.ne_none_iff_exists'.mp hfound
      obtain ⟨hsplit, hpos, -, -⟩ := seekAny?_eq_some_iff.mp hseek
      simp [perform, hseek, Result.text, Step.unreturned, ← hsplit, hpos]
  | takePast marker includeMarker =>
      obtain ⟨hmarker, hpresent⟩ := not_or.mp h
      obtain ⟨before, next, hsplit, hpos, htake⟩ :=
        exists_takePast?_of_present hmarker (not_not.mp hpresent) includeMarker
      cases includeMarker <;>
        simpa [perform, takePast, htake, Result.text, Step.unreturned, hpos] using hsplit
  | tryTakePast marker includeMarker =>
      obtain ⟨hmarker, hpresent⟩ := not_or.mp h
      obtain ⟨before, next, hsplit, hpos, htake⟩ :=
        exists_takePast?_of_present hmarker (not_not.mp hpresent) includeMarker
      cases includeMarker <;>
        simpa [perform, htake, Result.text, Step.unreturned, hpos] using hsplit

theorem remaining_eq_consumed_append (hstep : step ≠ .restore) :
    session.current.remaining =
      step.consumed session.current.remaining (session.perform step).1 ++
        (session.perform step).2.current.remaining := by
  rw [Step.consumed]
  split
  · next hidle => rw [(perform_of_isIdle hstep hidle).2, List.nil_append]
  · next hactive => exact (perform_of_not_isIdle hactive).2.1

theorem pos_le_pos_perform (hstep : step ≠ .restore) :
    session.current.pos ≤ (session.perform step).2.current.pos := by
  by_cases hidle : step.IsIdle session.current.remaining
  · rw [(perform_of_isIdle hstep hidle).2]
  · rw [(perform_of_not_isIdle hidle).2.2]
    exact Nat.le_add_right _ _

end

def consumedBy (session : Session) : List Step → Text
  | [] => []
  | first :: steps =>
      let (result, next) := session.perform first
      first.consumed session.current.remaining result ++ next.consumedBy steps

theorem pos_le_pos_run {session : Session} {steps : List Step} (hsteps : .restore ∉ steps) :
    session.current.pos ≤ (session.run steps).2.current.pos := by
  induction steps generalizing session with
  | nil => exact Nat.le_refl _
  | cons first steps ih =>
      obtain ⟨hfirst, hsteps⟩ := List.ne_and_not_mem_of_not_mem_cons hsteps
      exact (pos_le_pos_perform hfirst.symm).trans (ih hsteps)

theorem remaining_eq_consumedBy_append {session : Session} {steps : List Step}
    (hsteps : .restore ∉ steps) :
    session.current.remaining =
      session.consumedBy steps ++ (session.run steps).2.current.remaining := by
  induction steps generalizing session with
  | nil => rfl
  | cons first steps ih =>
      obtain ⟨hfirst, hsteps⟩ := List.ne_and_not_mem_of_not_mem_cons hsteps
      let passed := first.consumed session.current.remaining (session.perform first).1
      let next := (session.perform first).2
      calc session.current.remaining
          _ = passed ++ next.current.remaining := remaining_eq_consumed_append hfirst.symm
          _ = passed ++ (next.consumedBy steps ++ (next.run steps).2.current.remaining) := by
            rw [← ih hsteps]
          _ = session.consumedBy (first :: steps) ++
                (session.run (first :: steps)).2.current.remaining :=
            (List.append_assoc passed _ _).symm

example :
    let session := start "né§x".toList
    let steps : List Step := [.takePast "é".toList false, .seekAny ["y".toList]]
    (session.run steps).2.current = ⟨3, "§x".toList⟩ ∧
      session.consumedBy steps = "né".toList := by
  decide

end Session

end Cursor

end TemplateLexer
