import TemplateLexer.Proofs.Text.Occurrence
import TemplateLexer.Proofs.Text.Trim

/-!
# Where the outer runs of a character end

The three offsets that trimming looks for are found unless every character they
may stand at is the one to trim.  Looking from the end is looking from the
beginning of the reversed text, with the offset counted from the other side.
-/

namespace TemplateLexer

namespace Text

/-- The run of `ch` that the text begins with ends at the offset, where another character begins. -/
def LeadingRunEndsAt (ch : Char) (text : Text) (offset : Nat) : Prop :=
  ∃ run c rest, text.splitAt? offset = some (run, c :: rest) ∧ (∀ d ∈ run, d = ch) ∧ c ≠ ch

/-- The run of `ch` that the text ends with begins at the offset, where another character ends. -/
def TrailingRunBeginsAt (ch : Char) (text : Text) (offset : Nat) : Prop :=
  ∃ front c run, text.splitAt? offset = some (front ++ [c], run) ∧ (∀ d ∈ run, d = ch) ∧ c ≠ ch

section

variable {ch : Char} {text : Text} {first last offset : Nat}

theorem byteLength_reverse (text : Text) : byteLength text.reverse = byteLength text := by
  induction text with
  | nil => rfl
  | cons c text ih =>
      rw [List.reverse_cons, byteLength_append, ih, byteLength_cons, byteLength_cons, byteLength_nil]
      omega

theorem forall_eq_or_exists_first_other (ch : Char) (text : Text) :
    (∀ d ∈ text, d = ch) ∨
      ∃ run c rest, text = run ++ c :: rest ∧ (∀ d ∈ run, d = ch) ∧ c ≠ ch := by
  obtain ⟨run, rest, rfl, hrun, hrest⟩ := exists_leading_run ch text
  cases rest with
  | nil => exact .inl (by simpa using hrun)
  | cons c rest => exact .inr ⟨run, c, rest, rfl, hrun, by simpa using hrest⟩

theorem forall_eq_or_exists_last_other (ch : Char) (text : Text) :
    (∀ d ∈ text, d = ch) ∨
      ∃ front c run, text = front ++ c :: run ∧ (∀ d ∈ run, d = ch) ∧ c ≠ ch := by
  rcases forall_eq_or_exists_first_other ch text.reverse with hall | ⟨run, c, rest, hsplit, hrun, hc⟩
  · exact .inl (by simpa using hall)
  · refine .inr ⟨rest.reverse, c, run.reverse, ?_, by simpa using hrun, hc⟩
    have hreversed := congrArg List.reverse hsplit
    simpa using hreversed

theorem firstOther?_eq_none_iff : firstOther? ch text = none ↔ ∀ d ∈ text, d = ch := by
  constructor
  · intro hnone
    by_contra hother
    obtain ⟨first, hfirst⟩ := exists_firstOther? (by simpa using hother : ∃ d ∈ text, d ≠ ch)
    rw [hnone] at hfirst
    cases hfirst
  · exact firstOther?_eq_none

theorem firstOther?_eq_some_iff :
    firstOther? ch text = some offset ↔ LeadingRunEndsAt ch text offset := by
  constructor
  · intro hfirst
    rcases forall_eq_or_exists_first_other ch text with hall | ⟨run, c, rest, rfl, hrun, hc⟩
    · rw [firstOther?_eq_none hall] at hfirst
      cases hfirst
    · rw [firstOther?_append_cons hrun hc, Option.some.injEq] at hfirst
      exact ⟨run, c, rest, splitAt?_eq_some_iff.mpr ⟨rfl, hfirst⟩, hrun, hc⟩
  · rintro ⟨run, c, rest, hsplit, hrun, hc⟩
    obtain ⟨rfl, rfl⟩ := splitAt?_eq_some_iff.mp hsplit
    exact firstOther?_append_cons hrun hc

theorem lastOther?_eq_some_iff :
    lastOther? ch text = some offset ↔ TrailingRunBeginsAt ch text offset := by
  constructor
  · intro hlast
    rcases forall_eq_or_exists_last_other ch text with hall | ⟨front, c, run, rfl, hrun, hc⟩
    · rw [lastOther?_eq_none hall] at hlast
      cases hlast
    · rw [lastOther?_append_cons hrun hc, Option.some.injEq] at hlast
      exact ⟨front, c, run, splitAt?_eq_some_iff.mpr ⟨by simp, hlast⟩, hrun, hc⟩
  · rintro ⟨front, c, run, hsplit, hrun, hc⟩
    obtain ⟨rfl, rfl⟩ := splitAt?_eq_some_iff.mp hsplit
    rw [List.append_assoc, List.singleton_append]
    exact lastOther?_append_cons hrun hc

theorem lastOther?_eq_some_iff_reverse :
    lastOther? ch text = some offset ↔
      ∃ skipped, firstOther? ch text.reverse = some skipped ∧
        offset + skipped = text.byteLength := by
  rcases forall_eq_or_exists_last_other ch text with hall | ⟨front, c, run, rfl, hrun, hc⟩
  · rw [lastOther?_eq_none hall, firstOther?_eq_none (by simpa using hall)]
    simp
  · have hreverse : (front ++ c :: run).reverse = run.reverse ++ c :: front.reverse := by simp
    rw [lastOther?_append_cons hrun hc, hreverse,
      firstOther?_append_cons (by simpa using hrun) hc, byteLength_reverse]
    simp only [Option.some.injEq, byteLength_append, byteLength_cons, byteLength_nil]
    constructor
    · rintro rfl
      exact ⟨_, rfl, by omega⟩
    · rintro ⟨skipped, rfl, hlength⟩
      omega

theorem lastOther?_eq_none_iff : lastOther? ch text = none ↔ ∀ d ∈ text, d = ch := by
  constructor
  · intro hnone
    rcases forall_eq_or_exists_last_other ch text with hall | ⟨front, c, run, rfl, hrun, hc⟩
    · exact hall
    · rw [lastOther?_append_cons hrun hc] at hnone
      cases hnone
  · exact lastOther?_eq_none

theorem firstOther?_lt_lastOther? (hfirst : firstOther? ch text = some first)
    (hlast : lastOther? ch text = some last) : first < last := by
  obtain ⟨front, core, back, rfl, hfront, hback, hcore⟩ := exists_core ch text
  by_cases hempty : core = []
  · subst hempty
    have hall : ∀ d ∈ front ++ [] ++ back, d = ch := by
      simpa [or_imp, forall_and] using And.intro hfront hback
    rw [firstOther?_eq_none hall] at hfirst
    cases hfirst
  · rw [firstOther?_eq_core hfront hcore hempty, Option.some.injEq] at hfirst
    rw [lastOther?_eq_core hback hcore hempty, Option.some.injEq, byteLength_append] at hlast
    have hpos := byteLength_pos hempty
    omega

theorem lastOtherAfterFirst?_eq_ite :
    lastOtherAfterFirst? ch text =
      if text.tail.all (· = ch) then none else lastOther? ch text := by
  split
  · next htail => exact lastOtherAfterFirst?_eq_none (by simpa using htail)
  · next htail =>
      obtain ⟨last, hlegacy, hlast⟩ := lastOtherAfterFirst?_eq_lastOther? (by simpa using htail)
      rw [hlegacy, hlast]

theorem lastOtherAfterFirst?_eq_none_iff :
    lastOtherAfterFirst? ch text = none ↔ ∀ d ∈ text.tail, d = ch := by
  rw [lastOtherAfterFirst?_eq_ite]
  split
  · next htail => simpa using htail
  · next htail =>
      rw [lastOther?_eq_none_iff]
      constructor
      · intro hall d hmem
        exact hall d (List.mem_of_mem_tail hmem)
      · intro hrest
        exact absurd (by simpa using hrest) htail

end

/--
Where the runs of a character at the two ends of a text stop.  There is no such
place in a text of that character only, and otherwise the first lies before the
last.  Without the first character the search from the end stops at the same
place, or finds none.
-/
theorem outer_runs_end_at_offsets (ch : Char) (text : Text) :
    (firstOther? ch text = none ↔ ∀ d ∈ text, d = ch) ∧
      (∀ offset, firstOther? ch text = some offset ↔ LeadingRunEndsAt ch text offset) ∧
      (lastOther? ch text = none ↔ firstOther? ch text = none) ∧
      (∀ offset, lastOther? ch text = some offset ↔ TrailingRunBeginsAt ch text offset) ∧
      (∀ offset, lastOther? ch text = some offset ↔
        ∃ skipped, firstOther? ch text.reverse = some skipped ∧
          offset + skipped = text.byteLength) ∧
      (∀ first last, firstOther? ch text = some first → lastOther? ch text = some last →
        first < last) ∧
      (lastOtherAfterFirst? ch text = none ↔ ∀ d ∈ text.tail, d = ch) ∧
      (lastOtherAfterFirst? ch text ≠ none →
        lastOtherAfterFirst? ch text = lastOther? ch text) := by
  refine ⟨firstOther?_eq_none_iff, fun _ => firstOther?_eq_some_iff, ?_,
    fun _ => lastOther?_eq_some_iff, fun _ => lastOther?_eq_some_iff_reverse,
    fun _ _ => firstOther?_lt_lastOther?, lastOtherAfterFirst?_eq_none_iff, ?_⟩
  · rw [lastOther?_eq_none_iff, firstOther?_eq_none_iff]
  · intro hfound
    rw [lastOtherAfterFirst?_eq_ite] at hfound ⊢
    split
    · next htail => exact absurd (if_pos htail) hfound
    · rfl

theorem outer_runs_end_at_offsets_of_wide :
    let text : Text := ['é', '→', 'a', 'é', 'é']
    firstOther? 'é' text = some 2 ∧ lastOther? 'é' text = some 6 ∧ 2 < 6 ∧
      lastOtherAfterFirst? 'é' text ≠ none ∧
      lastOtherAfterFirst? 'é' text = lastOther? 'é' text ∧
      ∃ skipped, firstOther? 'é' text.reverse = some skipped ∧ 6 + skipped = 10 := by
  intro text
  obtain ⟨-, -, -, -, hreverse, hlt, -, hlegacy⟩ := outer_runs_end_at_offsets 'é' text
  have hfirst : firstOther? 'é' text = some 2 := by decide
  have hlast : lastOther? 'é' text = some 6 := by decide
  have hfound : lastOtherAfterFirst? 'é' text ≠ none := by decide
  exact ⟨hfirst, hlast, hlt 2 6 hfirst hlast, hfound, hlegacy hfound, (hreverse 6).mp hlast⟩

end Text

end TemplateLexer
