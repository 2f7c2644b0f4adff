import TemplateLexer.FiniteStream
import TemplateLexer.Proofs.Machine

/-!
# Streams as places in a list

Whoever asks a finite stream for items learns no more than the list of the
items it has left.  So a session with a stream answers as two indices into the
list of all items do, one for the current stream and one for the saved one:
yielding items moves the first index forward, never beyond the end, and saving
and going back copy one index to the other.
-/

namespace TemplateLexer

variable {σ α : Type} [FiniteStream σ α]

namespace FiniteStream

theorem fst_nth (count : Nat) (stream : σ) :
    (nth count stream).1 = (toList stream)[count]? := by
  fun_induction nth count stream with
  | case1 count stream h => rw [toList_of_next?_eq_none h, List.getElem?_nil]
  | case2 stream item rest h => rw [toList_of_next?_eq_some h, List.getElem?_cons_zero]
  | case3 stream item rest h count ih =>
      rw [toList_of_next?_eq_some h, List.getElem?_cons_succ, ih]

theorem toList_snd_nth (count : Nat) (stream : σ) :
    toList (nth count stream).2 = (toList stream).drop (count + 1) := by
  fun_induction nth count stream with
  | case1 count stream h => rw [toList_of_next?_eq_none h, List.drop_nil]
  | case2 stream item rest h => rw [toList_of_next?_eq_some h, List.drop_one, List.tail_cons]
  | case3 stream item rest h count ih => rw [toList_of_next?_eq_some h, List.drop_succ_cons, ih]

theorem toList_drain (stream : σ) : toList (drain stream) = [] :=
  toList_of_next?_eq_none (next?_drain stream)

inductive EndsAfter : σ → Nat → Prop
  | nothing {stream : σ} (h : Std.Stream.next? stream = none) : EndsAfter stream 0
  | item {stream rest : σ} {item : α} {count : Nat}
      (h : Std.Stream.next? stream = some (item, rest)) (hrest : EndsAfter rest count) :
      EndsAfter stream (count + 1)

theorem endsAfter_length_toList (stream : σ) : EndsAfter stream (toList stream).length := by
  induction stream using toList.induct with
  | case1 stream h =>
      rw [toList_of_next?_eq_none h]
      exact .nothing h
  | case2 stream item rest h ih =>
      rw [toList_of_next?_eq_some h]
      exact .item h ih

section

variable {P : σ → Prop} (hnext : ∀ {stream rest : σ} {item : α},
  P stream → Std.Stream.next? stream = some (item, rest) → P rest)

include hnext

theorem nth_preserves (count : Nat) {stream : σ} (h : P stream) : P (nth count stream).2 := by
  fun_induction nth count stream with
  | case1 count stream hend => exact h
  | case2 stream item rest hitem => exact hnext h hitem
  | case3 stream item rest hitem count ih => exact ih (hnext h hitem)

theorem drain_preserves {stream : σ} (h : P stream) : P (drain stream) := by
  fun_induction drain stream with
  | case1 stream hend => exact h
  | case2 stream item rest hitem ih => exact ih (hnext h hitem)

end

end FiniteStream

/-! ## Two indices -/

/-- How many of the items lie in front of the current place, and of the saved one. -/
structure Bookmarks where
  current : Nat
  saved : Nat
  deriving DecidableEq, Repr

namespace Bookmarks

def start : Bookmarks :=
  ⟨0, 0⟩

def step {α : Type} (items : List α) (marks : Bookmarks) :
    StreamSession.Step → StreamSession.Answer α × Bookmarks
  | .next =>
      (.item items[marks.current]?,
        { marks with current := min (marks.current + 1) items.length })
  | .nth count =>
      (.item items[marks.current + count]?,
        { marks with current := min (marks.current + count + 1) items.length })
  | .rest => (.items (items.drop marks.current), { marks with current := items.length })
  | .save => (.saved, { marks with saved := marks.current })
  | .restore => (.restored, { marks with current := marks.saved })

end Bookmarks

namespace StreamSession

/-- Every place that these steps go back to was saved in one of them. -/
def RestoresOwnSaves (steps : List Step) : Prop :=
  ∀ front back, steps = front ++ .restore :: back → .save ∈ front

theorem RestoresOwnSaves.tail {first : Step} {steps : List Step} (hfirst : first ≠ .save)
    (h : RestoresOwnSaves (first :: steps)) : RestoresOwnSaves steps := by
  rintro front back rfl
  have hmem := h (first :: front) back rfl
  exact (List.mem_cons.mp hmem).resolve_left hfirst.symm

theorem not_restoresOwnSaves_restore (steps : List Step) :
    ¬ RestoresOwnSaves (.restore :: steps) := by
  intro h
  simpa using h [] steps rfl

end StreamSession

namespace Bookmarks

variable {items : List α} {marks : Bookmarks} {steps : List StreamSession.Step}

theorem le_current_step (hcurrent : items.length ≤ marks.current) {step : StreamSession.Step}
    (hstep : step ≠ .restore) : items.length ≤ (marks.step items step).2.current := by
  cases step with
  | next => simp only [Bookmarks.step]; omega
  | nth count => simp only [Bookmarks.step]; omega
  | rest => exact Nat.le_refl _
  | save => exact hcurrent
  | restore => exact absurd rfl hstep

theorem le_current_after (hcurrent : items.length ≤ marks.current)
    (hsaved : items.length ≤ marks.saved ∨ StreamSession.RestoresOwnSaves steps) :
    items.length ≤ (Machine.after (Bookmarks.step items) marks steps).current := by
  induction steps generalizing marks with
  | nil => exact hcurrent
  | cons first steps ih =>
      by_cases hrestore : first = .restore
      · subst hrestore
        have hplace := hsaved.resolve_right (StreamSession.not_restoresOwnSaves_restore steps)
        exact ih hplace (.inl hplace)
      · refine ih (le_current_step hcurrent hrestore) ?_
        by_cases hsave : first = .save
        · subst hsave
          exact .inl hcurrent
        · refine hsaved.imp ?_ (StreamSession.RestoresOwnSaves.tail hsave)
          intro hplace
          cases first <;> first | exact hplace | contradiction

theorem step_next_of_le (hcurrent : items.length ≤ marks.current) :
    (marks.step items .next).1 = .item none := by
  rw [step, List.getElem?_eq_none hcurrent]

theorem le_current_of_step_next (h : (marks.step items .next).1 = .item none) :
    items.length ≤ (marks.step items .next).2.current := by
  have hnone : items[marks.current]? = none := by simpa [step] using h
  have hcurrent := List.getElem?_eq_none_iff.mp hnone
  simp only [step]
  omega

end Bookmarks

namespace StreamSession

variable {session : StreamSession σ} {items : List α} {marks : Bookmarks}

theorem run_eq_answers (session : StreamSession σ) (steps : List Step) :
    session.run steps = Machine.answers StreamSession.step session steps :=
  Machine.eq_answers (fun _ => rfl) (fun _ _ _ => rfl) session steps

theorem step_next (session : StreamSession σ) : session.step .next = session.step (.nth 0) := by
  rw [step, step, FiniteStream.nth]
  cases Std.Stream.next? session.current <;> rfl

def StandsAt (items : List α) (session : StreamSession σ) (marks : Bookmarks) : Prop :=
  FiniteStream.toList session.current = items.drop marks.current ∧
    FiniteStream.toList session.saved = items.drop marks.saved

theorem standsAt_start (stream : σ) :
    StandsAt (FiniteStream.toList stream) (start stream) .start :=
  ⟨rfl, rfl⟩

theorem StandsAt.step_nth (h : StandsAt items session marks) (count : Nat) :
    (session.step (.nth count)).1 = (marks.step items (.nth count)).1 ∧
      StandsAt items (session.step (.nth count)).2 (marks.step items (.nth count)).2 := by
  obtain ⟨hcurrent, hsaved⟩ := h
  refine ⟨?_, ?_, hsaved⟩
  · simp only [step, Bookmarks.step, FiniteStream.fst_nth, hcurrent, List.getElem?_drop]
  · simp only [step, Bookmarks.step, FiniteStream.toList_snd_nth, hcurrent, List.drop_drop,
      ← List.drop_eq_drop_min, Nat.add_assoc]

theorem StandsAt.step (h : StandsAt items session marks) (step : Step) :
    (session.step step).1 = (marks.step items step).1 ∧
      StandsAt items (session.step step).2 (marks.step items step).2 := by
  obtain ⟨hcurrent, hsaved⟩ := h
  cases step with
  | next =>
      rw [step_next]
      exact StandsAt.step_nth ⟨hcurrent, hsaved⟩ 0
  | nth count => exact StandsAt.step_nth ⟨hcurrent, hsaved⟩ count
  | rest =>
      refine ⟨congrArg Answer.items hcurrent, ?_, hsaved⟩
      exact (FiniteStream.toList_drain _).trans List.drop_length.symm
  | save => exact ⟨rfl, hcurrent, hcurrent⟩
  | restore => exact ⟨rfl, hsaved, hsaved⟩

theorem run_start_eq_answers (stream : σ) (steps : List Step) :
    (start stream).run steps =
      Machine.answers (Bookmarks.step (FiniteStream.toList stream)) .start steps := by
  rw [run_eq_answers]
  exact Machine.answers_eq_of_related (StandsAt _) (fun _ _ step h => h.step step)
    (standsAt_start stream) steps

theorem getLast?_run_of_ended (stream : σ) {before between : List Step}
    (hbetween : RestoresOwnSaves between)
    (hended : ((start stream).run (before ++ [.next])).getLast? = some (.item none)) :
    ((start stream).run (before ++ .next :: between ++ [.next])).getLast? =
      some (.item none) := by
  rw [run_start_eq_answers, Machine.getLast?_answers_concat, Option.some.injEq] at hended ⊢
  rw [List.append_cons, Machine.after_append, Machine.after_concat]
  apply Bookmarks.step_next_of_le
  exact Bookmarks.le_current_after (Bookmarks.le_current_of_step_next hended) (.inr hbetween)

theorem after_preserves {P : σ → Prop}
    (hnext : ∀ {stream rest : σ} {item : α},
      P stream → Std.Stream.next? stream = some (item, rest) → P rest)
    {stream : σ} (h : P stream) (steps : List Step) :
    P (Machine.after StreamSession.step (start stream) steps).current ∧
      P (Machine.after StreamSession.step (start stream) steps).saved := by
  refine Machine.after_preserves
    (fun session : StreamSession σ => P session.current ∧ P session.saved) ?_ ⟨h, h⟩
  rintro step - session ⟨hcurrent, hsaved⟩
  cases step with
  | next =>
      rw [step_next]
      exact ⟨FiniteStream.nth_preserves hnext 0 hcurrent, hsaved⟩
  | nth count => exact ⟨FiniteStream.nth_preserves hnext count hcurrent, hsaved⟩
  | rest => exact ⟨FiniteStream.drain_preserves hnext hcurrent, hsaved⟩
  | save => exact ⟨hcurrent, hcurrent⟩
  | restore => exact ⟨hsaved, hsaved⟩

end StreamSession

end TemplateLexer
