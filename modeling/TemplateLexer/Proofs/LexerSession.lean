import TemplateLexer.Lexer.Session
import TemplateLexer.Proofs.FiniteStream
import TemplateLexer.Proofs.TokenStream

/-!
# Lexers in use

A session with a lexer is a place in one fixed list: the items of the chunks in
order, through the first error.  Tokens asked for one at a time, skipped, saved,
restored or started again, and the whole text lexed in between, are answered as
two indices into that list answer them.  An error is the last item, so that
nothing follows it unless the session goes back.
-/

namespace TemplateLexer

section

variable {α β ε : Type} {f : α → Except ε β}

def collected (items : List (Except ε β)) : Except ε (List β) :=
  match items.getLast? with
  | some (.error error) => .error error
  | _ => .ok (items.filterMap Except.toOption)

theorem collected_ok_cons (value : β) (rest : List (Except ε β)) :
    collected (.ok value :: rest) = (collected rest).map (value :: ·) := by
  rcases rest.eq_nil_or_concat with rfl | ⟨init, last, rfl⟩
  · rfl
  · cases last <;> simp [collected, List.getLast?_cons, Except.toOption, Except.map]

theorem collected_throughError_map (items : List α) :
    collected (throughError (items.map f)) = items.mapM f := by
  induction items with
  | nil => rfl
  | cons item items ih =>
      rw [List.map_cons, List.mapM_cons]
      cases hitem : f item with
      | error error => rfl
      | ok value =>
          rw [throughError, collected_ok_cons, ih]
          cases items.mapM f <;> rfl

theorem length_throughError_of_error {items : List (Except ε β)} {index : Nat} {error : ε}
    (h : (throughError items)[index]? = some (.error error)) :
    (throughError items).length = index + 1 := by
  induction items generalizing index with
  | nil => simp [throughError] at h
  | cons item items ih =>
      cases item with
      | error other =>
          rw [throughError] at h ⊢
          cases index with
          | zero => rfl
          | succ index => simp at h
      | ok value =>
          rw [throughError] at h ⊢
          cases index with
          | zero => simp at h
          | succ index => rw [List.length_cons, ih (by simpa using h)]

end

namespace Lexer

/-- What the chunks make in order, through the first error. -/
def items (lexer : Lexer) : List (Except LexError Token) :=
  throughError ((chunks lexer.source).map (Chunk.item lexer.options))

theorem tokenize_eq_collected (lexer : Lexer) : lexer.tokenize = collected lexer.items := by
  rw [tokenize_eq_mapM, items, collected_throughError_map]

namespace Session

/-- How two indices into the lexer's items answer a step. -/
def stepMarks (lexer : Lexer) (marks : Bookmarks) : Step → Answer × Bookmarks
  | .stream step =>
      let (answer, marks) := marks.step lexer.items step
      (.stream answer, marks)
  | .tokens => (.started, { marks with current := 0 })
  | .tokenize => (.lexed (collected lexer.items), marks)
  | .source => (.source lexer.source, marks)
  | .options => (.options lexer.options, marks)

variable {lexer : Lexer} {session : Session} {marks : Bookmarks}

theorem run_eq_answers (session : Session) (steps : List Step) :
    session.run steps = Machine.answers Session.step session steps :=
  Machine.eq_answers (fun _ => rfl) (fun _ _ _ => rfl) session steps

def StandsAt (lexer : Lexer) (session : Session) (marks : Bookmarks) : Prop :=
  session.lexer = lexer ∧ StreamSession.StandsAt lexer.items session.stream marks

theorem standsAt_start (lexer : Lexer) : StandsAt lexer (start lexer) .start := by
  refine ⟨rfl, ?_⟩
  rw [items, ← toList_tokens]
  exact StreamSession.standsAt_start lexer.tokens

theorem StandsAt.step (h : StandsAt lexer session marks) (step : Step) :
    (session.step step).1 = (stepMarks lexer marks step).1 ∧
      StandsAt lexer (session.step step).2 (stepMarks lexer marks step).2 := by
  obtain ⟨rfl, hstream⟩ := h
  cases step with
  | stream step =>
      obtain ⟨hanswer, hstands⟩ := hstream.step step
      exact ⟨congrArg Answer.stream hanswer, rfl, hstands⟩
  | tokens => exact ⟨rfl, rfl, toList_tokens session.lexer, hstream.2⟩
  | tokenize => exact ⟨congrArg Answer.lexed (tokenize_eq_collected session.lexer), rfl, hstream⟩
  | source => exact ⟨rfl, rfl, hstream⟩
  | options => exact ⟨rfl, rfl, hstream⟩

theorem run_start_eq_answers (lexer : Lexer) (steps : List Step) :
    (start lexer).run steps = Machine.answers (stepMarks lexer) .start steps := by
  rw [run_eq_answers]
  exact Machine.answers_eq_of_related (StandsAt lexer) (fun _ _ step h => h.step step)
    (standsAt_start lexer) steps

def lastAnswer? (lexer : Lexer) (steps : List Step) : Option Answer :=
  ((start lexer).run steps).getLast?

/--
After the steps before it the step comes to the end of the items: it yields
nothing, it yields an error, or it passes over an error.
-/
inductive MeetsEnd (lexer : Lexer) (before : List Step) : Step → Prop
  | nothing {step : Step} (h : lastAnswer? lexer (before ++ [step]) = some (.stream (.item none))) :
      MeetsEnd lexer before step
  | error {step : Step} {error : LexError}
      (h : lastAnswer? lexer (before ++ [step]) = some (.stream (.item (some (.error error))))) :
      MeetsEnd lexer before step
  | skipped {count passed : Nat} {error : LexError} (hpassed : passed ≤ count)
      (h : lastAnswer? lexer (before ++ [.stream (.nth passed)]) =
        some (.stream (.item (some (.error error))))) :
      MeetsEnd lexer before (.stream (.nth count))

theorem lastAnswer?_concat (lexer : Lexer) (steps : List Step) (last : Step) :
    lastAnswer? lexer (steps ++ [last]) =
      some (stepMarks lexer (Machine.after (stepMarks lexer) .start steps) last).1 := by
  rw [lastAnswer?, run_start_eq_answers, Machine.getLast?_answers_concat]

def AtEnd (lexer : Lexer) (marks : Bookmarks) : Prop :=
  lexer.items.length ≤ marks.current

theorem length_items_le {index : Nat}
    (h : lexer.items[index]? = none ∨ ∃ error, lexer.items[index]? = some (.error error)) :
    lexer.items.length ≤ index + 1 := by
  rcases h with hnone | ⟨error, herror⟩
  · exact Nat.le_succ_of_le (List.getElem?_eq_none_iff.mp hnone)
  · exact Nat.le_of_eq (length_throughError_of_error herror)

theorem atEnd_nth {count passed : Nat} (hpassed : passed ≤ count)
    (h : lexer.items[marks.current + passed]? = none ∨
      ∃ error, lexer.items[marks.current + passed]? = some (.error error)) :
    AtEnd lexer (stepMarks lexer marks (.stream (.nth count))).2 := by
  have hlength := length_items_le h
  simp only [AtEnd, stepMarks, Bookmarks.step]
  omega

theorem atEnd_of_item {step : Step} {item : Option (Except LexError Token)}
    (hanswer : (stepMarks lexer marks step).1 = .stream (.item item))
    (hitem : item = none ∨ ∃ error, item = some (.error error)) :
    AtEnd lexer (stepMarks lexer marks step).2 := by
  cases step with
  | stream step =>
      cases step with
      | next =>
          cases hanswer
          exact atEnd_nth (Nat.le_refl 0) hitem
      | nth count =>
          cases hanswer
          exact atEnd_nth (Nat.le_refl count) hitem
      | rest => cases hanswer
      | save => cases hanswer
      | restore => cases hanswer
  | tokens => cases hanswer
  | tokenize => cases hanswer
  | source => cases hanswer
  | options => cases hanswer

theorem MeetsEnd.atEnd {before : List Step} {step : Step} (h : MeetsEnd lexer before step) :
    AtEnd lexer (Machine.after (stepMarks lexer) .start (before ++ [step])) := by
  rw [Machine.after_concat]
  cases h with
  | nothing h =>
      rw [lastAnswer?_concat, Option.some.injEq] at h
      exact atEnd_of_item h (.inl rfl)
  | error h =>
      rw [lastAnswer?_concat, Option.some.injEq] at h
      exact atEnd_of_item h (.inr ⟨_, rfl⟩)
  | skipped hpassed h =>
      rw [lastAnswer?_concat, Option.some.injEq] at h
      simp only [stepMarks, Bookmarks.step, Answer.stream.injEq,
        StreamSession.Answer.item.injEq] at h
      exact atEnd_nth hpassed (.inr ⟨_, h⟩)

theorem AtEnd.step (h : AtEnd lexer marks) {step : Step} (hrestore : step ≠ .stream .restore)
    (htokens : step ≠ .tokens) : AtEnd lexer (stepMarks lexer marks step).2 := by
  cases step with
  | stream step =>
      apply Bookmarks.le_current_step h
      rintro rfl
      exact hrestore rfl
  | tokens => exact absurd rfl htokens
  | tokenize => exact h
  | source => exact h
  | options => exact h

end Session

/--
A session answers as two indices into the lexer's items do.  Once a step has
come to the end of the items, nothing is yielded until the session goes back to
the saved stream or starts the tokens again.
-/
theorem session_eq_bookmarks (lexer : Lexer) :
    (∀ steps, (Session.start lexer).run steps =
        Machine.answers (Session.stepMarks lexer) .start steps) ∧
      ∀ before step between, Session.MeetsEnd lexer before step →
        .stream .restore ∉ between → .tokens ∉ between →
          Session.lastAnswer? lexer (before ++ step :: between ++ [.stream .next]) =
            some (.stream (.item none)) := by
  refine ⟨Session.run_start_eq_answers lexer, ?_⟩
  intro before step between hend hrestore htokens
  rw [Session.lastAnswer?_concat, List.append_cons, Machine.after_append]
  have hstays : Session.AtEnd lexer (Machine.after (Session.stepMarks lexer)
      (Machine.after (Session.stepMarks lexer) .start (before ++ [step])) between) := by
    refine Machine.after_preserves (Session.AtEnd lexer) ?_ hend.atEnd
    intro input hmem marks hmarks
    exact hmarks.step (ne_of_mem_of_not_mem hmem hrestore) (ne_of_mem_of_not_mem hmem htokens)
  exact congrArg (fun answer => some (Session.Answer.stream answer))
    (Bookmarks.step_next_of_le hstays)

theorem session_behind_skipped_error :
    let lexer : Lexer := ⟨['é', '{', '#', '}', '{', '{', 'x', '}', '}'], {}⟩
    let before : List Session.Step := [.stream .save]
    let between : List Session.Step := [.tokenize, .stream .rest, .stream .save]
    Session.MeetsEnd lexer before (.stream (.nth 4)) ∧
      .stream .restore ∉ between ∧ .tokens ∉ between ∧
      Session.lastAnswer? lexer
          (before ++ .stream (.nth 4) :: between ++ [.stream .next]) =
        some (.stream (.item none)) := by
  intro lexer before between
  have hitems : lexer.items =
      [.ok (.text ['é']), .error (.malformed ['{', '#', '}'] 2)] := by
    decide +kernel
  have hpassed : Session.lastAnswer? lexer (before ++ [.stream (.nth 1)]) =
      some (.stream (.item (some (.error (.malformed ['{', '#', '}'] 2))))) := by
    rw [Session.lastAnswer?_concat]
    change some (Session.Answer.stream (.item lexer.items[0 + 1]?)) = _
    rw [hitems]
    rfl
  have hend : Session.MeetsEnd lexer before (.stream (.nth 4)) :=
    .skipped (by decide : 1 ≤ 4) hpassed
  have hrestore : .stream .restore ∉ between := by
    decide
  have htokens : .tokens ∉ between := by
    decide
  exact ⟨hend, hrestore, htokens,
    (session_eq_bookmarks lexer).2 before (.stream (.nth 4)) between hend hrestore htokens⟩

end Lexer

end TemplateLexer
