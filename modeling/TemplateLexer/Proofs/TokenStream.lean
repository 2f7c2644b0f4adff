import TemplateLexer.Proofs.Lexer

/-!
# Token streams as lists of items

Asked for one at a time, the items of a text are those of its chunks in order,
and the first error is the last of them.  Lexing all at once gives the same
tokens when no chunk makes an error, and the first error otherwise.
-/

namespace TemplateLexer

section

variable {α β ε : Type} {f : α → Except ε β}

/-- The values in front of the first error, and that error. -/
def throughError : List (Except ε β) → List (Except ε β)
  | [] => []
  | .ok value :: rest => .ok value :: throughError rest
  | .error error :: _ => [.error error]

theorem throughError_map_ok_append (values : List β) (rest : List (Except ε β)) :
    throughError (values.map .ok ++ rest) = values.map .ok ++ throughError rest := by
  induction values with
  | nil => rfl
  | cons value values ih => simp [throughError, ih]

theorem mapM_eq_ok_iff_map_eq {items : List α} {values : List β} :
    items.mapM f = .ok values ↔ items.map f = values.map .ok := by
  rw [mapM_eq_ok_iff_forall₂, ← List.forall₂_eq_eq_eq, List.forall₂_map_left_iff,
    List.forall₂_map_right_iff]

theorem mapM_eq_error_iff {items : List α} {error : ε} :
    items.mapM f = .error error ↔
      ∃ front item back values, items = front ++ item :: back ∧
        front.mapM f = .ok values ∧ f item = .error error := by
  constructor
  · intro h
    induction items with
    | nil => simp [pure, Except.pure] at h
    | cons first items ih =>
        rw [List.mapM_cons] at h
        cases hfirst : f first with
        | error other =>
            have herror : other = error := by
              simpa [hfirst, bind, Except.bind] using h
            exact ⟨[], first, items, [], rfl, rfl, by rw [hfirst, herror]⟩
        | ok value =>
            have hrest : items.mapM f = .error error := by
              cases hitems : items.mapM f with
              | error other => simpa [hfirst, hitems, bind, Except.bind] using h
              | ok values => simp [hfirst, hitems, bind, Except.bind, pure, Except.pure] at h
            obtain ⟨front, item, back, values, rfl, hfront, hitem⟩ := ih hrest
            refine ⟨first :: front, item, back, value :: values, rfl, ?_, hitem⟩
            simp [hfirst, hfront, bind, Except.bind, pure, Except.pure]
  · rintro ⟨front, item, back, values, rfl, hfront, hitem⟩
    rw [mapM_append_of_ok hfront, List.mapM_cons, hitem]
    rfl

theorem throughError_of_split {front back : List α} {item : α} {values : List β} {error : ε}
    (hfront : front.mapM f = .ok values) (hitem : f item = .error error) :
    throughError ((front ++ item :: back).map f) = values.map .ok ++ [.error error] := by
  rw [List.map_append, mapM_eq_ok_iff_map_eq.mp hfront, throughError_map_ok_append,
    List.map_cons, hitem, throughError]

theorem mem_of_mem_throughError {item : Except ε β} {items : List (Except ε β)}
    (h : item ∈ throughError items) : item ∈ items := by
  fun_induction throughError items with
  | case1 => exact h
  | case2 value rest ih =>
      rcases List.mem_cons.mp h with rfl | hrest
      · exact List.mem_cons_self
      · exact List.mem_cons_of_mem _ (ih hrest)
  | case3 error rest =>
      rw [List.mem_singleton] at h
      simp [h]

end

namespace TokenStream

variable {chunks rest : Chunker} {chunk : Chunk} {options : Options}

theorem next?_of_failed :
    Std.Stream.next? (⟨chunks, options, true⟩ : TokenStream) = none := rfl

theorem next?_of_chunks_eq_none (h : Std.Stream.next? chunks = none) :
    Std.Stream.next? (⟨chunks, options, false⟩ : TokenStream) = none := by
  change next? _ = none
  rw [next?, step?_of_next?_eq_none h]
  rfl

theorem next?_of_chunks_eq_some (h : Std.Stream.next? chunks = some (chunk, rest)) :
    Std.Stream.next? (⟨chunks, options, false⟩ : TokenStream) =
      some (chunk.item options, ⟨rest, options, !(chunk.item options).isOk⟩) := by
  change next? _ = some _
  rw [next?, step?_of_next?_eq_some h]
  rfl

theorem toList_eq (chunks : Chunker) (options : Options) :
    FiniteStream.toList (⟨chunks, options, false⟩ : TokenStream) =
      throughError ((FiniteStream.toList chunks).map (Chunk.item options)) := by
  induction chunks using FiniteStream.toList.induct with
  | case1 chunks hend =>
      rw [FiniteStream.toList_of_next?_eq_none (next?_of_chunks_eq_none hend),
        FiniteStream.toList_of_next?_eq_none hend]
      rfl
  | case2 chunks chunk rest hnext ih =>
      rw [FiniteStream.toList_of_next?_eq_some (next?_of_chunks_eq_some hnext),
        FiniteStream.toList_of_next?_eq_some hnext, List.map_cons]
      cases hitem : chunk.item options with
      | error error =>
          rw [throughError]
          exact congrArg _ (FiniteStream.toList_of_next?_eq_none next?_of_failed)
      | ok token =>
          rw [throughError, ← ih]
          rfl

end TokenStream

theorem Lexer.toList_tokens (lexer : Lexer) :
    FiniteStream.toList lexer.tokens =
      throughError ((chunks lexer.source).map (Chunk.item lexer.options)) :=
  TokenStream.toList_eq _ _

end TemplateLexer
