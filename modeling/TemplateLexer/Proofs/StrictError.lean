import TemplateLexer.Proofs.ChunkForm

/-!
# The error of strict lexing

Strict lexing stops at the first broken tag, and its error says where that tag
begins and what is wrong with it.  Both can be read off the text from there on:
either the closer never follows, or the tag is one of the two that have three
characters.  What stands in front of the tag is lexed as if nothing followed it.
-/

namespace TemplateLexer

open Text

section

variable {mode : TrimMode} {source part : Text} {error : LexError} {kind : TagKind}
  {front back : List Chunk} {chunk : Chunk}

theorem not_isBroken_of_mapM {found : List Chunk} {tokens : List Token}
    (hform : ∀ chunk ∈ found, chunk.kind.Form chunk.text)
    (h : found.mapM (Chunk.item ⟨.strict, mode⟩) = .ok tokens) :
    ∀ chunk ∈ found, ¬ chunk.IsBroken := by
  intro chunk hmem hbroken
  obtain ⟨rfl, hsound⟩ := (mapM_item_strict_eq_ok_iff hform).mp h
  have hrecovered : (chunk.token mode).recovered?.isSome :=
    (Chunk.isBroken_iff_recovered? (hform chunk hmem)).mp hbroken
  rw [hsound _ (List.mem_map_of_mem hmem)] at hrecovered
  simp at hrecovered

theorem exists_broken_chunk (h : Lexer.tokenize ⟨source, ⟨.strict, mode⟩⟩ = .error error) :
    ∃ front chunk back tokens kind, chunks source = front ++ chunk :: back ∧
      front.mapM (Chunk.item ⟨.strict, mode⟩) = .ok tokens ∧
      chunk.item ⟨.strict, mode⟩ = .error error ∧
      (chunk.token mode).recovered? = some kind ∧
      error = ⟨kind.refusal chunk.text, chunk.start⟩ := by
  rw [Lexer.tokenize_eq_mapM, mapM_eq_error_iff] at h
  obtain ⟨front, chunk, back, tokens, hsplit, hfront, hitem⟩ := h
  have hmem : chunk ∈ chunks source := by
    simp [hsplit]
  have hstrict := Chunk.item_strict (form_of_mem hmem) mode
  cases hrecovered : (chunk.token mode).recovered? with
  | none => simp [hitem, hrecovered] at hstrict
  | some kind =>
      have herror : error = ⟨kind.refusal chunk.text, chunk.start⟩ := by
        simpa [hitem, hrecovered] using hstrict
      exact ⟨front, chunk, back, tokens, kind, hsplit, hfront, hitem, hrecovered, herror⟩

theorem exists_error_iff_isBroken :
    (∃ error, Lexer.tokenize ⟨source, ⟨.strict, mode⟩⟩ = .error error) ↔
      ∃ chunk ∈ chunks source, chunk.IsBroken := by
  constructor
  · rintro ⟨error, h⟩
    obtain ⟨front, chunk, back, tokens, kind, hsplit, -, -, hrecovered, -⟩ :=
      exists_broken_chunk h
    have hmem : chunk ∈ chunks source := by
      simp [hsplit]
    have hiff : chunk.IsBroken ↔ (chunk.token mode).recovered?.isSome :=
      Chunk.isBroken_iff_recovered? (form_of_mem hmem)
    exact ⟨chunk, hmem, hiff.mpr (by simp [hrecovered])⟩
  · rintro ⟨chunk, hmem, hbroken⟩
    cases h : Lexer.tokenize ⟨source, ⟨.strict, mode⟩⟩ with
    | error error => exact ⟨error, rfl⟩
    | ok tokens =>
        rw [Lexer.tokenize_eq_mapM] at h
        exact absurd hbroken (not_isBroken_of_mapM (fun chunk => form_of_mem) h chunk hmem)

theorem find?_isBroken (hsplit : chunks source = front ++ chunk :: back) {tokens : List Token}
    (hfront : front.mapM (Chunk.item ⟨.strict, mode⟩) = .ok tokens)
    (hrecovered : (chunk.token mode).recovered? = some kind) :
    ((chunks source).find? fun chunk => chunk.IsBroken) = some chunk := by
  have hform : ∀ other ∈ front ++ chunk :: back, other.kind.Form other.text := by
    rw [← hsplit]
    exact fun other => form_of_mem
  have hbroken : chunk.IsBroken := by
    apply (Chunk.isBroken_iff_recovered? (hform chunk (by simp))).mpr
    exact Option.isSome_iff_exists.mpr ⟨kind, hrecovered⟩
  have hsound : ∀ first ∈ front, ¬ first.IsBroken :=
    not_isBroken_of_mapM (fun first hfirst => hform first (List.mem_append_left _ hfirst)) hfront
  rw [List.find?_eq_some_iff_append]
  exact ⟨by simpa using hbroken, front, back, hsplit, by simpa using hsound⟩

theorem TagKind.refusal_eq_unterminatedTag_iff :
    kind.refusal part = .unterminatedTag kind.opener kind.closer ↔ ¬ kind.closer <:+: part := by
  unfold refusal
  split <;> simp_all

theorem overlapped_of_recovered? (hmem : chunk ∈ chunks source)
    (hrecovered : (chunk.token mode).recovered? = some kind)
    (hcloser : kind.closer <:+: chunk.text) :
    chunk.text.byteLength = 3 ∧
      (chunk.text = ['{', '%', '}'] ∨ chunk.text = ['{', '#', '}']) := by
  rcases Chunk.form_of_recovered? (form_of_mem hmem) hrecovered with
    ⟨-, hkind, htext⟩ | ⟨-, -, hunclosed⟩
  · rw [htext]
    cases kind with
    | var => exact absurd rfl hkind
    | block => decide
    | comment => decide
  · exact absurd hcloser hunclosed

theorem rest_of_recovered? (hsplit : chunks source = front ++ chunk :: back)
    (hrecovered : (chunk.token mode).recovered? = some kind) :
    kind.opener <+: chunk.text ++ concat back ∧
      (kind.closer <:+: chunk.text ++ concat back ↔ kind.closer <:+: chunk.text) := by
  have hmem : chunk ∈ chunks source := by
    simp [hsplit]
  rcases Chunk.form_of_recovered? (form_of_mem hmem) hrecovered with
    ⟨-, hkind, htext⟩ | ⟨hkind, hopener, -⟩
  · have hcloser : kind.closer <:+: chunk.text := by
      rw [htext]
      exact TagKind.closer_infix_overlapped
    have hopener : kind.opener <+: chunk.text := by
      rw [htext]
      exact TagKind.opener_prefix_overlapped hkind
    exact ⟨hopener.trans (List.prefix_append _ _),
      iff_of_true (hcloser.trans (List.prefix_append _ _).isInfix) hcloser⟩
  · -- An unterminated tag is the last chunk, so nothing follows it.
    obtain ⟨-, -, rfl⟩ :=
      (segmentation_chunks source).unterminated_last front chunk back hsplit kind hkind
    simpa using hopener

end

/--
A strict lexing fails exactly when some tag is broken, and its error is about
the first one.  The error's kind depends on the text from that tag on, and the
text in front of it is lexed to the tokens that a stream yields before the error.
-/
theorem strict_error_at_first_broken_tag (source : Text) (mode : TrimMode) :
    ((∃ error, Lexer.tokenize ⟨source, ⟨.strict, mode⟩⟩ = .error error) ↔
        ∃ chunk ∈ chunks source, chunk.IsBroken) ∧
      ∀ error, Lexer.tokenize ⟨source, ⟨.strict, mode⟩⟩ = .error error →
        ((chunks source).find? fun chunk => chunk.IsBroken).map Chunk.start =
          some error.offset ∧
        ∃ (before after : Text) (kind : TagKind) (tokens : List Token),
          source.splitAt? error.offset = some (before, after) ∧
          kind.opener <+: after ∧
          Lexer.tokenize ⟨before, ⟨.strict, mode⟩⟩ = .ok tokens ∧
          FiniteStream.toList (Lexer.tokens ⟨source, ⟨.strict, mode⟩⟩) =
            tokens.map .ok ++ [.error error] ∧
          (error.kind = .unterminatedTag kind.opener kind.closer ↔ ¬ kind.closer <:+: after) ∧
          (kind.closer <:+: after →
            ∃ text, error.kind = .malformedTag text ∧
              source.slice? error.offset (error.offset + 3) = some text ∧
              (text = ['{', '%', '}'] ∨ text = ['{', '#', '}'])) := by
  refine ⟨exists_error_iff_isBroken, ?_⟩
  intro error h
  obtain ⟨front, chunk, back, tokens, kind, hsplit, hfront, hitem, hrecovered, rfl⟩ :=
    exists_broken_chunk h
  have hmem : chunk ∈ chunks source := by
    simp [hsplit]
  have hstart : chunk.start = (concat front).byteLength := start_eq_of_chunks_eq hsplit
  have hsource : source = concat front ++ (chunk.text ++ concat back) := by
    rw [← concat_cons, ← concat_append, ← hsplit, concat_chunks]
  obtain ⟨hopener, hcloser⟩ := rest_of_recovered? hsplit hrecovered
  refine ⟨by rw [find?_isBroken hsplit hfront hrecovered, Option.map_some],
    concat front, chunk.text ++ concat back, kind, tokens, ?_, hopener, ?_, ?_, ?_, ?_⟩
  · rw [hstart, hsource, splitAt?_append]
  · rw [Lexer.tokenize_eq_mapM, chunks_concat_of_chunks_eq hsplit]
    exact hfront
  · rw [Lexer.toList_tokens, hsplit]
    exact throughError_of_split hfront hitem
  · rw [hcloser]
    exact TagKind.refusal_eq_unterminatedTag_iff
  · intro hafter
    rw [hcloser] at hafter
    obtain ⟨hlength, htext⟩ := overlapped_of_recovered? hmem hrecovered hafter
    refine ⟨chunk.text, if_pos hafter, ?_, htext⟩
    have hslice : slice? (concat front ++ chunk.text ++ concat back) (concat front).byteLength
        (concat front ++ chunk.text).byteLength = some chunk.text := slice?_append
    rw [byteLength_append, hlength, List.append_assoc, ← hsource, ← hstart] at hslice
    exact hslice

theorem strict_error_at_overlapped_tag :
    let source : Text := ['é', '{', '{', ' ', 'x', '}', '}', '{', '%', '}', '{', '#']
    let error := LexError.malformed ['{', '%', '}'] 8
    Lexer.tokenize ⟨source, ⟨.strict, .legacy⟩⟩ = .error error ∧
      ((chunks source).find? fun chunk => chunk.IsBroken).map Chunk.start = some 8 ∧
      ∃ before after tokens, source.splitAt? 8 = some (before, after) ∧
        Lexer.tokenize ⟨before, ⟨.strict, .legacy⟩⟩ = .ok tokens ∧
        FiniteStream.toList (Lexer.tokens ⟨source, ⟨.strict, .legacy⟩⟩) =
          tokens.map .ok ++ [.error error] := by
  intro source error
  have herror : Lexer.tokenize ⟨source, ⟨.strict, .legacy⟩⟩ = .error error := by
    decide +kernel
  obtain ⟨-, hall⟩ := strict_error_at_first_broken_tag source .legacy
  obtain ⟨hfirst, before, after, -, tokens, hcut, -, hbefore, hstream, -, -⟩ := hall error herror
  exact ⟨herror, hfirst, before, after, tokens, hcut, hbefore, hstream⟩

end TemplateLexer
