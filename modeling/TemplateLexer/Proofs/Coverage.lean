import TemplateLexer.Proofs.ChunkForm

/-!
# What the tokens keep of a text

The tokens of lossless lexing, and of strict lexing where it succeeds, belong
one by one to pieces that make up the whole text.  A piece of literal text is
its token's value.  A piece that is a tag shows the payload between its
delimiters, with nothing but spaces beside it.
-/

namespace TemplateLexer

open Text

/-- The piece of a text that a token accounts for. -/
def Token.IsPiece (mode : TrimMode) (token : Token) (piece : Text) : Prop :=
  match token with
  | .text value => piece = value
  | .tag kind value =>
      (∃ before after,
        piece = kind.opener ++ List.replicate before ' ' ++ value ++
          List.replicate after ' ' ++ kind.closer) ∧
        ¬ kind.closer <:+: value ∧ (mode = .standard → Trimmed ' ' value)

theorem Chunk.isPiece_token {chunk : Chunk} (hform : chunk.kind.Form chunk.text)
    (mode : TrimMode) : (chunk.token mode).IsPiece mode chunk.text := by
  cases hform using Chunk.form_cases with
  | text hne hpart => rfl
  | unterminated hopener hpart => rfl
  | overlapped hkind =>
      rw [token_overlapped hkind]
      rfl
  | @delimited kind _ inner hinner =>
      rw [token_delimited]
      refine ⟨?_, ?_, ?_⟩
      · obtain ⟨before, after, hsplit⟩ := exists_trim mode ' ' inner
        refine ⟨before, after, ?_⟩
        calc
          kind.opener ++ inner ++ kind.closer =
              kind.opener ++ (List.replicate before ' ' ++ inner.trim mode ' ' ++
                List.replicate after ' ') ++ kind.closer := by rw [← hsplit]
          _ = _ := by simp only [List.append_assoc]
      · exact not_infix_trim mode hinner
      · rintro rfl
        exact trimmed_trim_standard ' ' inner

theorem forall₂_isPiece_token (source : Text) (mode : TrimMode) :
    List.Forall₂ (Token.IsPiece mode) ((chunks source).map (Chunk.token mode))
      ((chunks source).map Chunk.text) := by
  rw [List.forall₂_map_left_iff, List.forall₂_map_right_iff, List.forall₂_same]
  intro chunk hmem
  exact Chunk.isPiece_token (form_of_mem hmem) mode

/--
Lexing without loss never fails.  Neither its tokens nor those of a strict
lexing that succeeds lose anything but delimiters and the spaces beside them.
-/
theorem tokens_cover_source (source : Text) (mode : TrimMode) :
    (∃ tokens, Lexer.tokenize ⟨source, ⟨.lossless, mode⟩⟩ = .ok tokens) ∧
      ∀ recovery tokens, recovery = .lossless ∨ recovery = .strict →
        Lexer.tokenize ⟨source, ⟨recovery, mode⟩⟩ = .ok tokens →
          ∃ pieces : List Text, pieces.flatten = source ∧
            List.Forall₂ (Token.IsPiece mode) tokens pieces := by
  refine ⟨⟨_, Lexer.tokenize_lossless source mode⟩, ?_⟩
  intro recovery tokens hrecovery htokens
  have hlossless : Lexer.tokenize ⟨source, ⟨.lossless, mode⟩⟩ = .ok tokens := by
    rcases hrecovery with rfl | rfl
    · exact htokens
    · exact (Lexer.tokenize_strict_eq_ok_iff.mp htokens).1
  rw [Lexer.tokenize_lossless, Except.ok.injEq] at hlossless
  subst hlossless
  refine ⟨(chunks source).map Chunk.text, ?_, forall₂_isPiece_token source mode⟩
  rw [← List.flatMap_def]
  exact concat_chunks source

theorem tokens_cover_overlapped_tag :
    let source : Text := ['é', '{', '{', ' ', '}', '}', '{', '%', 'x', ' ', '%', '}', '{', '#', '}']
    let tokens : List Token := [.text ['é'], .tag .var [' '], .tag .block ['x', ' '],
      .text ['{', '#', '}']]
    Lexer.tokenize ⟨source, ⟨.lossless, .legacy⟩⟩ = .ok tokens ∧
      ∃ pieces : List Text, pieces.flatten = source ∧
        List.Forall₂ (Token.IsPiece .legacy) tokens pieces := by
  intro source tokens
  have htokens : Lexer.tokenize ⟨source, ⟨.lossless, .legacy⟩⟩ = .ok tokens := by
    decide +kernel
  exact ⟨htokens, (tokens_cover_source source .legacy).2 .lossless tokens (.inl rfl) htokens⟩

end TemplateLexer
