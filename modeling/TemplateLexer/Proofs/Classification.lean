import Mathlib.Tactic.TFAE
import TemplateLexer.Proofs.ChunkForm

/-!
# The kind of a chunk, found twice

The scanner knows the kind of a chunk from the marker that it stopped at, and a
token is made from the chunk's text alone.  The two agree on every chunk.  A
tag makes no token in one case only: its closer begins inside its opener.
Whether that is so can be told from its length in characters, from its length
in bytes, or from the two texts that such a tag can have.
-/

namespace TemplateLexer

open Text

section

variable {kind : ChunkKind} {opening : TagKind} {part : Text} {mode : TrimMode}

namespace ChunkKind.Form

theorem startingWith?_eq (h : kind.Form part) : TagKind.startingWith? part = kind.tagKind? := by
  cases h with
  | text hne hpart => exact Token.recovered?_text_eq_none hpart
  | delimited hinner =>
      rw [tagKind?, TagKind.startingWith?_eq_some_iff, List.append_assoc]
      exact List.prefix_append _ _
  | overlapped hkind =>
      rw [tagKind?, TagKind.startingWith?_eq_some_iff]
      exact TagKind.opener_prefix_overlapped hkind
  | unterminated hopener hpart =>
      rw [tagKind?, TagKind.startingWith?_eq_some_iff]
      exact hopener

theorem ofText?_eq_text (h : Form .text part) : Token.ofText? mode part = some (.text part) := by
  rw [Token.ofText?, h.startingWith?_eq, tagKind?]

theorem overlapped_tfae (h : Form (.tag opening) part) (mode : TrimMode) :
    [part.length < 4,
      part.byteLength < 4,
      part = ['{', '%', '}'] ∨ part = ['{', '#', '}'],
      opening ≠ .var ∧ part = '{' :: opening.closer,
      Token.ofText? mode part = none].TFAE := by
  have hopener := TagKind.startingWith?_eq_some_iff.mp h.startingWith?_eq
  tfae_have 1 → 4 := by
    intro hlength
    cases h with
    | delimited hinner =>
        simp at hlength
        omega
    | overlapped hkind => exact ⟨hkind, rfl⟩
  tfae_have 4 → 3 := by
    rintro ⟨hkind, rfl⟩
    cases opening with
    | var => exact absurd rfl hkind
    | block => exact .inl rfl
    | comment => exact .inr rfl
  tfae_have 3 → 2 := by
    rintro (rfl | rfl)
    · decide
    · decide
  tfae_have 2 → 1 := (length_le_byteLength part).trans_lt
  tfae_have 1 ↔ 5 := by
    rw [Token.ofText?_eq_none_iff, and_iff_right ⟨opening, hopener⟩]
  tfae_finish

theorem exists_inner_of_length (h : Form (.tag opening) part) (hlength : 4 ≤ part.length)
    (mode : TrimMode) :
    ∃ inner, part = opening.opener ++ inner ++ opening.closer ∧ ¬ opening.closer <:+: inner ∧
      Token.ofText? mode part = some (.tag opening (inner.trim mode ' ')) := by
  cases h with
  | @delimited _ inner hinner => exact ⟨inner, rfl, hinner, Token.ofText?_delimited mode _ inner⟩
  | overlapped hkind => simp at hlength

end ChunkKind.Form

end

/--
Whatever place a scan starts from, each of its chunks is of the kind that its
text alone shows.  The tags that make no token are those of three characters,
and a longer one makes the tag token of what stands between its delimiters.
-/
theorem classifications_agree {cursor : Cursor} {chunk : Chunk}
    (hmem : chunk ∈ FiniteStream.toList (Chunker.ofCursor cursor)) (mode : TrimMode) :
    TagKind.startingWith? chunk.text = chunk.kind.tagKind? ∧
      (chunk.kind = .text → Token.ofText? mode chunk.text = some (.text chunk.text)) ∧
      ∀ kind : TagKind, chunk.kind = .tag kind →
        [chunk.text.length < 4,
          chunk.text.byteLength < 4,
          chunk.text = ['{', '%', '}'] ∨ chunk.text = ['{', '#', '}'],
          kind ≠ .var ∧ chunk.text = '{' :: kind.closer,
          Token.ofText? mode chunk.text = none].TFAE ∧
        (4 ≤ chunk.text.length →
          ∃ inner, chunk.text = kind.opener ++ inner ++ kind.closer ∧
            ¬ kind.closer <:+: inner ∧
            Token.ofText? mode chunk.text = some (.tag kind (inner.trim mode ' '))) := by
  have hform : chunk.kind.Form chunk.text := form_of_mem_chunksFrom hmem
  refine ⟨hform.startingWith?_eq, ?_, ?_⟩
  · intro hkind
    rw [hkind] at hform
    exact hform.ofText?_eq_text
  · intro kind hkind
    rw [hkind] at hform
    exact ⟨hform.overlapped_tfae mode, fun hlength => hform.exists_inner_of_length hlength mode⟩

theorem classifications_agree_behind_opener :
    let cursor : Cursor := ⟨1, ['{', 'é', '{', '{', '}', ' ', '}', '}', '{', '%', '}']⟩
    let found : List Chunk := [⟨.text, 1, ['{', 'é']⟩,
      ⟨.tag .var, 4, ['{', '{', '}', ' ', '}', '}']⟩, ⟨.tag .block, 10, ['{', '%', '}']⟩]
    FiniteStream.toList (Chunker.ofCursor cursor) = found ∧
      Token.ofText? .legacy ['{', 'é'] = some (.text ['{', 'é']) ∧
      (∃ inner, ['{', '{', '}', ' ', '}', '}'] = TagKind.var.opener ++ inner ++ ['}', '}'] ∧
        ¬ ['}', '}'] <:+: inner ∧
        Token.ofText? .legacy ['{', '{', '}', ' ', '}', '}'] =
          some (.tag .var (trim .legacy ' ' inner))) ∧
      Token.ofText? .legacy ['{', '%', '}'] = none := by
  intro cursor found
  have hfound : FiniteStream.toList (Chunker.ofCursor cursor) = found := by decide +kernel
  have hmem : ∀ chunk ∈ found, chunk ∈ FiniteStream.toList (Chunker.ofCursor cursor) := by
    rw [hfound]
    exact fun chunk h => h
  obtain ⟨-, htext, -⟩ :=
    classifications_agree (hmem ⟨.text, 1, ['{', 'é']⟩ (by simp [found])) .legacy
  obtain ⟨-, -, hvar⟩ :=
    classifications_agree (hmem ⟨.tag .var, 4, ['{', '{', '}', ' ', '}', '}']⟩ (by simp [found]))
      .legacy
  obtain ⟨-, -, hblock⟩ :=
    classifications_agree (hmem ⟨.tag .block, 10, ['{', '%', '}']⟩ (by simp [found])) .legacy
  have hshort : Token.ofText? .legacy ['{', '%', '}'] = none :=
    ((hblock .block rfl).1.out 0 4).mp (by decide)
  exact ⟨hfound, htext rfl, (hvar .var rfl).2 (by decide), hshort⟩

end TemplateLexer
