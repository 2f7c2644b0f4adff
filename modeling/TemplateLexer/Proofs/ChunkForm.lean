import TemplateLexer.Proofs.TokenStream

/-!
# The four forms of a chunk

A chunk is literal text, a tag with a payload between its delimiters, a tag
whose closer begins inside its opener, or a tag that is never closed.  The last
two are broken: they have no payload, and the recovery decides what becomes of
them.  Lossless lexing makes a token of every chunk, and that token shows by
itself whether the chunk was broken and what the other recoveries make of it.
-/

namespace TemplateLexer

open Text

inductive ChunkKind.Form : ChunkKind → Text → Prop
  | text {part : Text} (hne : part ≠ []) (hpart : ∀ kind : TagKind, ¬ kind.opener <:+: part) :
      Form .text part
  | delimited {kind : TagKind} {inner : Text} (hinner : ¬ kind.closer <:+: inner) :
      Form (.tag kind) (kind.opener ++ inner ++ kind.closer)
  | overlapped {kind : TagKind} (hkind : kind ≠ .var) : Form (.tag kind) ('{' :: kind.closer)
  | unterminated {kind : TagKind} {part : Text} (hopener : kind.opener <+: part)
      (hpart : ¬ kind.closer <:+: part) : Form (.unterminated kind) part

section

variable {kind : ChunkKind} {part rest : Text} {source : Text} {chunk : Chunk}

theorem ChunkKind.Leads.form (h : kind.Leads part rest) : kind.Form part := by
  cases h with
  | text hne hpart =>
      have halone : Unmarked TagKind.openers part [] := by
        apply Unmarked.of_append
        simpa using hpart
      exact .text hne (TagKind.unmarked_openers_nil_iff.mp halone)
  | @tag kind _ _ htag =>
      by_cases hlength : 4 ≤ part.length
      · obtain ⟨inner, rfl, hinner⟩ := htag.exists_inner hlength
        have halone : Unmarked [kind.closer] inner [] := by
          apply Unmarked.of_append
          simpa using hinner
        exact .delimited ((unmarked_singleton_nil_iff kind.closer_ne_nil).mp halone)
      · obtain ⟨hkind, rfl⟩ := htag.overlapped (Nat.lt_of_not_le hlength)
        exact .overlapped hkind
  | @unterminated kind _ hopener hpart =>
      exact .unterminated hopener ((unmarked_singleton_nil_iff kind.closer_ne_nil).mp hpart)

theorem form_of_mem_chunksFrom {offset : Nat} (h : chunk ∈ chunksFrom offset source) :
    chunk.kind.Form chunk.text := by
  obtain ⟨front, back, hsplit⟩ := List.append_of_mem h
  exact ((isScan_chunksFrom offset source).1.2 front chunk back hsplit).form

theorem form_of_mem (h : chunk ∈ chunks source) : chunk.kind.Form chunk.text :=
  form_of_mem_chunksFrom h

end

@[elab_as_elim]
theorem Chunk.form_cases {motive : (chunk : Chunk) → chunk.kind.Form chunk.text → Prop}
    (text : ∀ {offset : Nat} {part : Text} (hne : part ≠ [])
      (hpart : ∀ kind : TagKind, ¬ kind.opener <:+: part),
      motive ⟨.text, offset, part⟩ (.text hne hpart))
    (delimited : ∀ {kind : TagKind} {offset : Nat} {inner : Text}
      (hinner : ¬ kind.closer <:+: inner),
      motive ⟨.tag kind, offset, kind.opener ++ inner ++ kind.closer⟩ (.delimited hinner))
    (overlapped : ∀ {kind : TagKind} {offset : Nat} (hkind : kind ≠ .var),
      motive ⟨.tag kind, offset, '{' :: kind.closer⟩ (.overlapped hkind))
    (unterminated : ∀ {kind : TagKind} {offset : Nat} {part : Text}
      (hopener : kind.opener <+: part) (hpart : ¬ kind.closer <:+: part),
      motive ⟨.unterminated kind, offset, part⟩ (.unterminated hopener hpart))
    {chunk : Chunk} (hform : chunk.kind.Form chunk.text) : motive chunk hform := by
  obtain ⟨kind, offset, part⟩ := chunk
  change kind.Form part at hform
  cases hform with
  | text hne hpart => exact text hne hpart
  | delimited hinner => exact delimited hinner
  | overlapped hkind => exact overlapped hkind
  | unterminated hopener hpart => exact unterminated hopener hpart

/-- A tag that is never closed, or too short for its two delimiters. -/
def Chunk.IsBroken (chunk : Chunk) : Prop :=
  match chunk.kind with
  | .text => False
  | .tag _ => chunk.text = ['{', '%', '}'] ∨ chunk.text = ['{', '#', '}']
  | .unterminated _ => True

instance (chunk : Chunk) : Decidable chunk.IsBroken :=
  match chunk with
  | ⟨.text, _, _⟩ => inferInstanceAs (Decidable False)
  | ⟨.tag _, _, _⟩ => inferInstanceAs (Decidable (_ ∨ _))
  | ⟨.unterminated _, _, _⟩ => inferInstanceAs (Decidable True)

section

variable {options : Options} {mode : TrimMode} {kind : TagKind} {part inner : Text}
  {offset : Nat} {chunk : Chunk}

theorem TagKind.opener_prefix_overlapped (hkind : kind ≠ .var) :
    kind.opener <+: '{' :: kind.closer := by
  cases kind <;> simp [opener, closer] at hkind ⊢

theorem Token.ofText?_overlapped (hkind : kind ≠ .var) :
    Token.ofText? mode ('{' :: kind.closer) = none :=
  ofText?_eq_none_iff.mpr ⟨⟨kind, TagKind.opener_prefix_overlapped hkind⟩, by simp⟩

theorem TagKind.closer_infix_overlapped : kind.closer <:+: '{' :: kind.closer :=
  (List.suffix_cons '{' kind.closer).isInfix

theorem Chunk.isBroken_overlapped (hkind : kind ≠ .var) :
    Chunk.IsBroken ⟨.tag kind, offset, '{' :: kind.closer⟩ := by
  cases kind <;> simp [IsBroken, TagKind.closer] at hkind ⊢

theorem Chunk.not_isBroken_delimited :
    ¬ Chunk.IsBroken ⟨.tag kind, offset, kind.opener ++ inner ++ kind.closer⟩ := by
  intro h
  have hshort : (kind.opener ++ inner ++ kind.closer).length = 3 := by
    rcases h with h | h <;> exact congrArg List.length h
  simp at hshort
  omega

/-! ## Tokens without loss -/

/-- The token that lossless lexing makes of a chunk: a broken tag keeps its text. -/
def Chunk.token (mode : TrimMode) (chunk : Chunk) : Token :=
  match chunk.kind with
  | .text => .text chunk.text
  | .tag _ => (Token.ofText? mode chunk.text).getD (.text chunk.text)
  | .unterminated _ => .text chunk.text

@[simp] theorem Chunk.token_text :
    Chunk.token mode ⟨.text, offset, part⟩ = .text part := rfl

@[simp] theorem Chunk.token_unterminated :
    Chunk.token mode ⟨.unterminated kind, offset, part⟩ = .text part := rfl

theorem Chunk.token_delimited :
    Chunk.token mode ⟨.tag kind, offset, kind.opener ++ inner ++ kind.closer⟩ =
      .tag kind (inner.trim mode ' ') := by
  simp only [token, Token.ofText?_delimited, Option.getD_some]

theorem Chunk.token_overlapped (hkind : kind ≠ .var) :
    Chunk.token mode ⟨.tag kind, offset, '{' :: kind.closer⟩ = .text ('{' :: kind.closer) := by
  simp [token, Token.ofText?_overlapped hkind]

theorem Chunk.item_lossless (mode : TrimMode) (chunk : Chunk) :
    chunk.item ⟨.lossless, mode⟩ = .ok (chunk.token mode) := by
  obtain ⟨kind, start, text⟩ := chunk
  cases kind with
  | text => rfl
  | unterminated kind => rfl
  | tag kind =>
      rw [item_tag]
      cases htoken : Token.ofText? mode text <;>
        simp [token, htoken, Recovery.ofMalformed]

theorem Lexer.tokenize_lossless (source : Text) (mode : TrimMode) :
    Lexer.tokenize ⟨source, ⟨.lossless, mode⟩⟩ =
      .ok ((chunks source).map (Chunk.token mode)) := by
  rw [tokenize_eq_mapM, mapM_eq_ok_iff_map_eq]
  simp [Function.comp_def, Chunk.item_lossless]

/-- The kind of the tag whose raw text a token holds. -/
def Token.recovered? : Token → Option TagKind
  | .text value => TagKind.startingWith? value
  | .tag _ _ => none

def TagKind.refusal (kind : TagKind) (text : Text) : LexErrorKind :=
  if kind.closer <:+: text then .malformedTag text
  else .unterminatedTag kind.opener kind.closer

/-- What a token of lossless lexing is replaced by under the legacy rules. -/
def Token.inLegacy (token : Token) : Token :=
  match token.recovered? with
  | none => token
  | some kind => if kind.closer <:+: token.value then .tag kind [] else .text []

theorem Token.recovered?_text_eq_some_iff :
    (Token.text part).recovered? = some kind ↔ kind.opener <+: part :=
  TagKind.startingWith?_eq_some_iff

theorem Token.recovered?_text_eq_none (h : ∀ kind : TagKind, ¬ kind.opener <:+: part) :
    (Token.text part).recovered? = none :=
  TagKind.startingWith?_eq_none_iff.mpr fun kind hkind => h kind hkind.isInfix

@[simp] theorem Token.recovered?_tag : (Token.tag kind part).recovered? = none := rfl

theorem Token.recovered?_overlapped (hkind : kind ≠ .var) :
    (Token.text ('{' :: kind.closer)).recovered? = some kind :=
  recovered?_text_eq_some_iff.mpr (TagKind.opener_prefix_overlapped hkind)

theorem Token.inLegacy_of_recovered?_eq_none {token : Token} (h : token.recovered? = none) :
    token.inLegacy = token := by
  simp [inLegacy, h]

theorem Token.inLegacy_overlapped (hkind : kind ≠ .var) :
    (Token.text ('{' :: kind.closer)).inLegacy = .tag kind [] := by
  simp [inLegacy, recovered?_overlapped hkind, value, TagKind.closer_infix_overlapped]

theorem Token.inLegacy_unterminated (hopener : kind.opener <+: part)
    (hpart : ¬ kind.closer <:+: part) : (Token.text part).inLegacy = .text [] := by
  simp [inLegacy, recovered?_text_eq_some_iff.mpr hopener, value, hpart]

theorem Chunk.isBroken_iff_recovered? (hform : chunk.kind.Form chunk.text) :
    chunk.IsBroken ↔ (chunk.token mode).recovered?.isSome := by
  cases hform using Chunk.form_cases with
  | text hne hpart => simp [IsBroken, Token.recovered?_text_eq_none hpart]
  | delimited hinner =>
      rw [token_delimited, iff_false_left not_isBroken_delimited]
      simp
  | overlapped hkind =>
      simp [isBroken_overlapped hkind, token_overlapped hkind, Token.recovered?_overlapped hkind]
  | unterminated hopener hpart =>
      simp [IsBroken, Token.recovered?_text_eq_some_iff.mpr hopener]

theorem Chunk.item_legacy (hform : chunk.kind.Form chunk.text) :
    chunk.item ⟨.legacy, mode⟩ = .ok (chunk.token mode).inLegacy := by
  cases hform using Chunk.form_cases with
  | text hne hpart =>
      rw [token_text, Token.inLegacy_of_recovered?_eq_none (Token.recovered?_text_eq_none hpart),
        item_text]
  | delimited hinner =>
      rw [token_delimited, Token.inLegacy_of_recovered?_eq_none Token.recovered?_tag,
        item_delimited]
  | overlapped hkind =>
      rw [token_overlapped hkind, Token.inLegacy_overlapped hkind,
        item_malformed (TagKind.opener_prefix_overlapped hkind) (by simp)]
      rfl
  | unterminated hopener hpart =>
      rw [token_unterminated, Token.inLegacy_unterminated hopener hpart, item_unterminated]
      rfl

theorem Chunk.item_strict (hform : chunk.kind.Form chunk.text) (mode : TrimMode) :
    chunk.item ⟨.strict, mode⟩ =
      match (chunk.token mode).recovered? with
      | none => .ok (chunk.token mode)
      | some kind => .error ⟨kind.refusal chunk.text, chunk.start⟩ := by
  cases hform using Chunk.form_cases with
  | text hne hpart => simp [Token.recovered?_text_eq_none hpart]
  | delimited hinner =>
      rw [item_delimited, token_delimited]
      simp
  | overlapped hkind =>
      simp [item_malformed (TagKind.opener_prefix_overlapped hkind), Recovery.ofMalformed,
        token_overlapped hkind, Token.recovered?_overlapped hkind, LexError.malformed,
        TagKind.refusal, TagKind.closer_infix_overlapped]
  | unterminated hopener hpart =>
      simp [Recovery.ofUnterminated, Token.recovered?_text_eq_some_iff.mpr hopener,
        LexError.unterminated, TagKind.refusal, hpart]

theorem Chunk.form_of_recovered? (hform : chunk.kind.Form chunk.text)
    (hrecovered : (chunk.token mode).recovered? = some kind) :
    chunk.kind = .tag kind ∧ kind ≠ .var ∧ chunk.text = '{' :: kind.closer ∨
      chunk.kind = .unterminated kind ∧ kind.opener <+: chunk.text ∧
        ¬ kind.closer <:+: chunk.text := by
  cases hform using Chunk.form_cases with
  | text hne hpart => simp [Token.recovered?_text_eq_none hpart] at hrecovered
  | delimited hinner =>
      rw [token_delimited] at hrecovered
      simp at hrecovered
  | overlapped hkind =>
      rw [token_overlapped hkind, Token.recovered?_overlapped hkind] at hrecovered
      cases hrecovered
      exact .inl ⟨rfl, hkind, rfl⟩
  | unterminated hopener hpart =>
      rw [token_unterminated, Token.recovered?_text_eq_some_iff] at hrecovered
      obtain rfl := TagKind.opener_prefix_inj hopener hrecovered
      exact .inr ⟨rfl, hopener, hpart⟩

end

section

variable {mode : TrimMode} {found : List Chunk} {tokens : List Token}

theorem mapM_item_strict_eq_ok_iff (hform : ∀ chunk ∈ found, chunk.kind.Form chunk.text) :
    found.mapM (Chunk.item ⟨.strict, mode⟩) = .ok tokens ↔
      tokens = found.map (Chunk.token mode) ∧ ∀ token ∈ tokens, token.recovered? = none := by
  rw [mapM_eq_ok_iff_forall₂]
  induction found generalizing tokens with
  | nil =>
      rw [List.forall₂_nil_left_iff, List.map_nil]
      simp +contextual
  | cons chunk found ih =>
      obtain ⟨hchunk, hfound⟩ := List.forall_mem_cons.mp hform
      have hitem := Chunk.item_strict hchunk mode
      rw [List.forall₂_cons_left_iff, List.map_cons]
      constructor
      · rintro ⟨token, rest, htoken, hrest, rfl⟩
        obtain ⟨rfl, hsound⟩ := (ih hfound).mp hrest
        cases hrecovered : (chunk.token mode).recovered? with
        | none =>
            have heq : chunk.token mode = token := by
              simpa [hitem, hrecovered] using htoken
            subst heq
            exact ⟨rfl, List.forall_mem_cons.mpr ⟨hrecovered, hsound⟩⟩
        | some kind => simp [hitem, hrecovered] at htoken
      · rintro ⟨rfl, hsound⟩
        obtain ⟨hrecovered, hrest⟩ := List.forall_mem_cons.mp hsound
        refine ⟨_, _, ?_, (ih hfound).mpr ⟨rfl, hrest⟩, rfl⟩
        simp [hitem, hrecovered]

theorem Lexer.tokenize_strict_eq_ok_iff {source : Text} :
    Lexer.tokenize ⟨source, ⟨.strict, mode⟩⟩ = .ok tokens ↔
      Lexer.tokenize ⟨source, ⟨.lossless, mode⟩⟩ = .ok tokens ∧
        ∀ token ∈ tokens, token.recovered? = none := by
  rw [tokenize_eq_mapM, mapM_item_strict_eq_ok_iff fun chunk => form_of_mem, tokenize_lossless,
    Except.ok.injEq, eq_comm]

end

end TemplateLexer
