import TemplateLexer.Lexer
import TemplateLexer.Proofs.Splitting
import TemplateLexer.Proofs.Token

/-!
# Lexing as a walk over the chunks

Without a recorder each chunk makes one item, a token or an error, and lexing
collects the tokens up to the first error.  So whatever holds of the chunks of
a text carries over to its tokens.
-/

namespace TemplateLexer

open Text

def Chunk.item (options : Options) (chunk : Chunk) : Except LexError Token :=
  Id.run (chunk.toToken options)

section

variable {options : Options} {kind : TagKind} {text inner : Text} {offset : Nat}

@[simp] theorem Chunk.item_text :
    Chunk.item options ⟨.text, offset, text⟩ = .ok (.text text) := rfl

@[simp] theorem Chunk.item_unterminated :
    Chunk.item options ⟨.unterminated kind, offset, text⟩ =
      options.recovery.ofUnterminated kind ⟨.unterminated kind, offset, text⟩ := rfl

theorem Chunk.item_tag :
    Chunk.item options ⟨.tag kind, offset, text⟩ =
      match Token.ofText? options.trim text with
      | some token => .ok token
      | none => options.recovery.ofMalformed kind ⟨.tag kind, offset, text⟩ := by
  rw [item, toToken]
  cases Token.ofText? options.trim text <;> rfl

theorem Chunk.item_delimited :
    Chunk.item options ⟨.tag kind, offset, kind.opener ++ inner ++ kind.closer⟩ =
      .ok (.tag kind (inner.trim options.trim ' ')) := by
  rw [item_tag, Token.ofText?_delimited]

theorem Chunk.item_malformed (hopener : kind.opener <+: text) (hlength : text.length < 4) :
    Chunk.item options ⟨.tag kind, offset, text⟩ =
      options.recovery.ofMalformed kind ⟨.tag kind, offset, text⟩ := by
  rw [item_tag, Token.ofText?_eq_none_iff.mpr ⟨⟨kind, hopener⟩, hlength⟩]

end

namespace TokenStream

variable {chunks rest : Chunker} {chunk : Chunk} {options : Options}

theorem collect_eq_mapM (chunks : Chunker) (options : Options) :
    Id.run (collect ⟨chunks, options, false⟩) =
      (FiniteStream.toList chunks).mapM (Chunk.item options) := by
  induction chunks using FiniteStream.toList.induct with
  | case1 chunks hend =>
      rw [collect_of_next?_eq_none hend,
        FiniteStream.toList_of_next?_eq_none hend]
      rfl
  | case2 chunks chunk rest hnext ih =>
      rw [collect_of_next?_eq_some hnext,
        FiniteStream.toList_of_next?_eq_some hnext, List.mapM_cons, ← ih]
      cases hitem : Id.run (chunk.toToken options) with
      | error error =>
          simp only [Id.run_bind, hitem, Id.run_pure, Chunk.item]
          rfl
      | ok token =>
          simp only [Id.run_bind, hitem, Id.run_pure, Chunk.item]
          cases Id.run (collect ⟨rest, options, false⟩) <;> rfl

end TokenStream

theorem Lexer.tokenize_eq_mapM (lexer : Lexer) :
    lexer.tokenize = (chunks lexer.source).mapM (Chunk.item lexer.options) := by
  rw [chunks, ← TokenStream.collect_eq_mapM]
  change lexer.tokenize = Id.run lexer.tokens.collect
  rw [Lexer.tokenize, Lexer.tokenizeM]
  cases hcollect : Id.run lexer.tokens.collect <;> simp [EventSink.within, hcollect]

section

variable {α β ε : Type} {f : α → Except ε β}

theorem mapM_eq_ok_iff_forall₂ {items : List α} {values : List β} :
    items.mapM f = .ok values ↔ List.Forall₂ (fun item value => f item = .ok value) items values := by
  induction items generalizing values with
  | nil => simp [pure, Except.pure, eq_comm]
  | cons item items ih =>
      rw [List.mapM_cons, List.forall₂_cons_left_iff]
      constructor
      · intro h
        cases hitem : f item with
        | error error => simp [hitem, bind, Except.bind] at h
        | ok value =>
            cases hitems : items.mapM f with
            | error error => simp [hitem, hitems, bind, Except.bind] at h
            | ok rest =>
                have hvalues : value :: rest = values := by
                  simpa [hitem, hitems, bind, Except.bind, pure, Except.pure] using h
                exact ⟨value, rest, rfl, ih.mp hitems, hvalues.symm⟩
      · rintro ⟨value, rest, hitem, hrest, rfl⟩
        simp [hitem, ih.mpr hrest, bind, Except.bind, pure, Except.pure]

theorem mapM_mapError {δ : Type} (g : ε → δ) (items : List α) :
    items.mapM (fun item => (f item).mapError g) = (items.mapM f).mapError g := by
  induction items with
  | nil => rfl
  | cons item items ih =>
      rw [List.mapM_cons, List.mapM_cons, ih]
      cases f item <;> cases items.mapM f <;> rfl

theorem mapM_append_of_error {front back : List α} {error : ε} (h : front.mapM f = .error error) :
    (front ++ back).mapM f = .error error := by
  rw [List.mapM_append, h]
  rfl

theorem mapM_append_of_ok {front back : List α} {values : List β} (h : front.mapM f = .ok values) :
    (front ++ back).mapM f = (back.mapM f).map (values ++ ·) := by
  rw [List.mapM_append, h]
  cases back.mapM f <;> rfl

end

def LexError.shift (count : Nat) (error : LexError) : LexError :=
  { error with offset := error.offset + count }

theorem Chunk.item_shift (options : Options) (count : Nat) (chunk : Chunk) :
    (chunk.shift count).item options = (chunk.item options).mapError (LexError.shift count) := by
  obtain ⟨kind, start, text⟩ := chunk
  cases kind with
  | text => rfl
  | tag kind =>
      rw [Chunk.shift, item_tag, item_tag]
      cases Token.ofText? options.trim text with
      | some token => rfl
      | none => cases hrecovery : options.recovery <;> rfl
  | unterminated kind =>
      rw [Chunk.shift, item_unterminated, item_unterminated]
      cases options.recovery <;> rfl

theorem mapM_item_shift (options : Options) (count : Nat) (found : List Chunk) :
    (found.map (Chunk.shift count)).mapM (Chunk.item options) =
      (found.mapM (Chunk.item options)).mapError (LexError.shift count) := by
  rw [← mapM_mapError, List.mapM_map]
  simp only [Function.comp_def, Chunk.item_shift]

theorem Lexer.tokenize_of_chunks_eq_append {source before after : Text} {count : Nat}
    (h : chunks source = chunks before ++ (chunks after).map (Chunk.shift count))
    (options : Options) :
    Lexer.tokenize ⟨source, options⟩ =
      match Lexer.tokenize ⟨before, options⟩ with
      | .error error => .error error
      | .ok tokens =>
          match Lexer.tokenize ⟨after, options⟩ with
          | .error error => .error (error.shift count)
          | .ok rest => .ok (tokens ++ rest) := by
  simp only [tokenize_eq_mapM, h]
  cases hbefore : (chunks before).mapM (Chunk.item options) with
  | error error => rw [mapM_append_of_error hbefore]
  | ok tokens =>
      rw [mapM_append_of_ok hbefore, mapM_item_shift]
      cases (chunks after).mapM (Chunk.item options) <;> rfl

/--
Lexing knows nothing of what stands on the other side of a chunk's end.  An
error in front hides what is behind it; otherwise the tokens or the error
behind follow, the error with its offset counted from the cut.
-/
theorem lexing_splits_at_chunk_boundary {source : Text} {offset : Nat}
    (hoffset : IsChunkBoundary source offset) :
    ∃ before after, source.splitAt? offset = some (before, after) ∧
      chunks source = chunks before ++ (chunks after).map (Chunk.shift offset) ∧
      (∀ chunk ∈ chunks source, chunks chunk.text = [{ chunk with start := 0 }]) ∧
      ∀ options : Options,
        (∀ error, Lexer.tokenize ⟨before, options⟩ = .error error →
          Lexer.tokenize ⟨source, options⟩ = .error error) ∧
        ∀ tokens, Lexer.tokenize ⟨before, options⟩ = .ok tokens →
          (∀ rest, Lexer.tokenize ⟨after, options⟩ = .ok rest →
            Lexer.tokenize ⟨source, options⟩ = .ok (tokens ++ rest)) ∧
          ∀ error, Lexer.tokenize ⟨after, options⟩ = .error error →
            Lexer.tokenize ⟨source, options⟩ = .error ⟨error.kind, offset + error.offset⟩ := by
  obtain ⟨before, after, hsplit, hchunks⟩ := hoffset.chunks_eq_append
  refine ⟨before, after, hsplit, hchunks, fun chunk => chunks_text_of_mem, ?_⟩
  intro options
  rw [Lexer.tokenize_of_chunks_eq_append hchunks options]
  constructor
  · intro error hbefore
    rw [hbefore]
  · intro tokens hbefore
    constructor
    · intro rest hafter
      rw [hbefore, hafter]
    · intro error hafter
      simp [hbefore, hafter, LexError.shift, Nat.add_comm]

theorem lexing_splits_before_malformed_tag :
    let source : Text := ['é', '{', '{', '}', '}', '{', '#', '}']
    IsChunkBoundary source 6 ∧
      Lexer.tokenize ⟨['é', '{', '{', '}', '}'], {}⟩ = .ok [.text ['é'], .tag .var []] ∧
      Lexer.tokenize ⟨['{', '#', '}'], {}⟩ = .error (.malformed ['{', '#', '}'] 0) ∧
      Lexer.tokenize ⟨source, {}⟩ = .error (.malformed ['{', '#', '}'] 6) := by
  intro source
  have hoffset : IsChunkBoundary source 6 :=
    .inr ⟨⟨.tag .var, 2, ['{', '{', '}', '}']⟩, by decide +kernel, rfl⟩
  have hbefore :
      Lexer.tokenize ⟨['é', '{', '{', '}', '}'], {}⟩ = .ok [.text ['é'], .tag .var []] := by
    decide +kernel
  have hafter :
      Lexer.tokenize ⟨['{', '#', '}'], {}⟩ = .error (.malformed ['{', '#', '}'] 0) := by
    decide +kernel
  obtain ⟨before, after, hsplit, -, -, hlex⟩ := lexing_splits_at_chunk_boundary hoffset
  have hcut : source.splitAt? 6 = some (['é', '{', '{', '}', '}'], ['{', '#', '}']) := by
    decide
  rw [hcut] at hsplit
  cases hsplit
  exact ⟨hoffset, hbefore, hafter, ((hlex {}).2 _ hbefore).2 _ hafter⟩

/-- An error behind the cut is not the error of the whole when there is one in front too. -/
theorem lexing_hides_error_behind_error :
    let tag : Text := ['{', '#', '}']
    IsChunkBoundary (tag ++ tag) 3 ∧ (tag ++ tag).splitAt? 3 = some (tag, tag) ∧
      Lexer.tokenize ⟨tag, {}⟩ = .error ⟨.malformedTag tag, 0⟩ ∧
      Lexer.tokenize ⟨tag ++ tag, {}⟩ ≠ .error ⟨.malformedTag tag, 3 + 0⟩ := by
  intro tag
  refine ⟨.inr ⟨⟨.tag .comment, 0, tag⟩, by decide +kernel, rfl⟩, by decide, by decide +kernel, ?_⟩
  have hwhole : Lexer.tokenize ⟨tag ++ tag, {}⟩ = .error ⟨.malformedTag tag, 0⟩ := by
    decide +kernel
  rw [hwhole]
  simp

end TemplateLexer
