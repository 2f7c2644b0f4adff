import TemplateLexer.Proofs.ChunkForm

/-!
# The two trim modes side by side

The trim mode takes no part in the scan, nor in what becomes of a broken tag.
So a text lexed in both modes gives the same error twice, or the same tokens up
to the payloads of its tags.  The legacy payload is the whole inside of a tag
where at most the first character differs from a space, and otherwise it is the
standard payload too.
-/

namespace TemplateLexer

open Text

section

variable {α β ε : Type} {f g : α → Except ε β} {R : α → β × β → Prop}

theorem mapM_pairs {items : List α}
    (h : ∀ item ∈ items,
      (∃ error, f item = .error error ∧ g item = .error error) ∨
        ∃ pair : β × β, f item = .ok pair.1 ∧ g item = .ok pair.2 ∧ R item pair) :
    (∃ error, items.mapM f = .error error ∧ items.mapM g = .error error) ∨
      ∃ pairs : List (β × β), items.mapM f = .ok (pairs.map Prod.fst) ∧
        items.mapM g = .ok (pairs.map Prod.snd) ∧ List.Forall₂ R items pairs := by
  induction items with
  | nil => exact .inr ⟨[], rfl, rfl, .nil⟩
  | cons item items ih =>
      obtain ⟨hitem, hitems⟩ := List.forall_mem_cons.mp h
      rw [List.mapM_cons, List.mapM_cons]
      rcases hitem with ⟨error, hf, hg⟩ | ⟨pair, hf, hg, hpair⟩
      · left
        exact ⟨error, by rw [hf]; rfl, by rw [hg]; rfl⟩
      · rw [hf, hg]
        rcases ih hitems with ⟨error, hfs, hgs⟩ | ⟨pairs, hfs, hgs, hpairs⟩
        · left
          exact ⟨error, by rw [hfs]; rfl, by rw [hgs]; rfl⟩
        · right
          exact ⟨pair :: pairs, by rw [hfs]; rfl, by rw [hgs]; rfl, .cons hpair hpairs⟩

end

/--
The tokens that a chunk makes in the standard and in the legacy mode.  They
differ in their payloads only, and a tag without a payload has nothing to trim.
-/
inductive Chunk.InBothModes (recovery : Recovery) (chunk : Chunk) : Token × Token → Prop
  | text (value : Text) (hkind : ∀ kind, chunk.kind = .tag kind → chunk.text.length < 4) :
      InBothModes recovery chunk (.text value, .text value)
  | emptied {kind : TagKind} (hkind : chunk.kind = .tag kind) (hlength : chunk.text.length < 4)
      (hrecovery : recovery = .legacy) :
      InBothModes recovery chunk (.tag kind [], .tag kind [])
  | payload {kind : TagKind} {inner standard legacy : Text} (hkind : chunk.kind = .tag kind)
      (htext : chunk.text = kind.opener ++ inner ++ kind.closer)
      (hstandard : ∃ before after,
        inner = List.replicate before ' ' ++ standard ++ List.replicate after ' ')
      (htrimmed : Trimmed ' ' standard)
      (hkept : (∀ c ∈ inner.tail, c = ' ') → legacy = inner)
      (hagreed : (∃ c ∈ inner.tail, c ≠ ' ') → legacy = standard)
      (hagain : legacy.trim .standard ' ' = standard) :
      InBothModes recovery chunk (.tag kind standard, .tag kind legacy)

section

variable {chunk : Chunk} {recovery : Recovery}

theorem Chunk.inBothModes_delimited {kind : TagKind} {offset : Nat} (inner : Text) :
    InBothModes recovery ⟨.tag kind, offset, kind.opener ++ inner ++ kind.closer⟩
      (.tag kind (inner.trim .standard ' '), .tag kind (inner.trim .legacy ' ')) :=
  .payload rfl rfl (exists_trim .standard ' ' inner) (trimmed_trim_standard ' ' inner)
    trim_legacy_eq_self trim_legacy_eq_standard (trim_standard_trim .legacy ' ' inner)

theorem Chunk.item_in_both_modes (hform : chunk.kind.Form chunk.text) (recovery : Recovery) :
    (∃ error, chunk.item ⟨recovery, .standard⟩ = .error error ∧
        chunk.item ⟨recovery, .legacy⟩ = .error error) ∨
      ∃ pair : Token × Token, chunk.item ⟨recovery, .standard⟩ = .ok pair.1 ∧
        chunk.item ⟨recovery, .legacy⟩ = .ok pair.2 ∧ chunk.InBothModes recovery pair := by
  cases hform using Chunk.form_cases with
  | @text _ part hne hpart => exact .inr ⟨(.text part, .text part), rfl, rfl, .text part nofun⟩
  | @delimited kind _ inner hinner =>
      right
      refine ⟨(.tag kind (inner.trim .standard ' '), .tag kind (inner.trim .legacy ' ')),
        item_delimited, item_delimited, inBothModes_delimited inner⟩
  | @overlapped kind _ hkind =>
      have hlength : ('{' :: kind.closer).length < 4 := by simp
      rw [item_malformed (TagKind.opener_prefix_overlapped hkind) hlength,
        item_malformed (TagKind.opener_prefix_overlapped hkind) hlength]
      cases recovery with
      | strict => exact .inl ⟨_, rfl, rfl⟩
      | legacy => exact .inr ⟨(.tag kind [], .tag kind []), rfl, rfl, .emptied rfl hlength rfl⟩
      | lossless => exact .inr ⟨(.text _, .text _), rfl, rfl, .text _ fun _ _ => hlength⟩
  | @unterminated _ _ part hopener hpart =>
      rw [item_unterminated, item_unterminated]
      cases recovery with
      | strict => exact .inl ⟨_, rfl, rfl⟩
      | legacy => exact .inr ⟨(.text [], .text []), rfl, rfl, .text [] nofun⟩
      | lossless => exact .inr ⟨(.text part, .text part), rfl, rfl, .text part nofun⟩

end

/--
Whatever the recovery, a text lexed in both trim modes gives one and the same
error or makes the same tokens up to the payloads of its tags.
-/
theorem trim_modes_agree_up_to_payloads (source : Text) (recovery : Recovery) :
    (∃ error, Lexer.tokenize ⟨source, ⟨recovery, .standard⟩⟩ = .error error ∧
        Lexer.tokenize ⟨source, ⟨recovery, .legacy⟩⟩ = .error error) ∨
      ∃ pairs : List (Token × Token),
        Lexer.tokenize ⟨source, ⟨recovery, .standard⟩⟩ = .ok (pairs.map Prod.fst) ∧
        Lexer.tokenize ⟨source, ⟨recovery, .legacy⟩⟩ = .ok (pairs.map Prod.snd) ∧
        List.Forall₂ (Chunk.InBothModes recovery) (chunks source) pairs := by
  rw [Lexer.tokenize_eq_mapM, Lexer.tokenize_eq_mapM]
  apply mapM_pairs
  intro chunk hmem
  exact Chunk.item_in_both_modes (form_of_mem hmem) recovery

example :
    let source : Text := "{{  }}{{x }}{{ xy }}".toList
    Lexer.tokenize ⟨source, ⟨.strict, .standard⟩⟩ =
        .ok [.tag .var [], .tag .var ['x'], .tag .var ['x', 'y']] ∧
      Lexer.tokenize ⟨source, ⟨.strict, .legacy⟩⟩ =
        .ok [.tag .var [' ', ' '], .tag .var ['x', ' '], .tag .var ['x', 'y']] := by
  decide +kernel

end TemplateLexer
