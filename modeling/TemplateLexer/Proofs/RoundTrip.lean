import TemplateLexer.Proofs.ChunkForm

/-!
# Tokens and their rendering

A token is rendered as its text, or as its payload between the delimiters with
one space on each side.  The tokens that strict lexing makes are exactly the
well formed ones, and these come back from what they are rendered as.
-/

namespace TemplateLexer

open Text

namespace Token

def render : Token → Text
  | text value => value
  | tag kind payload => kind.opener ++ ([' '] ++ payload ++ [' ']) ++ kind.closer

def chunkKind : Token → ChunkKind
  | text _ => .text
  | tag kind _ => .tag kind

/-- Literal text shows no opener, and a payload shows no space to trim and no closer of its own. -/
def IsClean : Token → Prop
  | text value => value ≠ [] ∧ ∀ opener ∈ TagKind.openers, ¬ opener <:+: value
  | tag kind payload => Trimmed ' ' payload ∧ ¬ kind.closer <:+: payload

/-- Literal text ends before a tag only, and not with a brace that opens another. -/
def MayPrecede : Token → Token → Prop
  | text _, text _ => False
  | text value, tag _ _ => value.getLast? ≠ some '{'
  | tag _ _, _ => True

instance (token : Token) : Decidable token.IsClean :=
  match token with
  | text _ => inferInstanceAs (Decidable (_ ∧ _))
  | tag _ _ => inferInstanceAs (Decidable (_ ∧ _))

instance (first second : Token) : Decidable (first.MayPrecede second) :=
  match first, second with
  | text _, text _ => inferInstanceAs (Decidable False)
  | text _, tag _ _ => inferInstanceAs (Decidable (_ ≠ _))
  | tag _ _, _ => inferInstanceAs (Decidable True)

end Token

def rebuild (tokens : List Token) : Text :=
  tokens.flatMap Token.render

@[simp] theorem rebuild_nil : rebuild [] = [] := rfl

@[simp] theorem rebuild_cons (token : Token) (tokens : List Token) :
    rebuild (token :: tokens) = token.render ++ rebuild tokens := rfl

structure WellFormed (tokens : List Token) : Prop where
  clean : ∀ token ∈ tokens, token.IsClean
  chain : tokens.IsChain Token.MayPrecede

instance (tokens : List Token) : Decidable (WellFormed tokens) :=
  decidable_of_iff ((∀ token ∈ tokens, token.IsClean) ∧ tokens.IsChain Token.MayPrecede)
    ⟨fun h => ⟨h.1, h.2⟩, fun h => ⟨h.clean, h.chain⟩⟩

theorem wellFormed_cons {token : Token} {tokens : List Token} :
    WellFormed (token :: tokens) ↔
      token.IsClean ∧ (∀ next ∈ tokens.head?, token.MayPrecede next) ∧ WellFormed tokens := by
  constructor
  · rintro ⟨hclean, hchain⟩
    obtain ⟨htoken, htokens⟩ := List.forall_mem_cons.mp hclean
    obtain ⟨hnext, htail⟩ := List.isChain_cons.mp hchain
    exact ⟨htoken, hnext, htokens, htail⟩
  · rintro ⟨htoken, hnext, htokens, htail⟩
    exact ⟨List.forall_mem_cons.mpr ⟨htoken, htokens⟩, List.isChain_cons.mpr ⟨hnext, htail⟩⟩

section

variable {kind : TagKind} {text payload rest : Text} {token : Token}

theorem TagKind.exists_opener_eq (kind : TagKind) : ∃ c, kind.opener = ['{', c] := by
  cases kind <;> exact ⟨_, rfl⟩

theorem TagKind.markerAt?_closer_space {c : Char} :
    markerAt? [kind.closer] (c :: ' ' :: rest) = none := by
  cases kind <;> simp [closer, markerAt?]

theorem TagKind.unmarked_opener_space :
    Unmarked [kind.closer] kind.opener (' ' :: rest) := by
  cases kind <;> simp [opener, closer, markerAt?]

theorem TagKind.unmarked_space : Unmarked [kind.closer] [' '] rest := by
  cases kind <;> simp [closer, markerAt?]

theorem Token.isTag_render (hpayload : ¬ kind.closer <:+: payload) :
    kind.IsTag (render (.tag kind payload)) := by
  refine ⟨by simp [render], kind.opener ++ ([' '] ++ payload ++ [' ']), rfl, ?_⟩
  have hinside : Unmarked [kind.closer] payload (' ' :: kind.closer) := by
    apply unmarked_of_junction
    · simp
    · exact (unmarked_singleton_nil_iff kind.closer_ne_nil).mpr hpayload
    · intro c _
      exact TagKind.markerAt?_closer_space
  rw [unmarked_append, unmarked_append, unmarked_append]
  refine ⟨?_, ⟨TagKind.unmarked_space, hinside⟩, TagKind.unmarked_space⟩
  simpa using TagKind.unmarked_opener_space

theorem unmarked_openers_iff_getLast? (htext : ∀ opener ∈ TagKind.openers, ¬ opener <:+: text)
    (hrest : kind.opener <+: rest) :
    Unmarked TagKind.openers text rest ↔ text.getLast? ≠ some '{' := by
  obtain ⟨mark, hmark⟩ := kind.exists_opener_eq
  obtain ⟨behind, rfl⟩ := hrest
  constructor
  · intro h hlast
    obtain ⟨init, rfl⟩ := List.getLast?_eq_some_iff.mp hlast
    have hbrace := (unmarked_append.mp h).2.1
    rw [TagKind.markerAt?_openers_eq_none_iff, hmark] at hbrace
    exact hbrace .var (by simp [TagKind.opener])
  · intro hlast
    apply unmarked_of_junction
    · intro marker
      exact TagKind.length_le_of_mem_openers
    · exact TagKind.unmarked_openers_nil_iff.mpr (TagKind.forall_mem_openers.mp htext)
    · intro c hc
      have hother : c ≠ '{' := by
        rintro rfl
        exact hlast hc
      rw [TagKind.markerAt?_openers_eq_none_iff]
      intro other hbegins
      obtain ⟨d, hd⟩ := other.exists_opener_eq
      rw [hd, List.cons_prefix_cons] at hbegins
      exact hother hbegins.1.symm

/-! ## From tokens to chunks -/

theorem trim_standard_spaced (hpayload : Trimmed ' ' payload) :
    trim .standard ' ' ([' '] ++ payload ++ [' ']) = payload :=
  trim_standard_replicate 1 1 hpayload

theorem Token.item_render (htoken : token.IsClean) (offset : Nat) :
    Chunk.item {} ⟨token.chunkKind, offset, token.render⟩ = .ok token := by
  cases token with
  | text value => rfl
  | tag kind payload => rw [chunkKind, render, Chunk.item_delimited, trim_standard_spaced htoken.1]

theorem Token.leads_render {tokens : List Token} (h : WellFormed (token :: tokens)) :
    token.chunkKind.Leads token.render (rebuild tokens) := by
  obtain ⟨htoken, hnext, -⟩ := wellFormed_cons.mp h
  cases token with
  | tag kind payload => exact .tag (isTag_render htoken.2)
  | text value =>
      obtain ⟨hne, htext⟩ := htoken
      cases tokens with
      | nil =>
          refine .text hne ?_ (.inl rfl)
          exact TagKind.unmarked_openers_nil_iff.mpr (TagKind.forall_mem_openers.mp htext)
      | cons next tokens =>
          cases next with
          | text other => exact (hnext _ rfl).elim
          | tag kind payload =>
              have hopener : kind.opener <+: rebuild (.tag kind payload :: tokens) := by
                simp [render]
              exact .text hne ((unmarked_openers_iff_getLast? htext hopener).mpr (hnext _ rfl))
                (.inr ⟨kind, hopener⟩)

theorem mapM_item_rebuild {tokens : List Token} (h : WellFormed tokens) (offset : Nat) :
    (chunksFrom offset (rebuild tokens)).mapM (Chunk.item {}) = .ok tokens := by
  induction tokens generalizing offset with
  | nil => simp [pure, Except.pure]
  | cons token tokens ih =>
      obtain ⟨htoken, -, htokens⟩ := wellFormed_cons.mp h
      rw [rebuild_cons, chunksFrom_of_leads (Token.leads_render h), mapM_eq_ok_iff_forall₂]
      refine .cons (token.item_render htoken offset) ?_
      exact mapM_eq_ok_iff_forall₂.mp (ih htokens _)

theorem tokenize_eq_mapM (source : Text) :
    tokenize source = (chunks source).mapM (Chunk.item {}) :=
  Lexer.tokenize_eq_mapM { source }

theorem tokenize_rebuild {tokens : List Token} (h : WellFormed tokens) :
    tokenize (rebuild tokens) = .ok tokens := by
  rw [tokenize_eq_mapM, chunks_eq_chunksFrom]
  exact mapM_item_rebuild h 0

end

section

variable {kind : ChunkKind} {part rest : Text} {offset : Nat} {token : Token}

theorem Token.isClean_of_item (hleads : kind.Leads part rest)
    (hitem : Chunk.item {} ⟨kind, offset, part⟩ = .ok token) :
    token.IsClean ∧ token.chunkKind = kind := by
  cases hleads.form with
  | text hne hpart =>
      cases hitem
      exact ⟨⟨hne, TagKind.forall_mem_openers.mpr hpart⟩, rfl⟩
  | @delimited kind inner hinner =>
      rw [Chunk.item_delimited] at hitem
      cases hitem
      exact ⟨⟨trimmed_trim_standard ' ' inner, not_infix_trim .standard hinner⟩, rfl⟩
  | overlapped hkind =>
      rw [Chunk.item_malformed (TagKind.opener_prefix_overlapped hkind) (by simp)] at hitem
      cases hitem
  | unterminated => cases hitem

theorem Token.mayPrecede_of_item {next : Token} {nextKind : ChunkKind} {nextPart : Text}
    {nextOffset : Nat} (hleads : kind.Leads part (nextPart ++ rest))
    (hnextLeads : nextKind.Leads nextPart rest)
    (hitem : Chunk.item {} ⟨kind, offset, part⟩ = .ok token)
    (hnext : Chunk.item {} ⟨nextKind, nextOffset, nextPart⟩ = .ok next) :
    token.MayPrecede next := by
  obtain ⟨hclean, hkind⟩ := isClean_of_item hleads hitem
  obtain ⟨-, hnextKind⟩ := isClean_of_item hnextLeads hnext
  cases token with
  | tag => trivial
  | text value =>
      subst hkind
      obtain rfl : part = value := by simpa [chunkKind] using hitem
      cases hleads with
      | text hne hpart hrest =>
          rcases hrest with hnil | ⟨opening, hopener⟩
          · exact absurd (List.append_eq_nil_iff.mp hnil).1 hnextLeads.ne_nil
          · rcases hnextLeads.opener_prefix hopener with rfl | rfl
            · cases next with
              | text other => cases hnextKind
              | tag kind payload => exact (unmarked_openers_iff_getLast? hclean.2 hopener).mp hpart
            · cases hnext

theorem wellFormed_of_isScan {found : List Chunk} {tokens : List Token}
    (hscan : IsScan offset found) (hitems : found.mapM (Chunk.item {}) = .ok tokens) :
    WellFormed tokens := by
  rw [mapM_eq_ok_iff_forall₂] at hitems
  induction hitems generalizing offset with
  | nil => exact ⟨by simp, by simp⟩
  | @cons chunk token found tokens hitem hitems ih =>
      obtain ⟨-, hleads, hrest⟩ := isScan_cons.mp hscan
      obtain ⟨hclean, -⟩ := Token.isClean_of_item hleads hitem
      refine wellFormed_cons.mpr ⟨hclean, ?_, ih hrest⟩
      intro next hnext
      cases hitems with
      | nil => cases hnext
      | cons hnextItem _ =>
          cases hnext
          obtain ⟨-, hnextLeads, -⟩ := isScan_cons.mp hrest
          exact Token.mayPrecede_of_item hleads hnextLeads hitem hnextItem

theorem wellFormed_of_tokenize {source : Text} {tokens : List Token}
    (h : tokenize source = .ok tokens) : WellFormed tokens := by
  rw [tokenize_eq_mapM] at h
  exact wellFormed_of_isScan (isScan_chunks source) h

end

/--
Strict lexing makes the well formed lists of tokens and no others, and each of
them comes back from its rendering, whatever text it was made from.
-/
theorem tokenize_image_and_round_trip (tokens : List Token) :
    ((∃ source, tokenize source = .ok tokens) ↔ WellFormed tokens) ∧
      (WellFormed tokens → tokenize (rebuild tokens) = .ok tokens) ∧
      ∀ source, tokenize source = .ok tokens → tokenize (rebuild tokens) = .ok tokens := by
  refine ⟨⟨?_, ?_⟩, tokenize_rebuild, ?_⟩
  · rintro ⟨source, hsource⟩
    exact wellFormed_of_tokenize hsource
  · intro h
    exact ⟨rebuild tokens, tokenize_rebuild h⟩
  · intro source hsource
    exact tokenize_rebuild (wellFormed_of_tokenize hsource)

theorem tokenize_round_trip_of_delimiters :
    let source : Text := ['}', '{', '%', ' ', '}', ' ', '{', '{', '%', '%', '}', '{']
    let tokens : List Token := [.text ['}'], .tag .block ['}', ' ', '{', '{', '%'], .text ['{']]
    WellFormed tokens ∧ tokenize source = .ok tokens ∧ rebuild tokens ≠ source ∧
      tokenize (rebuild tokens) = .ok tokens ∧
      ¬ ∃ source, tokenize source = .ok [.text ['{'], .tag .var []] := by
  intro source tokens
  have hsource : tokenize source = .ok tokens := by decide +kernel
  obtain ⟨himage, -, hround⟩ := tokenize_image_and_round_trip tokens
  refine ⟨himage.mp ⟨source, hsource⟩, hsource, by decide, hround source hsource, ?_⟩
  rw [(tokenize_image_and_round_trip _).1]
  decide

end TemplateLexer
