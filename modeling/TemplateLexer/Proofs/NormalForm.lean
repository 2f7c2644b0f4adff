import TemplateLexer.Proofs.Recovery
import TemplateLexer.Proofs.RoundTrip

/-!
# Rebuilt texts

Rebuilding the tokens of a lossless lexing gives every tag one space on each
side of its payload and leaves all else as it was, broken tags included.  No
marker comes, goes or moves to another chunk on the way: each chunk of the
rebuilt text is of the same kind as the one it comes from and makes the same
token.  So a text that was rebuilt once does not change any more, and strict
lexing finds the same fault in it as in the text that it comes from.
-/

namespace TemplateLexer

open Text

def faultOf? {α : Type} : Except LexError α → Option LexErrorKind
  | .ok _ => none
  | .error error => some error.kind

/-- What strict lexing finds wrong with the tag that a token was recovered from. -/
def Token.fault? (token : Token) : Option LexErrorKind :=
  token.recovered?.map fun kind => kind.refusal token.value

section

variable {α β : Type} {f : α → Except LexError β} {result : Except LexError α}
  {fault : LexErrorKind}

theorem faultOf?_eq_none_iff : faultOf? result = none ↔ ∃ value, result = .ok value := by
  cases result <;> simp [faultOf?]

theorem faultOf?_eq_some_iff :
    faultOf? result = some fault ↔ ∃ offset, result = .error ⟨fault, offset⟩ := by
  cases result with
  | ok value => simp [faultOf?]
  | error error =>
      obtain ⟨kind, offset⟩ := error
      simp [faultOf?]

theorem faultOf?_mapM (items : List α) :
    faultOf? (items.mapM f) = items.findSome? fun item => faultOf? (f item) := by
  induction items with
  | nil => rfl
  | cons item items ih =>
      rw [List.mapM_cons, List.findSome?_cons, ← ih]
      cases f item with
      | error error => rfl
      | ok value => cases items.mapM f <;> rfl

end

section

variable {mode : TrimMode} {kind : TagKind} {chunk : Chunk}

theorem Chunk.value_of_recovered? (h : (chunk.token mode).recovered? = some kind) :
    (chunk.token mode).value = chunk.text := by
  cases htoken : chunk.token mode with
  | text value => exact (text_of_token htoken).symm
  | tag kind payload =>
      rw [htoken] at h
      cases h

theorem Chunk.recovered?_token (hform : chunk.kind.Form chunk.text) (mode : TrimMode) :
    (chunk.token mode).recovered? = (chunk.token .standard).recovered? := by
  cases hform using Chunk.form_cases with
  | text hne hpart => rfl
  | delimited hinner =>
      rw [token_delimited, token_delimited]
      rfl
  | overlapped hkind => rw [token_overlapped hkind, token_overlapped hkind]
  | unterminated hopener hpart => rfl

theorem Chunk.faultOf?_item (hform : chunk.kind.Form chunk.text) (mode : TrimMode) :
    faultOf? (chunk.item ⟨.strict, mode⟩) = (chunk.token .standard).fault? := by
  rw [item_strict hform, Token.fault?, recovered?_token hform]
  cases hrecovered : (chunk.token .standard).recovered? with
  | none => rfl
  | some kind =>
      rw [Option.map_some, value_of_recovered? hrecovered]
      rfl

theorem Lexer.faultOf?_tokenize (source : Text) (mode : TrimMode) :
    faultOf? (Lexer.tokenize ⟨source, ⟨.strict, mode⟩⟩) =
      ((chunks source).map (Chunk.token .standard)).findSome? Token.fault? := by
  have hfaults : (chunks source).map (fun chunk => faultOf? (chunk.item ⟨.strict, mode⟩)) =
      (chunks source).map (fun chunk => (chunk.token .standard).fault?) := by
    apply List.map_congr_left
    intro chunk hmem
    exact Chunk.faultOf?_item (form_of_mem hmem) mode
  have hfirst := congrArg (List.findSome? id) hfaults
  rw [List.findSome?_map, List.findSome?_map] at hfirst
  rw [tokenize_eq_mapM, faultOf?_mapM, List.findSome?_map]
  exact hfirst

end

section

variable {opening : TagKind} {rest again : Text} {offset : Nat} {chunk : Chunk}
  {found : List Chunk}

def Chunk.outline (chunk : Chunk) : ChunkKind × Token :=
  (chunk.kind, chunk.token .standard)

theorem Chunk.token_render (hform : chunk.kind.Form chunk.text) (offset : Nat) :
    Chunk.token .standard ⟨chunk.kind, offset, (chunk.token .standard).render⟩ =
      chunk.token .standard := by
  cases hform using Chunk.form_cases with
  | text hne hpart => rfl
  | @delimited kind _ inner hinner =>
      have htrim := trim_standard_spaced (trimmed_trim_standard ' ' inner)
      simp only [token_delimited, Token.render, htrim]
  | overlapped hkind => simp only [token_overlapped hkind, Token.render]
  | unterminated hopener hpart => rfl

theorem Chunk.opener_prefix_render (hform : chunk.kind.Form chunk.text)
    (hopening : chunk.kind.tagKind? = some opening) :
    opening.opener <+: (chunk.token .standard).render := by
  cases hform using Chunk.form_cases with
  | text hne hpart => cases hopening
  | delimited hinner =>
      cases hopening
      rw [token_delimited, Token.render, List.append_assoc]
      exact List.prefix_append _ _
  | overlapped hkind =>
      cases hopening
      rw [token_overlapped hkind]
      exact TagKind.opener_prefix_overlapped hkind
  | unterminated hopener hpart =>
      cases hopening
      exact hopener

theorem Chunk.leads_render (hleads : chunk.kind.Leads chunk.text rest)
    (hnil : rest = [] → again = [])
    (hopener : ∀ opening : TagKind, opening.opener <+: rest → opening.opener <+: again) :
    chunk.kind.Leads (chunk.token .standard).render again := by
  have hform := hleads.form
  obtain ⟨kind, start, text⟩ := chunk
  change kind.Leads text rest at hleads
  change kind.Form text at hform
  cases hleads with
  | text hne hunmarked hrest =>
      cases hform with
      | text _ hpart =>
          rcases hrest with rfl | ⟨opening, hopening⟩
          · rw [hnil rfl]
            exact .text hne hunmarked (.inl rfl)
          · have hclear : ∀ opener ∈ TagKind.openers, ¬ opener <:+: text :=
              TagKind.forall_mem_openers.mpr hpart
            have hagain := hopener opening hopening
            have hlast := (unmarked_openers_iff_getLast? hclear hopening).mp hunmarked
            exact .text hne ((unmarked_openers_iff_getLast? hclear hagain).mpr hlast)
              (.inr ⟨opening, hagain⟩)
  | tag htag =>
      cases hform with
      | delimited hinner =>
          rw [token_delimited]
          exact .tag (Token.isTag_render (not_infix_trim .standard hinner))
      | overlapped hkind =>
          rw [token_overlapped hkind]
          exact .tag htag
  | unterminated hopening hunmarked =>
      rw [hnil rfl]
      exact .unterminated hopening hunmarked

theorem IsScan.rebuild_eq_nil (h : IsScan offset found) (hnil : concat found = []) :
    rebuild (found.map (Chunk.token .standard)) = [] := by
  cases found with
  | nil => rfl
  | cons chunk found =>
      obtain ⟨-, hleads, -⟩ := isScan_cons.mp h
      exact absurd (List.append_eq_nil_iff.mp hnil).1 hleads.ne_nil

theorem IsScan.opener_prefix_rebuild (h : IsScan offset found)
    (hopening : opening.opener <+: concat found) :
    opening.opener <+: rebuild (found.map (Chunk.token .standard)) := by
  cases found with
  | nil => exact absurd rfl (hopening.ne_nil opening.opener_ne_nil)
  | cons chunk found =>
      obtain ⟨-, hleads, -⟩ := isScan_cons.mp h
      have hkind := hleads.tagKind?_eq hopening
      exact (Chunk.opener_prefix_render hleads.form hkind).trans (List.prefix_append _ _)

theorem IsScan.map_outline_rebuild (h : IsScan offset found) (count : Nat) :
    (chunksFrom count (rebuild (found.map (Chunk.token .standard)))).map Chunk.outline =
      found.map Chunk.outline := by
  induction found generalizing offset count with
  | nil => simp
  | cons chunk found ih =>
      obtain ⟨-, hleads, hscan⟩ := isScan_cons.mp h
      have hagain : chunk.kind.Leads (chunk.token .standard).render
          (rebuild (found.map (Chunk.token .standard))) :=
        Chunk.leads_render hleads hscan.rebuild_eq_nil fun _ => hscan.opener_prefix_rebuild
      have houtline : Chunk.outline ⟨chunk.kind, count, (chunk.token .standard).render⟩ =
          chunk.outline := by
        rw [Chunk.outline, Chunk.token_render hleads.form, Chunk.outline]
      rw [List.map_cons, rebuild_cons, chunksFrom_of_leads hagain, List.map_cons, List.map_cons,
        ih hscan, houtline]

end

/--
A text rebuilt from its tokens is lexed to these tokens again, so rebuilding it
once more gives nothing new.  It has chunks of the same kinds, and strict
lexing finds in it what it finds in the text itself: nothing, or the same fault.
-/
theorem rebuild_is_normal_form (source : Text) :
    ∃ tokens, Lexer.tokenize ⟨source, ⟨.lossless, .standard⟩⟩ = .ok tokens ∧
      Lexer.tokenize ⟨rebuild tokens, ⟨.lossless, .standard⟩⟩ = .ok tokens ∧
      (Lexer.tokenize ⟨rebuild tokens, ⟨.lossless, .standard⟩⟩).map rebuild =
        .ok (rebuild tokens) ∧
      (chunks (rebuild tokens)).map Chunk.kind = (chunks source).map Chunk.kind ∧
      ∀ mode,
        ((∃ found, Lexer.tokenize ⟨rebuild tokens, ⟨.strict, mode⟩⟩ = .ok found) ↔
          ∃ found, Lexer.tokenize ⟨source, ⟨.strict, mode⟩⟩ = .ok found) ∧
        ∀ fault,
          (∃ offset, Lexer.tokenize ⟨rebuild tokens, ⟨.strict, mode⟩⟩ = .error ⟨fault, offset⟩) ↔
            ∃ offset, Lexer.tokenize ⟨source, ⟨.strict, mode⟩⟩ = .error ⟨fault, offset⟩ := by
  let tokens := (chunks source).map (Chunk.token .standard)
  have houtlines : (chunks (rebuild tokens)).map Chunk.outline =
      (chunks source).map Chunk.outline :=
    (isScan_chunks source).map_outline_rebuild 0
  have hkinds := congrArg (List.map Prod.fst) houtlines
  have htokens := congrArg (List.map Prod.snd) houtlines
  rw [List.map_map, List.map_map] at hkinds htokens
  change (chunks (rebuild tokens)).map (Chunk.token .standard) = tokens at htokens
  have hagain : Lexer.tokenize ⟨rebuild tokens, ⟨.lossless, .standard⟩⟩ = .ok tokens := by
    rw [Lexer.tokenize_lossless, htokens]
  refine ⟨tokens, Lexer.tokenize_lossless source .standard, hagain, ?_, hkinds, ?_⟩
  · rw [hagain]
    rfl
  · intro mode
    have hfaults : faultOf? (Lexer.tokenize ⟨rebuild tokens, ⟨.strict, mode⟩⟩) =
        faultOf? (Lexer.tokenize ⟨source, ⟨.strict, mode⟩⟩) := by
      rw [Lexer.faultOf?_tokenize, Lexer.faultOf?_tokenize, htokens]
    constructor
    · rw [← faultOf?_eq_none_iff, hfaults, faultOf?_eq_none_iff]
    · intro fault
      rw [← faultOf?_eq_some_iff, hfaults, faultOf?_eq_some_iff]

example :
    let tokens : List Token := [.text ['}'], .text ['{', '%', '}'], .tag .var ['}'],
      .text ['{', '#', '}'], .text ['%', '}'], .text ['{', '#', 'b']]
    let source : Text := ['}', '{', '%', '}', '{', '{', '}', ' ', ' ', '}', '}', '{', '#', '}',
      '%', '}', '{', '#', 'b']
    Lexer.tokenize ⟨source, ⟨.lossless, .standard⟩⟩ = .ok tokens ∧
      rebuild tokens = ['}', '{', '%', '}', '{', '{', ' ', '}', ' ', '}', '}', '{', '#', '}',
        '%', '}', '{', '#', 'b'] := by
  decide +kernel

end TemplateLexer
