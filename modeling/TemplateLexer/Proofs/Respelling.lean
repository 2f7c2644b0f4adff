import TemplateLexer.Proofs.ChunkForm

/-!
# Texts respelled

The lexer looks at braces, percent signs, number signs and spaces only.  A map
that leaves these characters alone, and turns no other character into one of
them, may therefore be applied to a text before lexing it or to the values of
its tokens afterwards.  It may change how many bytes a character takes, so the
offset of an error is counted anew in the respelled text.
-/

namespace TemplateLexer

open Text

def markup : List Char := ['{', '}', '%', '#', ' ']

/-- A map of characters that leaves markup alone and makes none of other characters. -/
structure KeepsMarkup (f : Char → Char) : Prop where
  fixes : ∀ c ∈ markup, f c = c
  avoids : ∀ c, c ∉ markup → f c ∉ markup

def Token.map (f : Char → Char) : Token → Token
  | .text value => .text (value.map f)
  | .tag kind value => .tag kind (value.map f)

@[simp] theorem Token.kind_map (f : Char → Char) (token : Token) :
    (token.map f).kind = token.kind := by
  cases token <;> rfl

@[simp] theorem Token.value_map (f : Char → Char) (token : Token) :
    (token.map f).value = token.value.map f := by
  cases token <;> rfl

theorem TagKind.mem_markup_of_mem_opener (kind : TagKind) : ∀ c ∈ kind.opener, c ∈ markup := by
  cases kind <;> simp [opener, markup]

theorem TagKind.mem_markup_of_mem_closer (kind : TagKind) : ∀ c ∈ kind.closer, c ∈ markup := by
  cases kind <;> simp [closer, markup]

theorem mem_markup_of_mem_openers : ∀ marker ∈ TagKind.openers, ∀ c ∈ marker, c ∈ markup := by
  intro marker hmem
  obtain ⟨kind, -, rfl⟩ := List.mem_map.mp hmem
  exact kind.mem_markup_of_mem_opener

namespace KeepsMarkup

variable {f : Char → Char} {c d : Char} {marker text before after part rest : Text}
  {markers : List Text} {kind : TagKind}

theorem eq_iff (hf : KeepsMarkup f) (hd : d ∈ markup) : f c = d ↔ c = d := by
  constructor
  · intro h
    by_cases hc : c ∈ markup
    · rw [← h, hf.fixes c hc]
    · rw [← h] at hd
      exact absurd hd (hf.avoids c hc)
  · rintro rfl
    exact hf.fixes c hd

theorem map_eq_self (hf : KeepsMarkup f) (hmarker : ∀ c ∈ marker, c ∈ markup) :
    marker.map f = marker := by
  rw [List.map_congr_left fun c hc => hf.fixes c (hmarker c hc), List.map_id']

theorem prefix_map_iff (hf : KeepsMarkup f) (hmarker : ∀ c ∈ marker, c ∈ markup) :
    marker <+: text.map f ↔ marker <+: text := by
  induction marker generalizing text with
  | nil => simp
  | cons m marker ih =>
      obtain ⟨hm, hmarker⟩ := List.forall_mem_cons.mp hmarker
      cases text with
      | nil => simp
      | cons c text =>
          rw [List.map_cons, List.cons_prefix_cons, List.cons_prefix_cons, ih hmarker,
            eq_comm, hf.eq_iff hm, eq_comm]

theorem unmarked_map (hf : KeepsMarkup f) (hmarkers : ∀ marker ∈ markers, ∀ c ∈ marker, c ∈ markup)
    (h : Unmarked markers before after) : Unmarked markers (before.map f) (after.map f) := by
  induction before with
  | nil => exact unmarked_nil
  | cons c before ih =>
      obtain ⟨hhead, htail⟩ := h
      refine ⟨?_, ih htail⟩
      rw [markerAt?_eq_none_iff] at hhead ⊢
      intro marker hmem hne hbegins
      rw [← List.map_append, ← List.map_cons, hf.prefix_map_iff (hmarkers marker hmem)] at hbegins
      exact hhead marker hmem hne hbegins

theorem unmarked_closer_map (hf : KeepsMarkup f) (h : Unmarked [kind.closer] before after) :
    Unmarked [kind.closer] (before.map f) (after.map f) := by
  apply hf.unmarked_map _ h
  intro marker hmem
  rw [List.mem_singleton.mp hmem]
  exact kind.mem_markup_of_mem_closer

theorem isTag_map (hf : KeepsMarkup f) (h : kind.IsTag text) : kind.IsTag (text.map f) := by
  obtain ⟨hopener, body, rfl, hbody⟩ := h
  have hcloser := hf.map_eq_self kind.mem_markup_of_mem_closer
  refine ⟨(hf.prefix_map_iff kind.mem_markup_of_mem_opener).mpr hopener, body.map f, ?_, ?_⟩
  · rw [List.map_append, hcloser]
  · have hmapped := hf.unmarked_closer_map hbody
    rwa [hcloser] at hmapped

theorem leads_map (hf : KeepsMarkup f) {kind : ChunkKind} (h : kind.Leads part rest) :
    kind.Leads (part.map f) (rest.map f) := by
  cases h with
  | text hne hpart hrest =>
      refine .text (by simpa using hne) (hf.unmarked_map mem_markup_of_mem_openers hpart) ?_
      refine hrest.imp (fun hnil => by rw [hnil, List.map_nil]) ?_
      rintro ⟨opening, hopening⟩
      exact ⟨opening, (hf.prefix_map_iff opening.mem_markup_of_mem_opener).mpr hopening⟩
  | tag htag => exact .tag (hf.isTag_map htag)
  | @unterminated kind _ hopener hpart =>
      exact .unterminated ((hf.prefix_map_iff kind.mem_markup_of_mem_opener).mpr hopener)
        (hf.unmarked_closer_map hpart)

end KeepsMarkup

/-- The chunks with the map applied to their texts, each starting where the one before it ends. -/
def respell (f : Char → Char) : Nat → List Chunk → List Chunk
  | _, [] => []
  | offset, chunk :: chunks =>
      ⟨chunk.kind, offset, chunk.text.map f⟩ ::
        respell f (offset + byteLength (chunk.text.map f)) chunks

section

variable {f : Char → Char} {options : Options} {offset count : Nat} {chunk : Chunk}
  {found front back : List Chunk} {tokens : List Token}

@[simp] theorem concat_respell (f : Char → Char) (offset : Nat) (found : List Chunk) :
    concat (respell f offset found) = (concat found).map f := by
  induction found generalizing offset with
  | nil => rfl
  | cons chunk found ih => simp [respell, ih]

theorem respell_append (f : Char → Char) (offset : Nat) (front back : List Chunk) :
    respell f offset (front ++ back) =
      respell f offset front ++
        respell f (offset + byteLength ((concat front).map f)) back := by
  induction front generalizing offset with
  | nil => rfl
  | cons chunk front ih => simp [respell, ih, Nat.add_assoc]

theorem IsScan.respell (hf : KeepsMarkup f) (h : IsScan offset found) :
    IsScan count (respell f count found) := by
  induction found generalizing offset count with
  | nil => exact isScan_nil
  | cons chunk found ih =>
      obtain ⟨-, hleads, hscan⟩ := isScan_cons.mp h
      rw [TemplateLexer.respell, isScan_cons]
      refine ⟨rfl, ?_, ih hscan⟩
      rw [concat_respell]
      exact hf.leads_map hleads

theorem chunks_map (hf : KeepsMarkup f) (source : Text) :
    chunks (source.map f) = respell f 0 (chunks source) := by
  refine chunksFrom_eq_iff.mpr ⟨(isScan_chunks source).respell hf, ?_⟩
  rw [concat_respell, concat_chunks]

def respellItem (f : Char → Char) (offset : Nat) : Except LexError Token → Except LexError Token
  | .ok token => .ok (token.map f)
  | .error error => .error ⟨error.kind, offset⟩

theorem Chunk.item_respell (hf : KeepsMarkup f) (hform : chunk.kind.Form chunk.text)
    (options : Options) (offset : Nat) :
    Chunk.item options ⟨chunk.kind, offset, chunk.text.map f⟩ =
      respellItem f offset (chunk.item options) := by
  cases hform using Chunk.form_cases with
  | text hne hpart => rfl
  | @delimited kind _ inner hinner =>
      have hspace : ∀ c, f c = ' ' ↔ c = ' ' := fun c => hf.eq_iff (by decide)
      simp only [List.map_append, hf.map_eq_self kind.mem_markup_of_mem_opener,
        hf.map_eq_self kind.mem_markup_of_mem_closer, item_delimited, trim_map hspace]
      rfl
  | @overlapped kind _ hkind =>
      -- A malformed tag is all markup, so the chunk that its error shows stays as it is.
      have hmarkup : ∀ c ∈ '{' :: kind.closer, c ∈ markup :=
        List.forall_mem_cons.mpr ⟨by decide, kind.mem_markup_of_mem_closer⟩
      have hopener := TagKind.opener_prefix_overlapped hkind
      simp only [hf.map_eq_self hmarkup, item_malformed hopener (by simp)]
      cases options.recovery
      · rfl
      · rfl
      · simp [Recovery.ofMalformed, respellItem, Token.map, hf.map_eq_self hmarkup]
  | @unterminated kind _ part hopener hpart =>
      simp only [item_unterminated]
      cases options.recovery <;> rfl

theorem offset_of_item_eq_error {error : LexError} (h : chunk.item options = .error error) :
    error.offset = chunk.start := by
  obtain ⟨kind, start, text⟩ := chunk
  cases kind with
  | text => cases h
  | tag kind =>
      rw [Chunk.item_tag] at h
      cases htoken : Token.ofText? options.trim text with
      | some token => simp [htoken] at h
      | none =>
          simp only [htoken] at h
          cases hrecovery : options.recovery <;> rw [hrecovery] at h <;> cases h
          rfl
  | unterminated kind =>
      rw [Chunk.item_unterminated] at h
      cases hrecovery : options.recovery <;> rw [hrecovery] at h <;> cases h
      rfl

theorem mapM_item_respell (hf : KeepsMarkup f) (hform : ∀ chunk ∈ found, chunk.kind.Form chunk.text)
    (h : found.mapM (Chunk.item options) = .ok tokens) (offset : Nat) :
    (respell f offset found).mapM (Chunk.item options) = .ok (tokens.map (Token.map f)) := by
  rw [mapM_eq_ok_iff_forall₂] at h ⊢
  induction h generalizing offset with
  | nil => exact .nil
  | cons hitem _ ih =>
      obtain ⟨hchunk, hfound⟩ := List.forall_mem_cons.mp hform
      refine .cons ?_ (ih hfound _)
      rw [Chunk.item_respell hf hchunk, hitem]
      rfl

end

/--
Lexing a respelled text gives the respelled tokens, or the same error at the
offset that its tag has in the respelled text.
-/
theorem tokenize_map {f : Char → Char} (hf : KeepsMarkup f) (source : Text) (options : Options) :
    (∀ tokens, Lexer.tokenize ⟨source, options⟩ = .ok tokens →
      Lexer.tokenize ⟨source.map f, options⟩ = .ok (tokens.map (Token.map f))) ∧
      ∀ error, Lexer.tokenize ⟨source, options⟩ = .error error →
        ∃ before after, source.splitAt? error.offset = some (before, after) ∧
          Lexer.tokenize ⟨source.map f, options⟩ =
            .error ⟨error.kind, byteLength (before.map f)⟩ := by
  have hform : ∀ chunk ∈ chunks source, chunk.kind.Form chunk.text := fun chunk => form_of_mem
  simp only [Lexer.tokenize_eq_mapM, chunks_map hf]
  constructor
  · intro tokens h
    exact mapM_item_respell hf hform h 0
  · intro error h
    obtain ⟨front, chunk, back, tokens, hsplit, hfront, hitem⟩ := mapM_eq_error_iff.mp h
    have hsource : source = concat front ++ (chunk.text ++ concat back) := by
      rw [← concat_cons, ← concat_append, ← hsplit, concat_chunks]
    have hoffset : error.offset = byteLength (concat front) := by
      rw [offset_of_item_eq_error hitem, start_eq_of_chunks_eq hsplit]
    refine ⟨concat front, chunk.text ++ concat back, ?_, ?_⟩
    · rw [hsource, hoffset, splitAt?_append]
    · rw [hsplit] at hform ⊢
      have hrespelled := mapM_item_respell hf
        (fun chunk hmem => hform chunk (List.mem_append_left _ hmem)) hfront 0
      rw [respell_append, Nat.zero_add, mapM_append_of_ok hrespelled, respell, List.mapM_cons,
        Chunk.item_respell hf (hform chunk (by simp)), hitem]
      rfl

def widen (c : Char) : Char :=
  if c ∈ markup then c else 'é'

theorem keepsMarkup_widen : KeepsMarkup widen where
  fixes c hc := if_pos hc
  avoids c hc := by
    rw [widen, if_neg hc]
    decide

theorem tokenize_map_widen :
    let tag : Text := ['→', '{', '{', ' ', 'x', 'y', ' ', '}', '}']
    let broken : Text := ['a', 'b', '{', '#', '}', 'c']
    KeepsMarkup widen ∧
      Lexer.tokenize ⟨tag.map widen, {}⟩ = .ok [.text ['é'], .tag .var ['é', 'é']] ∧
      Lexer.tokenize ⟨broken.map widen, {}⟩ = .error (.malformed ['{', '#', '}'] 4) := by
  intro tag broken
  have htag : Lexer.tokenize ⟨tag, {}⟩ = .ok [.text ['→'], .tag .var ['x', 'y']] := by
    decide +kernel
  have hbroken : Lexer.tokenize ⟨broken, {}⟩ = .error (.malformed ['{', '#', '}'] 2) := by
    decide +kernel
  have hfront : broken.splitAt? 2 = some (['a', 'b'], ['{', '#', '}', 'c']) := by
    decide +kernel
  refine ⟨keepsMarkup_widen, (tokenize_map keepsMarkup_widen tag {}).1 _ htag, ?_⟩
  obtain ⟨before, after, hcut, hrespelled⟩ :=
    (tokenize_map keepsMarkup_widen broken {}).2 _ hbroken
  cases hfront.symm.trans hcut
  exact hrespelled

end TemplateLexer
