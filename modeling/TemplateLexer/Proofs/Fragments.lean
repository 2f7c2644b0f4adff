import TemplateLexer.Proofs.RoundTrip

/-!
# Templates made of fragments

A template is put together from literal texts and tags, the payload of a tag
having any number of spaces on either side.  Lexing gives the fragments back,
whatever the recovery, when no opener begins in literal text and no closer
comes too early in a tag.  Neighbouring texts come back as one, and text that
is empty does not come back.
-/

namespace TemplateLexer

open Text

inductive Fragment where
  | text (value : Text)
  | tag (kind : TagKind) (payload : Text) (before after : Nat)
  deriving DecidableEq, Repr

def Fragment.render : Fragment → Text
  | .text value => value
  | .tag kind payload before after =>
      kind.opener ++ (List.replicate before ' ' ++ payload ++ List.replicate after ' ') ++
        kind.closer

def template (fragments : List Fragment) : Text :=
  fragments.flatMap Fragment.render

/-- Tokens with literal text in front of them, which joins literal text that they begin with. -/
def consText (value : Text) : List Token → List Token
  | .text next :: tokens => .text (value ++ next) :: tokens
  | tokens => if value = [] then tokens else .text value :: tokens

def fragmentTokens : List Fragment → List Token
  | [] => []
  | .text value :: fragments => consText value (fragmentTokens fragments)
  | .tag kind payload _ _ :: fragments => .tag kind payload :: fragmentTokens fragments

/-- No fragment is mistaken for something else in the template, nor hides what is behind it. -/
structure Renderable (fragments : List Fragment) : Prop where
  text_unmarked : ∀ front value back, fragments = front ++ .text value :: back →
    ∀ kind : TagKind, ∀ offset, (template front).byteLength ≤ offset →
      offset < (template front).byteLength + value.byteLength →
        ¬ kind.opener.OccursAt (template fragments) offset
  payload_trimmed : ∀ kind payload before after,
    .tag kind payload before after ∈ fragments → Trimmed ' ' payload
  closer_last : ∀ kind payload before after, .tag kind payload before after ∈ fragments →
    ∀ offset, kind.closer.OccursAt (Fragment.tag kind payload before after).render offset →
      offset = (Fragment.tag kind payload before after).render.byteLength - 2

@[simp] theorem template_nil : template [] = [] := rfl

@[simp] theorem template_cons (fragment : Fragment) (fragments : List Fragment) :
    template (fragment :: fragments) = fragment.render ++ template fragments := rfl

@[simp] theorem consText_nil (tokens : List Token) : consText [] tokens = tokens := by
  cases tokens with
  | nil => rfl
  | cons token tokens => cases token <;> simp [consText]

theorem consText_tag {value : Text} (hne : value ≠ []) (kind : TagKind) (payload : Text)
    (tokens : List Token) :
    consText value (.tag kind payload :: tokens) =
      .text value :: .tag kind payload :: tokens := by
  simp [consText, hne]

def Fragment.Stands (fragment : Fragment) (rest : Text) : Prop :=
  match fragment with
  | .text value => Unmarked TagKind.openers value rest
  | .tag kind payload before after =>
      Trimmed ' ' payload ∧
        Unmarked [kind.closer]
          (kind.opener ++ (List.replicate before ' ' ++ payload ++ List.replicate after ' '))
          kind.closer

instance (fragment : Fragment) (rest : Text) : Decidable (fragment.Stands rest) :=
  match fragment with
  | .text _ => inferInstanceAs (Decidable (Unmarked _ _ _))
  | .tag _ _ _ _ => inferInstanceAs (Decidable (_ ∧ _))

section

variable {fragment : Fragment} {fragments : List Fragment} {kind : TagKind}
  {value payload body text rest : Text} {before after offset : Nat}

theorem unmarked_openers_iff_occursAt :
    Unmarked TagKind.openers value rest ↔
      ∀ kind : TagKind, ∀ offset < value.byteLength,
        ¬ kind.opener.OccursAt (value ++ rest) offset := by
  rw [unmarked_iff_occursAt, TagKind.forall_mem_openers]
  simp [TagKind.opener_ne_nil]

theorem unmarked_closer_iff_occursAt :
    Unmarked [kind.closer] body kind.closer ↔
      ∀ offset, kind.closer.OccursAt (body ++ kind.closer) offset →
        offset = (body ++ kind.closer).byteLength - 2 := by
  rw [unmarked_iff_occursAt, byteLength_append, TagKind.byteLength_closer, Nat.add_sub_cancel]
  constructor
  · intro h offset hoccurs
    have hlow : ¬ offset < body.byteLength := fun hlt =>
      h kind.closer (List.mem_singleton_self _) kind.closer_ne_nil offset hlt hoccurs
    have hhigh := hoccurs.add_byteLength_le kind.closer_ne_nil
    rw [byteLength_append, TagKind.byteLength_closer] at hhigh
    omega
  · intro h marker hmem _ offset hlt hoccurs
    obtain rfl := List.mem_singleton.mp hmem
    have := h offset hoccurs
    omega

theorem renderable_nil : Renderable [] where
  text_unmarked := by simp
  payload_trimmed := by simp
  closer_last := by simp

theorem Renderable.stands (h : Renderable (fragment :: fragments)) :
    fragment.Stands (template fragments) := by
  cases fragment with
  | text value =>
      apply unmarked_openers_iff_occursAt.mpr
      intro kind offset hoffset
      exact h.text_unmarked [] value fragments rfl kind offset (by simp) (by simpa using hoffset)
  | tag kind payload before after =>
      have hmem : Fragment.tag kind payload before after ∈
          .tag kind payload before after :: fragments := List.mem_cons_self
      refine ⟨h.payload_trimmed kind payload before after hmem, ?_⟩
      exact unmarked_closer_iff_occursAt.mpr (h.closer_last kind payload before after hmem)

theorem Renderable.tail (h : Renderable (fragment :: fragments)) : Renderable fragments where
  text_unmarked := by
    rintro front value back rfl kind offset hstart hstop hoccurs
    apply h.text_unmarked (fragment :: front) value back rfl kind
      (fragment.render.byteLength + offset)
    · simpa using hstart
    · simp only [template_cons, byteLength_append]
      omega
    · rw [template_cons, occursAt_append_add]
      exact hoccurs
  payload_trimmed kind payload before after hmem :=
    h.payload_trimmed kind payload before after (List.mem_cons_of_mem _ hmem)
  closer_last kind payload before after hmem :=
    h.closer_last kind payload before after (List.mem_cons_of_mem _ hmem)

theorem Renderable.cons (hstands : fragment.Stands (template fragments))
    (h : Renderable fragments) : Renderable (fragment :: fragments) where
  text_unmarked := by
    intro front value back hsplit kind offset hstart hstop hoccurs
    cases front with
    | nil =>
        obtain ⟨rfl, rfl⟩ := List.cons.inj hsplit
        refine unmarked_openers_iff_occursAt.mp hstands kind offset ?_ hoccurs
        simpa using hstop
    | cons first front =>
        obtain ⟨rfl, rfl⟩ := List.cons.inj hsplit
        simp only [template_cons, byteLength_append] at hstart hstop
        obtain ⟨position, rfl⟩ := Nat.exists_eq_add_of_le (Nat.le_of_add_right_le hstart)
        rw [template_cons, occursAt_append_add] at hoccurs
        exact h.text_unmarked front value back rfl kind position (by omega) (by omega) hoccurs
  payload_trimmed := by
    intro kind payload before after hmem
    rcases List.mem_cons.mp hmem with rfl | hrest
    · exact hstands.1
    · exact h.payload_trimmed kind payload before after hrest
  closer_last := by
    intro kind payload before after hmem
    rcases List.mem_cons.mp hmem with rfl | hrest
    · exact unmarked_closer_iff_occursAt.mp hstands.2
    · exact h.closer_last kind payload before after hrest

theorem renderable_cons :
    Renderable (fragment :: fragments) ↔
      fragment.Stands (template fragments) ∧ Renderable fragments := by
  constructor
  · intro h
    exact ⟨h.stands, h.tail⟩
  · rintro ⟨hstands, h⟩
    exact h.cons hstands

end

instance decidableRenderable : (fragments : List Fragment) → Decidable (Renderable fragments)
  | [] => .isTrue renderable_nil
  | _ :: fragments =>
      have := decidableRenderable fragments
      decidable_of_iff _ renderable_cons.symm

def Chunk.Makes (options : Options) (chunk : Chunk) (token : Token) : Prop :=
  token.chunkKind = chunk.kind ∧ chunk.item options = .ok token

section

variable {options : Options} {fragments : List Fragment} {tokens : List Token}
  {value rest : Text} {offset : Nat}

theorem forall₂_makes_consText (hvalue : Unmarked TagKind.openers value rest)
    (h : List.Forall₂ (Chunk.Makes options) (chunksFrom (offset + value.byteLength) rest) tokens) :
    List.Forall₂ (Chunk.Makes options) (chunksFrom offset (value ++ rest))
      (consText value tokens) := by
  by_cases hne : value = []
  · subst hne
    simpa using h
  by_cases hrest : rest = []
  · subst hrest
    rw [chunksFrom_nil] at h
    cases h
    rw [chunksFrom_of_leads (.text hne hvalue (.inl rfl)), chunksFrom_nil, consText, if_neg hne]
    · exact .cons ⟨rfl, rfl⟩ .nil
    · simp
  · obtain ⟨kind, part, rest, rfl, hleads⟩ := ChunkKind.exists_leads hrest
    rw [chunksFrom_of_leads hleads] at h
    cases h with
    | @cons _ token _ tokens hfirst hrest =>
        obtain ⟨hkind, hitem⟩ := hfirst
        have hlength : offset + (value ++ part).byteLength =
            offset + value.byteLength + part.byteLength := by
          rw [byteLength_append, Nat.add_assoc]
        cases token with
        | text next =>
            cases hkind
            obtain rfl : part = next := by simpa using hitem
            cases hleads with
            | text _ hpart hopener =>
                have hjoined : Unmarked TagKind.openers (value ++ part) rest :=
                  unmarked_append.mpr ⟨hvalue, hpart⟩
                rw [← List.append_assoc,
                  chunksFrom_of_leads (.text (by simp [hne]) hjoined hopener), hlength, consText]
                exact .cons ⟨rfl, rfl⟩ hrest
        | tag kind payload =>
            cases hkind
            have hopener : kind.opener <+: part ++ rest :=
              hleads.isTag.1.trans (List.prefix_append _ _)
            rw [chunksFrom_of_leads (.text hne hvalue (.inr ⟨kind, hopener⟩)),
              chunksFrom_of_leads hleads, consText_tag hne]
            exact .cons ⟨rfl, rfl⟩ (.cons ⟨rfl, hitem⟩ hrest)

theorem Fragment.item_render {kind : TagKind} {payload : Text} {before after : Nat}
    (hpayload : Trimmed ' ' payload) (recovery : Recovery) :
    Chunk.item ⟨recovery, .standard⟩
        ⟨.tag kind, offset, (Fragment.tag kind payload before after).render⟩ =
      .ok (.tag kind payload) := by
  rw [render, Chunk.item_delimited, trim_standard_replicate before after hpayload]

theorem forall₂_makes_template (h : Renderable fragments) (recovery : Recovery) (offset : Nat) :
    List.Forall₂ (Chunk.Makes ⟨recovery, .standard⟩) (chunksFrom offset (template fragments))
      (fragmentTokens fragments) := by
  induction fragments generalizing offset with
  | nil =>
      rw [template_nil, chunksFrom_nil, fragmentTokens]
      exact .nil
  | cons fragment fragments ih =>
      obtain ⟨hstands, hrest⟩ := renderable_cons.mp h
      rw [template_cons]
      cases fragment with
      | text value =>
          rw [fragmentTokens]
          exact forall₂_makes_consText hstands (ih hrest _)
      | tag kind payload before after =>
          obtain ⟨hpayload, hcloser⟩ := hstands
          have hopener : kind.opener <+: (Fragment.tag kind payload before after).render := by
            simp [Fragment.render, List.append_assoc]
          have htag : kind.IsTag (Fragment.tag kind payload before after).render :=
            ⟨hopener, _, rfl, hcloser⟩
          rw [chunksFrom_of_leads (.tag htag), fragmentTokens]
          exact .cons ⟨rfl, Fragment.item_render hpayload recovery⟩ (ih hrest _)

end

/--
A template is lexed to the fragments that it was made of, in order, with
neighbouring texts joined.  No recovery is needed, so all of them agree.
-/
theorem tokenize_template {fragments : List Fragment} (h : Renderable fragments)
    (recovery : Recovery) :
    Lexer.tokenize ⟨template fragments, ⟨recovery, .standard⟩⟩ =
      .ok (fragmentTokens fragments) := by
  rw [Lexer.tokenize_eq_mapM, mapM_eq_ok_iff_forall₂, chunks_eq_chunksFrom]
  exact (forall₂_makes_template h recovery 0).imp fun _ _ hmakes => hmakes.2

theorem tokenize_template_of_delimiters :
    let fragments : List Fragment := [.text ['a', '{'], .text [], .text ['é'],
      .tag .block ['%'] 0 0, .text [], .tag .var ['{', '%', ' ', '}'] 2 1, .text ['}']]
    Renderable fragments ∧
      template fragments = ['a', '{', 'é', '{', '%', '%', '%', '}',
        '{', '{', ' ', ' ', '{', '%', ' ', '}', ' ', '}', '}', '}'] ∧
      Lexer.tokenize ⟨template fragments, ⟨.legacy, .standard⟩⟩ =
        .ok [.text ['a', '{', 'é'], .tag .block ['%'], .tag .var ['{', '%', ' ', '}'],
          .text ['}']] := by
  intro fragments
  have h : Renderable fragments := by decide
  exact ⟨h, by decide, tokenize_template h .legacy⟩

end TemplateLexer
