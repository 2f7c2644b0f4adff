import Mathlib.Data.List.Chain
import TemplateLexer.Proofs.Chunk

/-!
# The chunks of a text as its only segmentation

`Segmentation` lists what is asked of the chunks ahead of a cursor, in terms of
offsets and bytes.  It leaves no choice: the chunks that the scanner yields
have all of these properties, and no other list of chunks has.  The link
between the two is `IsScan`, by which every chunk leads the text that it and
the chunks behind it make up.
-/

namespace TemplateLexer

open Text

def Chunk.stop (chunk : Chunk) : Nat :=
  chunk.start + chunk.text.byteLength

def concat (chunks : List Chunk) : Text :=
  chunks.flatMap Chunk.text

@[simp] theorem concat_nil : concat [] = [] := rfl

@[simp] theorem concat_cons (chunk : Chunk) (chunks : List Chunk) :
    concat (chunk :: chunks) = chunk.text ++ concat chunks := rfl

@[simp] theorem concat_append (front back : List Chunk) :
    concat (front ++ back) = concat front ++ concat back := by
  simp [concat]

def Contiguous : Nat → List Chunk → Prop
  | _, [] => True
  | offset, chunk :: chunks => chunk.start = offset ∧ Contiguous chunk.stop chunks

section

variable {offset : Nat} {chunk : Chunk} {chunks front back : List Chunk} {text : Text}

theorem Contiguous.start_eq (h : Contiguous offset (front ++ chunk :: back)) :
    chunk.start = offset + (concat front).byteLength := by
  induction front generalizing offset with
  | nil => simpa using h.1
  | cons first front ih =>
      obtain ⟨rfl, hrest⟩ := h
      rw [ih hrest, Chunk.stop, concat_cons, byteLength_append, Nat.add_assoc]

theorem Contiguous.occursAt_iff {marker : Text} {position : Nat}
    (h : Contiguous offset (front ++ chunk :: back)) :
    marker.OccursAt (concat (front ++ chunk :: back)) (chunk.start + position - offset) ↔
      marker.OccursAt (chunk.text ++ concat back) position := by
  have hposition : chunk.start + position - offset =
      (concat front).byteLength + position := by
    rw [h.start_eq]
    omega
  rw [hposition, concat_append, concat_cons, occursAt_append_add]

/--
The chunks stand behind each other from the offset on, and each leads the text
that begins with it.
-/
def IsScan (offset : Nat) (chunks : List Chunk) : Prop :=
  Contiguous offset chunks ∧
    ∀ front chunk back, chunks = front ++ chunk :: back →
      chunk.kind.Leads chunk.text (concat back)

@[simp] theorem isScan_nil : IsScan offset [] := by
  refine ⟨trivial, ?_⟩
  intro front chunk back h
  simp at h

theorem isScan_cons :
    IsScan offset (chunk :: chunks) ↔
      chunk.start = offset ∧ chunk.kind.Leads chunk.text (concat chunks) ∧
        IsScan chunk.stop chunks := by
  constructor
  · rintro ⟨⟨hstart, hcontiguous⟩, hleads⟩
    refine ⟨hstart, hleads [] chunk chunks rfl, hcontiguous, ?_⟩
    rintro front next back rfl
    exact hleads (chunk :: front) next back rfl
  · rintro ⟨hstart, hleads, hcontiguous, hrest⟩
    refine ⟨⟨hstart, hcontiguous⟩, ?_⟩
    intro front next back hsplit
    rcases List.cons_eq_append_iff.mp hsplit with ⟨rfl, hback⟩ | ⟨front, rfl, hfront⟩
    · obtain ⟨rfl, rfl⟩ := List.cons.inj hback
      exact hleads
    · exact hrest front next back hfront

theorem isScan_chunksFrom (offset : Nat) (text : Text) :
    IsScan offset (chunksFrom offset text) ∧ concat (chunksFrom offset text) = text := by
  induction hlength : text.length using Nat.strong_induction_on generalizing offset text with
  | _ length ih =>
      by_cases htext : text = []
      · subst htext
        simp
      · obtain ⟨kind, part, rest, rfl, hleads⟩ := ChunkKind.exists_leads htext
        have hpart := List.length_pos_iff.mpr hleads.ne_nil
        have hshorter : rest.length < length := by
          rw [← hlength, List.length_append]
          omega
        obtain ⟨hscan, hconcat⟩ := ih _ hshorter (offset + part.byteLength) rest rfl
        rw [chunksFrom_of_leads hleads, isScan_cons, concat_cons, hconcat]
        exact ⟨⟨rfl, hleads, hscan⟩, rfl⟩

theorem IsScan.chunksFrom_concat (h : IsScan offset chunks) :
    chunksFrom offset (concat chunks) = chunks := by
  induction chunks generalizing offset with
  | nil => simp
  | cons chunk chunks ih =>
      obtain ⟨rfl, hleads, hscan⟩ := isScan_cons.mp h
      rw [concat_cons, chunksFrom_of_leads hleads]
      exact congrArg _ (ih hscan)

theorem chunksFrom_eq_iff :
    chunksFrom offset text = chunks ↔ IsScan offset chunks ∧ concat chunks = text := by
  constructor
  · rintro rfl
    exact isScan_chunksFrom offset text
  · rintro ⟨hscan, rfl⟩
    exact hscan.chunksFrom_concat

end

theorem isScan_chunks (source : Text) : IsScan 0 (chunks source) :=
  (isScan_chunksFrom 0 source).1

theorem concat_chunks (source : Text) : concat (chunks source) = source :=
  (isScan_chunksFrom 0 source).2

theorem isScan_of_chunks_eq {source : Text} {found : List Chunk} (h : chunks source = found) :
    IsScan 0 found := by
  rw [← h]
  exact isScan_chunks source

theorem start_eq_of_chunks_eq {source : Text} {chunk : Chunk} {front back : List Chunk}
    (h : chunks source = front ++ chunk :: back) :
    chunk.start = (concat front).byteLength := by
  rw [(isScan_of_chunks_eq h).1.start_eq, Nat.zero_add]

/-! ## Segmentations -/

/-- What the chunks ahead of a cursor are, told without a scanner. -/
structure Segmentation (cursor : Cursor) (chunks : List Chunk) : Prop where
  covers : concat chunks = cursor.remaining
  contiguous : Contiguous cursor.pos chunks
  text_ne_nil : ∀ chunk ∈ chunks, chunk.text ≠ []
  texts_apart : chunks.IsChain fun first second =>
    ¬ (first.kind = .text ∧ second.kind = .text)
  text_unmarked : ∀ chunk ∈ chunks, chunk.kind = .text →
    ∀ kind : TagKind, ∀ offset, chunk.start ≤ offset → offset < chunk.stop →
      ¬ kind.opener.OccursAt cursor.remaining (offset - cursor.pos)
  tag_closed : ∀ chunk ∈ chunks, ∀ kind : TagKind, chunk.kind = .tag kind →
    kind.opener <+: chunk.text ∧
      IsLeast { offset | kind.closer.OccursAt chunk.text offset } (chunk.text.byteLength - 2)
  unterminated_last : ∀ front chunk back, chunks = front ++ chunk :: back →
    ∀ kind : TagKind, chunk.kind = .unterminated kind →
      kind.opener <+: chunk.text ∧ (∀ offset, ¬ kind.closer.OccursAt chunk.text offset) ∧
        back = []

theorem TagKind.isTag_iff_isLeast {kind : TagKind} {text : Text} :
    kind.IsTag text ↔
      kind.opener <+: text ∧
        IsLeast { offset | kind.closer.OccursAt text offset } (text.byteLength - 2) := by
  rw [IsTag, isLeast_occursAt_iff kind.closer_ne_nil]
  refine and_congr_right fun _ => ?_
  constructor
  · rintro ⟨body, rfl, hbody⟩
    refine ⟨body, [], by simp, ?_, by simpa using hbody⟩
    rw [byteLength_append, byteLength_closer, Nat.add_sub_cancel]
  · rintro ⟨body, rest, rfl, hlength, hbody⟩
    have hrest : rest = [] := by
      by_contra hne
      have := byteLength_pos hne
      simp only [byteLength_append, byteLength_closer] at hlength
      omega
    subst hrest
    exact ⟨body, by simp, by simpa using hbody⟩

section

variable {cursor : Cursor} {chunk : Chunk} {chunks front back : List Chunk}

theorem Segmentation.leads (h : Segmentation cursor (front ++ chunk :: back)) :
    chunk.kind.Leads chunk.text (concat back) := by
  have hmem : chunk ∈ front ++ chunk :: back := by simp
  obtain ⟨kind, start, text⟩ := chunk
  cases kind with
  | text =>
      refine .text (h.text_ne_nil _ hmem) ?_ ?_
      · rw [unmarked_iff_occursAt]
        intro marker hmarker _ offset hoffset hoccurs
        obtain ⟨kind, -, rfl⟩ := List.mem_map.mp hmarker
        have hfound := h.contiguous.occursAt_iff.mpr hoccurs
        rw [h.covers] at hfound
        exact h.text_unmarked _ hmem rfl kind (start + offset) (Nat.le_add_right _ _)
          (Nat.add_lt_add_left hoffset _) hfound
      · cases back with
        | nil => exact .inl rfl
        | cons next back =>
            have happart := (List.isChain_append_cons_cons.mp h.texts_apart).2.1
            have hnext : next ∈ front ++ ⟨.text, start, text⟩ :: next :: back := by simp
            right
            cases hkind : next.kind with
            | text => exact absurd ⟨rfl, hkind⟩ happart
            | tag kind =>
                have hopener := (h.tag_closed _ hnext kind hkind).1
                exact ⟨kind, hopener.trans (List.prefix_append _ _)⟩
            | unterminated kind =>
                have hopener := (h.unterminated_last (front ++ [⟨.text, start, text⟩]) next back
                  (by simp) kind hkind).1
                exact ⟨kind, hopener.trans (List.prefix_append _ _)⟩
  | tag kind =>
      exact .tag (TagKind.isTag_iff_isLeast.mpr (h.tag_closed _ hmem kind rfl))
  | unterminated kind =>
      obtain ⟨hopener, hcloser, rfl⟩ := h.unterminated_last _ _ _ rfl kind rfl
      exact .unterminated hopener ((unmarked_singleton_iff kind.closer_ne_nil).mpr hcloser)

theorem IsScan.texts_apart {offset : Nat} (h : IsScan offset chunks) :
    chunks.IsChain fun first second => ¬ (first.kind = .text ∧ second.kind = .text) := by
  rw [List.isChain_iff_forall_rel_of_append_cons_cons]
  rintro first second front back rfl ⟨hfirst, hsecond⟩
  have hfront := h.2 front first (second :: back) rfl
  have hback := h.2 (front ++ [first]) second back (by simp)
  rw [hfirst] at hfront
  cases hfront with
  | text _ _ hrest =>
      rcases hrest with hnil | ⟨kind, hopener⟩
      · exact hback.ne_nil (List.append_eq_nil_iff.mp hnil).1
      · rcases hback.opener_prefix hopener with htag | hunterminated
        · rw [hsecond] at htag
          cases htag
        · rw [hsecond] at hunterminated
          cases hunterminated

theorem IsScan.segmentation (h : IsScan cursor.pos chunks)
    (hcovers : concat chunks = cursor.remaining) : Segmentation cursor chunks where
  covers := hcovers
  contiguous := h.1
  text_ne_nil := by
    intro chunk hmem
    obtain ⟨front, back, rfl⟩ := List.append_of_mem hmem
    exact (h.2 front chunk back rfl).ne_nil
  texts_apart := h.texts_apart
  text_unmarked := by
    intro chunk hmem hkind kind offset hstart hstop hoccurs
    obtain ⟨front, back, rfl⟩ := List.append_of_mem hmem
    obtain ⟨position, rfl⟩ := Nat.exists_eq_add_of_le hstart
    rw [← hcovers, h.1.occursAt_iff] at hoccurs
    have hleads := h.2 front chunk back rfl
    rw [hkind] at hleads
    cases hleads with
    | text _ hunmarked =>
        exact unmarked_iff_occursAt.mp hunmarked _ kind.opener_mem_openers kind.opener_ne_nil
          position (Nat.lt_of_add_lt_add_left hstop) hoccurs
  tag_closed := by
    intro chunk hmem kind hkind
    obtain ⟨front, back, rfl⟩ := List.append_of_mem hmem
    have hleads := h.2 front chunk back rfl
    rw [hkind] at hleads
    exact TagKind.isTag_iff_isLeast.mp hleads.isTag
  unterminated_last := by
    rintro front chunk back rfl kind hkind
    have hleads := h.2 front chunk back rfl
    rw [hkind] at hleads
    generalize hrest : concat back = rest at hleads
    cases hleads with
    | unterminated hopener hunmarked =>
        refine ⟨hopener, (unmarked_singleton_iff kind.closer_ne_nil).mp hunmarked, ?_⟩
        cases back with
        | nil => rfl
        | cons next back =>
            have hnext := h.2 (front ++ [chunk]) next back (by simp)
            exact absurd (List.append_eq_nil_iff.mp hrest).1 hnext.ne_nil

theorem segmentation_iff_isScan :
    Segmentation cursor chunks ↔
      IsScan cursor.pos chunks ∧ concat chunks = cursor.remaining := by
  constructor
  · intro h
    refine ⟨⟨h.contiguous, ?_⟩, h.covers⟩
    rintro front chunk back rfl
    exact h.leads
  · rintro ⟨hscan, hcovers⟩
    exact hscan.segmentation hcovers

theorem Segmentation.exists_cut {source : Text} (h : Segmentation cursor chunks)
    (hwithin : cursor.Within source) (hmem : chunk ∈ chunks) :
    ∃ before after, source = before ++ chunk.text ++ after ∧
      before.byteLength = chunk.start := by
  obtain ⟨behind, rfl, hbehind⟩ := hwithin
  obtain ⟨front, back, rfl⟩ := List.append_of_mem hmem
  refine ⟨behind ++ concat front, concat back, ?_, ?_⟩
  · simp [← h.covers]
  · rw [byteLength_append, hbehind, h.contiguous.start_eq]

end

theorem segmentation_chunks (source : Text) : Segmentation (Cursor.start source) (chunks source) :=
  (isScan_chunks source).segmentation (concat_chunks source)

/--
From every place that a session can bring a cursor to, the scanner yields a
segmentation of what remains, and there is no other one.  Its chunks are cut
out of the source where characters begin and end.
-/
theorem toList_ofCursor_eq_iff_segmentation (source : Text)
    (steps : List Cursor.Session.Step) (found : List Chunk) :
    let cursor := ((Cursor.Session.start source).run steps).2.current
    (FiniteStream.toList (Chunker.ofCursor cursor) = found ↔ Segmentation cursor found) ∧
      (Segmentation cursor found → ∀ chunk ∈ found,
        ∃ before after, source = before ++ chunk.text ++ after ∧
          before.byteLength = chunk.start) := by
  intro cursor
  have hwithin : cursor.Within source :=
    ((Cursor.Session.within_start source).run steps).1
  constructor
  · rw [segmentation_iff_isScan]
    exact chunksFrom_eq_iff
  · intro h chunk hmem
    exact h.exists_cut hwithin hmem

theorem segmentation_of_overlapping_tag :
    let source : Text := ['a', 'é', '{', '#', '}', '{']
    let cursor := ((Cursor.Session.start source).run [.takePast ['a'] false]).2.current
    let found : List Chunk :=
      [⟨.text, 1, ['é']⟩, ⟨.tag .comment, 3, ['{', '#', '}']⟩, ⟨.text, 6, ['{']⟩]
    Segmentation cursor found ∧
      ∃ before after, source = before ++ ['{', '#', '}'] ++ after ∧ before.byteLength = 3 := by
  intro source cursor found
  obtain ⟨hiff, hcut⟩ :=
    toList_ofCursor_eq_iff_segmentation source [.takePast ['a'] false] found
  have hfound : Segmentation cursor found := hiff.mp (by decide +kernel)
  exact ⟨hfound, hcut hfound ⟨.tag .comment, 3, ['{', '#', '}']⟩ (by simp [found])⟩

end TemplateLexer
