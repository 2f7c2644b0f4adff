import TemplateLexer.Proofs.Segmentation

/-!
# Cutting texts apart and putting them together

Text that is added at the end changes the last chunk only, and a closed tag not
even then.  A text that is cut where one of its chunks ends falls into two
texts whose chunks are those of the whole, counted from the cut in the second.
-/

namespace TemplateLexer

open Text

def Chunk.shift (count : Nat) (chunk : Chunk) : Chunk :=
  { chunk with start := chunk.start + count }

@[simp] theorem Chunk.text_shift (count : Nat) (chunk : Chunk) :
    (chunk.shift count).text = chunk.text := rfl

@[simp] theorem Chunk.kind_shift (count : Nat) (chunk : Chunk) :
    (chunk.shift count).kind = chunk.kind := rfl

theorem Chunk.stop_shift (count : Nat) (chunk : Chunk) :
    (chunk.shift count).stop = chunk.stop + count := by
  simp only [Chunk.stop, Chunk.shift]
  omega

@[simp] theorem concat_map_shift (count : Nat) (chunks : List Chunk) :
    concat (chunks.map (Chunk.shift count)) = concat chunks := by
  simp [concat, List.flatMap_map]

section

variable {kind : ChunkKind} {part rest more : Text} {offset count : Nat}
  {chunk : Chunk} {found front back : List Chunk}

theorem IsScan.shift (h : IsScan offset found) :
    IsScan (offset + count) (found.map (Chunk.shift count)) := by
  induction found generalizing offset with
  | nil => exact isScan_nil
  | cons chunk found ih =>
      obtain ⟨rfl, hleads, hscan⟩ := isScan_cons.mp h
      rw [List.map_cons, isScan_cons]
      refine ⟨rfl, ?_, ?_⟩
      · simpa using hleads
      · rw [Chunk.stop_shift]
        exact ih hscan

theorem chunksFrom_eq_map_shift (offset : Nat) (text : Text) :
    chunksFrom offset text = (chunks text).map (Chunk.shift offset) := by
  have hshift : IsScan (0 + offset) ((chunks text).map (Chunk.shift offset)) :=
    (isScan_chunks text).shift
  rw [Nat.zero_add] at hshift
  exact chunksFrom_eq_iff.mpr ⟨hshift, by rw [concat_map_shift, concat_chunks]⟩

theorem ChunkKind.Leads.append (h : kind.Leads part rest) (hrest : rest ≠ []) :
    kind.Leads part (rest ++ more) := by
  cases h with
  | text hne hpart hopener =>
      have hlong : ∀ marker ∈ TagKind.openers, marker.length ≤ rest.length + 1 := by
        intro marker hmem
        have hmarker := TagKind.length_le_of_mem_openers hmem
        have hlength := List.length_pos_iff.mpr hrest
        omega
      refine .text hne (hpart.append hlong) (.inr ?_)
      obtain ⟨opening, hopening⟩ := hopener.resolve_left hrest
      exact ⟨opening, hopening.trans (List.prefix_append _ _)⟩
  | tag htag => exact .tag htag
  | unterminated => exact absurd rfl hrest

theorem ChunkKind.Leads.of_append (h : kind.Leads part (rest ++ more))
    (hrest : ∀ opening : TagKind, opening.opener <+: rest ++ more →
      rest = [] ∨ opening.opener <+: rest) : kind.Leads part rest := by
  generalize hwhole : rest ++ more = whole at h
  cases h with
  | text hne hpart hopener =>
      subst hwhole
      refine .text hne hpart.of_append ?_
      rcases hopener with hnil | ⟨opening, hopening⟩
      · exact .inl (List.append_eq_nil_iff.mp hnil).1
      · exact (hrest opening hopening).imp_right fun hbegins => ⟨opening, hbegins⟩
  | tag htag => exact .tag htag
  | unterminated hopener hpart =>
      obtain rfl := (List.append_eq_nil_iff.mp hwhole).1
      exact .unterminated hopener hpart

theorem ChunkKind.Leads.alone (h : kind.Leads part rest) : kind.Leads part [] := by
  have hwhole : kind.Leads part ([] ++ rest) := h
  exact hwhole.of_append fun _ _ => .inl rfl

theorem contiguous_append :
    Contiguous offset (front ++ back) ↔
      Contiguous offset front ∧ Contiguous (offset + (concat front).byteLength) back := by
  induction front generalizing offset with
  | nil => simp [Contiguous]
  | cons chunk front ih =>
      rw [List.cons_append, Contiguous, Contiguous, ih, and_assoc]
      refine and_congr_right fun hstart => ?_
      rw [Chunk.stop, hstart, concat_cons, byteLength_append, Nat.add_assoc]

theorem IsScan.of_append (h : IsScan offset (front ++ back)) :
    IsScan offset front ∧ IsScan (offset + (concat front).byteLength) back := by
  obtain ⟨hcontiguous, hleads⟩ := h
  obtain ⟨hfront, hback⟩ := contiguous_append.mp hcontiguous
  refine ⟨⟨hfront, ?_⟩, hback, ?_⟩
  · rintro before chunk after rfl
    have hchunk := hleads before chunk (after ++ back) (by simp)
    rw [concat_append] at hchunk
    refine hchunk.of_append ?_
    intro opening hopening
    cases after with
    | nil => exact .inl rfl
    | cons next after =>
        have hnext := hleads (before ++ [chunk]) next (after ++ back) (by simp)
        -- The chunk behind literal text has all of the opener that it begins with.
        have hopener : opening.opener <+: next.text := by
          apply hnext.tagKind?_opener
          rw [concat_cons, List.append_assoc, ← concat_append] at hopening
          exact hnext.tagKind?_eq hopening
        exact .inr (hopener.trans (List.prefix_append _ _))
  · rintro before chunk after rfl
    exact hleads (front ++ before) chunk after (by simp)

theorem IsScan.replace_last {last : Chunk} (h : IsScan offset (front ++ [last]))
    (hback : IsScan (offset + (concat front).byteLength) back)
    (hconcat : concat back = last.text ++ more) : IsScan offset (front ++ back) := by
  induction front generalizing offset with
  | nil => simpa using hback
  | cons chunk front ih =>
      rw [List.cons_append] at h
      obtain ⟨rfl, hleads, hscan⟩ := isScan_cons.mp h
      rw [List.cons_append, isScan_cons]
      refine ⟨rfl, ?_, ?_⟩
      · rw [concat_append, hconcat, ← List.append_assoc]
        have hlast : last.text ≠ [] := (h.2 (chunk :: front) last [] rfl).ne_nil
        simp only [concat_append, concat_cons, concat_nil, List.append_nil] at hleads
        exact hleads.append (by simp [hlast])
      · apply ih hscan
        rw [concat_cons, byteLength_append, ← Nat.add_assoc] at hback
        exact hback

theorem chunks_append_of_eq {source : Text} {init : List Chunk} {last : Chunk}
    (h : chunks source = init ++ [last]) (added : Text) :
    chunks (source ++ added) = init ++ chunksFrom last.start (last.text ++ added) := by
  have hsource : source = concat init ++ last.text := by
    rw [← concat_chunks source, h, concat_append, concat_cons, concat_nil, List.append_nil]
  obtain ⟨htail, hconcat⟩ := isScan_chunksFrom last.start (last.text ++ added)
  have hwhole : IsScan 0 (init ++ chunksFrom last.start (last.text ++ added)) := by
    apply (isScan_of_chunks_eq h).replace_last _ hconcat
    rwa [Nat.zero_add, ← start_eq_of_chunks_eq h]
  refine chunksFrom_eq_iff.mpr ⟨hwhole, ?_⟩
  rw [concat_append, hconcat, hsource, List.append_assoc]

theorem chunks_ne_nil {source : Text} (hsource : source ≠ []) : chunks source ≠ [] := by
  intro hnil
  have hconcat := concat_chunks source
  rw [hnil, concat_nil] at hconcat
  exact hsource hconcat.symm

/--
Text added behind a text that is not empty changes its last chunk only, into
the chunks of that chunk's text and the added text.  A tag at the end is not
changed either.
-/
theorem chunks_append {source : Text} (hsource : source ≠ []) (added : Text) :
    ∃ init last, chunks source = init ++ [last] ∧
      chunks (source ++ added) =
        init ++ (chunks (last.text ++ added)).map (Chunk.shift (concat init).byteLength) ∧
      ∀ kind, last.kind = .tag kind →
        chunks (source ++ added) =
          chunks source ++ (chunks added).map (Chunk.shift source.byteLength) := by
  obtain ⟨init, last, hsplit⟩ :=
    (List.eq_nil_or_concat _).resolve_left (chunks_ne_nil hsource)
  rw [List.concat_eq_append] at hsplit
  have hstart := start_eq_of_chunks_eq hsplit
  have happend := chunks_append_of_eq hsplit added
  refine ⟨init, last, hsplit, ?_, ?_⟩
  · rw [happend, chunksFrom_eq_map_shift, hstart]
  · intro kind hkind
    have htag : last.kind.Leads last.text added := by
      have hlast := (isScan_of_chunks_eq hsplit).2 init last [] rfl
      rw [hkind] at hlast ⊢
      exact .tag hlast.isTag
    have hlength : last.start + last.text.byteLength = source.byteLength := by
      rw [← concat_chunks source, hsplit, hstart]
      simp
    rw [happend, chunksFrom_of_leads htag, hlength, chunksFrom_eq_map_shift, hsplit,
      List.append_assoc, List.singleton_append]

end

theorem chunks_append_brace :
    let source : Text := ['a', '{', '{', '}', '}']
    source ≠ [] ∧
      chunks source = [⟨.text, 0, ['a']⟩, ⟨.tag .var, 1, ['{', '{', '}', '}']⟩] ∧
      chunks (source ++ ['}', '{', '{']) =
        chunks source ++ (chunks ['}', '{', '{']).map (Chunk.shift 5) := by
  intro source
  have hsource : source ≠ [] := by simp [source]
  have hchunks : chunks source = [⟨.text, 0, ['a']⟩, ⟨.tag .var, 1, ['{', '{', '}', '}']⟩] := by
    decide +kernel
  obtain ⟨init, last, hsplit, -, htag⟩ := chunks_append hsource ['}', '{', '{']
  have hlast : last = ⟨.tag .var, 1, ['{', '{', '}', '}']⟩ := by
    have hgetLast := congrArg List.getLast? (hsplit.symm.trans hchunks)
    simpa using hgetLast
  exact ⟨hsource, hchunks, htag .var (by rw [hlast])⟩

/-! ## Cuts where a chunk ends -/

/-- The offset is the beginning of the text or the end of one of its chunks. -/
def IsChunkBoundary (source : Text) (offset : Nat) : Prop :=
  offset = 0 ∨ ∃ chunk ∈ chunks source, chunk.stop = offset

theorem IsChunkBoundary.exists_front {source : Text} {offset : Nat}
    (h : IsChunkBoundary source offset) :
    ∃ front back, chunks source = front ++ back ∧ (concat front).byteLength = offset := by
  rcases h with rfl | ⟨chunk, hmem, rfl⟩
  · exact ⟨[], chunks source, rfl, rfl⟩
  · obtain ⟨front, back, hsplit⟩ := List.append_of_mem hmem
    refine ⟨front ++ [chunk], back, by simp [hsplit], ?_⟩
    simp [Chunk.stop, start_eq_of_chunks_eq hsplit]

theorem chunks_concat_of_chunks_eq {source : Text} {front back : List Chunk}
    (h : chunks source = front ++ back) : chunks (concat front) = front := by
  obtain ⟨hfront, -⟩ := (isScan_of_chunks_eq h).of_append
  rw [chunks_eq_chunksFrom, hfront.chunksFrom_concat]

theorem IsChunkBoundary.chunks_eq_append {source : Text} {offset : Nat}
    (h : IsChunkBoundary source offset) :
    ∃ before after, source.splitAt? offset = some (before, after) ∧
      chunks source = chunks before ++ (chunks after).map (Chunk.shift offset) := by
  obtain ⟨front, back, hsplit, rfl⟩ := h.exists_front
  obtain ⟨-, hback⟩ := (isScan_of_chunks_eq hsplit).of_append
  refine ⟨concat front, concat back, ?_, ?_⟩
  · rw [← concat_chunks source, hsplit, concat_append]
    exact splitAt?_append _ _
  · rw [Nat.zero_add] at hback
    rw [← chunksFrom_eq_map_shift, hback.chunksFrom_concat, hsplit,
      chunks_concat_of_chunks_eq hsplit]

theorem chunks_text_of_mem {source : Text} {chunk : Chunk} (h : chunk ∈ chunks source) :
    chunks chunk.text = [{ chunk with start := 0 }] := by
  obtain ⟨front, back, hsplit⟩ := List.append_of_mem h
  have hleads := ((isScan_chunks source).2 front chunk back hsplit).alone
  have halone : chunksFrom 0 (chunk.text ++ []) = _ := chunksFrom_of_leads hleads
  rwa [List.append_nil, chunksFrom_nil] at halone

end TemplateLexer
