import TemplateLexer.Proofs.ChunkForm
import TemplateLexer.Proofs.ChunkerSession

/-!
# How many chunks and tokens a text makes

Every chunk takes at least one byte, a tag three and an unterminated one two,
and no two chunks of literal text follow each other.  So there are hardly more
chunks than half the bytes, and no more tokens.  What a chunker has still to
yield is counted over its cursor and the chunk that it keeps together, for
finding two chunks at once moves the cursor behind both of them.
-/

namespace TemplateLexer

open Text

def ChunkKind.fewestBytes : ChunkKind → Nat
  | .text => 1
  | .tag _ => 3
  | .unterminated _ => 2

section

variable {kind : ChunkKind} {part : Text} {offset : Nat} {chunks : List Chunk}

theorem ChunkKind.fewestBytes_pos (kind : ChunkKind) : 0 < kind.fewestBytes := by
  cases kind <;> exact Nat.succ_pos _

theorem ChunkKind.Form.fewestBytes_le (h : kind.Form part) :
    kind.fewestBytes ≤ part.byteLength := by
  refine Nat.le_trans ?_ (length_le_byteLength part)
  cases h with
  | text hne => exact List.length_pos_iff.mpr hne
  | delimited =>
      simp [fewestBytes]
      omega
  | overlapped => simp [fewestBytes]
  | unterminated hopener => simpa [fewestBytes] using hopener.length_le

theorem IsScan.two_mul_length_le (h : IsScan offset chunks) :
    2 * chunks.length ≤ (concat chunks).byteLength + 1 ∧
      ((concat chunks = [] ∨ ∃ kind : TagKind, kind.opener <+: concat chunks) →
        2 * chunks.length ≤ (concat chunks).byteLength) := by
  induction chunks generalizing offset with
  | nil => simp
  | cons chunk chunks ih =>
      obtain ⟨-, hleads, hscan⟩ := isScan_cons.mp h
      obtain ⟨hany, hopener⟩ := ih hscan
      have hbytes := hleads.form.fewestBytes_le
      obtain ⟨kind, start, part⟩ := chunk
      rw [concat_cons, byteLength_append, List.length_cons]
      generalize concat chunks = rest at *
      dsimp only at *
      cases hleads with
      | text hne hpart hrest =>
          have hfew := hopener hrest
          simp only [ChunkKind.fewestBytes] at hbytes
          refine ⟨by omega, ?_⟩
          rintro (hnil | ⟨opening, hopening⟩)
          · exact absurd (List.append_eq_nil_iff.mp hnil).1 hne
          · have hkind := ChunkKind.Leads.opener_prefix (.text hne hpart hrest) hopening
            simp at hkind
      | tag htag =>
          simp only [ChunkKind.fewestBytes] at hbytes
          exact ⟨by omega, fun _ => by omega⟩
      | unterminated =>
          have hlast := hopener (.inl rfl)
          simp only [ChunkKind.fewestBytes] at hbytes
          simp only [byteLength_nil] at hlast ⊢
          exact ⟨by omega, fun _ => by omega⟩

theorem length_chunksFrom_le (offset : Nat) (text : Text) :
    (chunksFrom offset text).length ≤ (text.byteLength + 1) / 2 := by
  obtain ⟨hscan, hconcat⟩ := isScan_chunksFrom offset text
  have hlength := hscan.two_mul_length_le.1
  rw [hconcat] at hlength
  omega

end

theorem length_chunks_of_leads {kind : ChunkKind} {part rest : Text} (h : kind.Leads part rest) :
    (chunks (part ++ rest)).length = (chunks rest).length + 1 := by
  rw [chunks_eq_chunksFrom, chunksFrom_of_leads h, chunksFrom_eq_map_shift, List.length_cons,
    List.length_map]

theorem leads_letter {rest : Text} (hrest : rest = [] ∨ ∃ kind : TagKind, kind.opener <+: rest) :
    ChunkKind.Leads .text ['a'] rest := by
  refine .text (List.cons_ne_nil _ _) ⟨?_, trivial⟩ hrest
  rw [TagKind.markerAt?_openers_eq_none_iff]
  intro kind
  cases kind <;> simp [TagKind.opener]

theorem exists_length_chunks_eq (count : Nat) :
    ∃ source : Text, source.byteLength = count ∧ (chunks source).length = (count + 1) / 2 := by
  have hnone : (chunks []).length = 0 := by
    rw [chunks_eq_chunksFrom, chunksFrom_nil, List.length_nil]
  induction count using Nat.strong_induction_on with
  | _ count ih =>
      match count, ih with
      | 0, _ => exact ⟨[], rfl, hnone⟩
      | 1, _ =>
          refine ⟨['a'] ++ [], rfl, ?_⟩
          rw [length_chunks_of_leads (leads_letter (.inl rfl)), hnone]
      | 2, _ =>
          have hletters : ChunkKind.Leads .text ['a', 'a'] [] :=
            .text (List.cons_ne_nil _ _) (by decide) (.inl rfl)
          refine ⟨['a', 'a'] ++ [], rfl, ?_⟩
          rw [length_chunks_of_leads hletters, hnone]
      | 3, _ =>
          have hopener : ChunkKind.Leads (.unterminated .var) ['{', '{'] [] :=
            .unterminated List.prefix_rfl (by decide)
          have htext : ChunkKind.Leads .text ['a'] (['{', '{'] ++ []) :=
            leads_letter (.inr ⟨.var, [], rfl⟩)
          refine ⟨['a'] ++ (['{', '{'] ++ []), rfl, ?_⟩
          rw [length_chunks_of_leads htext, length_chunks_of_leads hopener, hnone]
      | count + 4, ih =>
          obtain ⟨source, hbytes, hlength⟩ := ih count (by omega)
          have htag : ChunkKind.Leads (.tag .comment) ['{', '#', '}'] source :=
            .tag ⟨⟨['}'], rfl⟩, ['{'], rfl, by decide⟩
          have htext : ChunkKind.Leads .text ['a'] (['{', '#', '}'] ++ source) :=
            leads_letter (.inr ⟨.comment, ['}'] ++ source, rfl⟩)
          refine ⟨['a'] ++ (['{', '#', '}'] ++ source), ?_, ?_⟩
          · rw [byteLength_append, byteLength_append, hbytes]
            change 1 + (3 + count) = count + 4
            omega
          · rw [length_chunks_of_leads htext, length_chunks_of_leads htag, hlength]
            omega

namespace Chunker

variable {chunker rest : Chunker} {chunk : Chunk}

/-- The bytes behind the cursor's place and those of the chunk that is kept. -/
def unyielded (chunker : Chunker) : Nat :=
  chunker.cursor.remaining.byteLength +
    (chunker.pending.map fun chunk => chunk.text.byteLength).getD 0

theorem byteLength_concat_toList (chunker : Chunker) :
    (concat (FiniteStream.toList chunker)).byteLength = chunker.unyielded := by
  obtain ⟨⟨offset, text⟩, pending⟩ := chunker
  have hahead : concat (FiniteStream.toList (ofCursor ⟨offset, text⟩)) = text :=
    (isScan_chunksFrom offset text).2
  cases pending with
  | none => exact congrArg byteLength hahead
  | some kept =>
      rw [FiniteStream.toList_of_next?_eq_some next?_of_pending, concat_cons, byteLength_append,
        hahead, Nat.add_comm]
      rfl

theorem byteLength_add_unyielded (h : Std.Stream.next? chunker = some (chunk, rest)) :
    chunk.text.byteLength + rest.unyielded = chunker.unyielded := by
  rw [← byteLength_concat_toList, ← byteLength_concat_toList,
    FiniteStream.toList_of_next?_eq_some h, concat_cons, byteLength_append]

theorem Settled.text_ne_nil (hsettled : chunker.Settled)
    (h : Std.Stream.next? chunker = some (chunk, rest)) : chunk.text ≠ [] := by
  obtain ⟨⟨offset, text⟩, pending⟩ := chunker
  cases pending with
  | some kept =>
      rw [next?_of_pending] at h
      cases h
      exact (hsettled _ rfl).1
  | none =>
      have hlist : chunksFrom offset text = chunk :: FiniteStream.toList rest :=
        FiniteStream.toList_of_next?_eq_some h
      have hmem : chunk ∈ chunksFrom offset text := by
        rw [hlist]
        exact List.mem_cons_self
      have hbytes := (form_of_mem_chunksFrom hmem).fewestBytes_le
      intro hnil
      rw [hnil, byteLength_nil] at hbytes
      exact Nat.not_le_of_lt chunk.kind.fewestBytes_pos hbytes

theorem Settled.unyielded_lt (hsettled : chunker.Settled)
    (h : Std.Stream.next? chunker = some (chunk, rest)) : rest.unyielded < chunker.unyielded := by
  have hsum := byteLength_add_unyielded h
  have hpos := byteLength_pos (hsettled.text_ne_nil h)
  omega

end Chunker

theorem length_throughError_le {α ε : Type} (items : List (Except ε α)) :
    (throughError items).length ≤ items.length := by
  fun_induction throughError items with
  | case1 => exact Nat.le_refl 0
  | case2 value rest ih => exact Nat.succ_le_succ ih
  | case3 error rest => exact Nat.succ_le_succ (Nat.zero_le _)

theorem Lexer.length_toList_tokens_le (lexer : Lexer) :
    (FiniteStream.toList lexer.tokens).length ≤ (lexer.source.byteLength + 1) / 2 := by
  calc (FiniteStream.toList lexer.tokens).length
      ≤ ((chunks lexer.source).map (Chunk.item lexer.options)).length := by
        rw [toList_tokens]
        exact length_throughError_le _
    _ = (chunks lexer.source).length := List.length_map _
    _ ≤ (lexer.source.byteLength + 1) / 2 := length_chunksFrom_le 0 lexer.source

/--
A chunker yields at most half as many chunks as there are bytes ahead of it,
rounded up, and then nothing.  Whatever is done with it on the way, each chunk
that it yields takes its own bytes off those still to be yielded, and has some.
The tokens of a text come to no more items, whatever the options are.
-/
theorem scanning_ends_within_bytes :
    (∀ cursor : Cursor,
      (∃ count ≤ (cursor.remaining.byteLength + 1) / 2,
        FiniteStream.EndsAfter (Chunker.ofCursor cursor) count) ∧
      ∀ steps chunk rest,
        let chunker := (Machine.after StreamSession.step
          (StreamSession.start (Chunker.ofCursor cursor)) steps).current
        Std.Stream.next? chunker = some (chunk, rest) →
          rest.unyielded < chunker.unyielded ∧
            chunk.text.byteLength + rest.unyielded = chunker.unyielded) ∧
      ∀ lexer : Lexer, ∃ count ≤ (lexer.source.byteLength + 1) / 2,
        FiniteStream.EndsAfter lexer.tokens count := by
  constructor
  · intro cursor
    refine ⟨⟨_, length_chunksFrom_le cursor.pos cursor.remaining,
      FiniteStream.endsAfter_length_toList _⟩, ?_⟩
    intro steps chunk rest chunker hnext
    have hsettled : chunker.Settled :=
      (StreamSession.after_preserves (fun _ h => Chunker.settled_of_next? h)
        (Chunker.settled_ofCursor cursor) steps).1
    exact ⟨hsettled.unyielded_lt hnext, Chunker.byteLength_add_unyielded hnext⟩
  · intro lexer
    exact ⟨_, lexer.length_toList_tokens_le, FiniteStream.endsAfter_length_toList _⟩

theorem scanning_ends_within_bytes_of_kept_tag :
    let cursor : Cursor := ⟨4, ['é', '{', '%', '}']⟩
    let chunker : Chunker := ⟨⟨9, []⟩, some ⟨.tag .block, 6, ['{', '%', '}']⟩⟩
    (Machine.after StreamSession.step (StreamSession.start (Chunker.ofCursor cursor))
        [.save, .next]).current = chunker ∧
      chunker.unyielded = 3 ∧
      Std.Stream.next? chunker =
        some (⟨.tag .block, 6, ['{', '%', '}']⟩, Chunker.ofCursor ⟨9, []⟩) ∧
      (Chunker.ofCursor ⟨9, []⟩).unyielded < chunker.unyielded := by
  intro cursor chunker
  have hchunker : (Machine.after StreamSession.step
      (StreamSession.start (Chunker.ofCursor cursor)) [.save, .next]).current = chunker := rfl
  have hnext : Std.Stream.next? chunker =
      some (⟨.tag .block, 6, ['{', '%', '}']⟩, Chunker.ofCursor ⟨9, []⟩) := rfl
  have hdecrease := (scanning_ends_within_bytes.1 cursor).2 [.save, .next]
    ⟨.tag .block, 6, ['{', '%', '}']⟩ (Chunker.ofCursor ⟨9, []⟩)
  rw [hchunker] at hdecrease
  exact ⟨hchunker, by decide, hnext, (hdecrease hnext).1⟩

end TemplateLexer
