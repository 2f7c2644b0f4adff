import TemplateLexer.Proofs.FiniteStream
import TemplateLexer.Proofs.Splitting

/-!
# Chunkers in use

A chunker that starts anywhere in a source is a place in one fixed list: the
chunks of the text that remains, counted from where it starts.  The chunk that
it keeps on the way is a tag that ends where its cursor stands, so it makes no
difference whether a chunker is copied with such a chunk or without one.
-/

namespace TemplateLexer

open Text

namespace Chunker

variable {chunker rest : Chunker} {chunk : Chunk} {cursor : Cursor}

/-- The chunk that is kept, if any, is a tag, and the cursor stands where it ends. -/
def Settled (chunker : Chunker) : Prop :=
  ∀ chunk, chunker.pending = some chunk →
    chunk.text ≠ [] ∧ chunk.kind ≠ .text ∧ chunk.stop = chunker.cursor.pos

theorem settled_ofCursor (cursor : Cursor) : (ofCursor cursor).Settled := by
  intro chunk hpending
  cases hpending

theorem settled_scanTag {kind : TagKind} (h : kind.opener <+: cursor.remaining) :
    Settled ⟨(scanTag kind cursor).2, some (scanTag kind cursor).1⟩ := by
  obtain ⟨offset, text⟩ := cursor
  rintro chunk ⟨⟩
  obtain ⟨part, behind, rfl, hleads | hleads⟩ := ChunkKind.exists_leads_of_opener h
  · rw [scanTag_of_isTag hleads.isTag]
    exact ⟨hleads.ne_nil, ChunkKind.noConfusion, rfl⟩
  · cases hleads with
    | unterminated hopener hpart =>
        rw [List.append_nil, scanTag_of_unmarked hpart]
        exact ⟨hopener.ne_nil kind.opener_ne_nil, ChunkKind.noConfusion, rfl⟩

theorem settled_of_next? (h : Std.Stream.next? chunker = some (chunk, rest)) : rest.Settled := by
  obtain ⟨⟨offset, text⟩, pending⟩ := chunker
  cases pending with
  | some kept =>
      cases h
      exact settled_ofCursor _
  | none =>
      change Std.Stream.next? (ofCursor ⟨offset, text⟩) = some (chunk, rest) at h
      by_cases htext : text = []
      · subst htext
        cases h
      · obtain ⟨kind, part, behind, rfl, hleads⟩ := ChunkKind.exists_leads htext
        cases hleads with
        | text hne hpart hbehind =>
            rcases hbehind with rfl | ⟨opening, hopening⟩
            · rw [List.append_nil, next?_of_unmarked hne hpart] at h
              cases h
              exact settled_ofCursor _
            · rw [next?_of_unmarked_of_opener hne hpart hopening] at h
              cases h
              exact settled_scanTag hopening
        | tag htag =>
            rw [next?_of_opener (htag.1.trans (List.prefix_append _ _))] at h
            cases h
            exact settled_ofCursor _
        | unterminated hopener hpart =>
            rw [List.append_nil, next?_of_opener hopener] at h
            cases h
            exact settled_ofCursor _

end Chunker

/--
Wherever a session has brought a cursor to, the chunker from there answers as
two indices into the chunks of what remains, which start where they stand in
the source.  All chunkers that can be reached are settled, and one that has
ended goes on only when a place saved before is restored.
-/
theorem chunker_session_eq_bookmarks (source : Text) (moves : List Cursor.Session.Step)
    (steps : List StreamSession.Step) :
    let cursor := ((Cursor.Session.start source).run moves).2.current
    let session := StreamSession.start (Chunker.ofCursor cursor)
    let items := (chunks cursor.remaining).map (Chunk.shift cursor.pos)
    (∃ behind, source.splitAt? cursor.pos = some (behind, cursor.remaining)) ∧
      (∀ chunk ∈ items, ∃ before after, source = before ++ chunk.text ++ after ∧
        before.byteLength = chunk.start) ∧
      session.run steps = Machine.answers (Bookmarks.step items) .start steps ∧
      (Machine.after StreamSession.step session steps).current.Settled ∧
      (Machine.after StreamSession.step session steps).saved.Settled ∧
      ∀ between, StreamSession.RestoresOwnSaves between →
        (session.run (steps ++ [.next])).getLast? = some (.item none) →
          (session.run (steps ++ .next :: between ++ [.next])).getLast? = some (.item none) := by
  intro cursor session items
  have hwithin : cursor.Within source := ((Cursor.Session.within_start source).run moves).1
  have hitems : FiniteStream.toList (Chunker.ofCursor cursor) = items :=
    chunksFrom_eq_map_shift cursor.pos cursor.remaining
  obtain ⟨hcurrent, hsaved⟩ := StreamSession.after_preserves
    (fun _ hnext => Chunker.settled_of_next? hnext) (Chunker.settled_ofCursor cursor) steps
  refine ⟨hwithin.splitAt?_pos, ?_, ?_, hcurrent, hsaved, ?_⟩
  · intro chunk hmem
    rw [← hitems] at hmem
    have hsegmentation : Segmentation cursor (FiniteStream.toList (Chunker.ofCursor cursor)) :=
      segmentation_iff_isScan.mpr (isScan_chunksFrom cursor.pos cursor.remaining)
    exact hsegmentation.exists_cut hwithin hmem
  · rw [← hitems]
    exact StreamSession.run_start_eq_answers _ steps
  · intro between hbetween hended
    exact StreamSession.getLast?_run_of_ended _ hbetween hended

theorem chunker_session_inside_opener :
    let source : Text := ['{', '{', 'é', '{', '#', '}', '{', '{']
    let cursor := ((Cursor.Session.start source).run [.takePast ['{'] false]).2.current
    let session := StreamSession.start (Chunker.ofCursor cursor)
    let steps : List StreamSession.Step := [.next, .save, .rest, .restore, .next, .nth 3]
    let between : List StreamSession.Step := [.save, .next, .restore]
    cursor.pos = 1 ∧
      session.run steps =
        Machine.answers (Bookmarks.step
          [⟨.text, 1, ['{', 'é']⟩, ⟨.tag .comment, 4, ['{', '#', '}']⟩,
            ⟨.unterminated .var, 7, ['{', '{']⟩]) .start steps ∧
      StreamSession.RestoresOwnSaves between ∧
      (session.run (steps ++ [.next])).getLast? = some (.item none) ∧
      (session.run (steps ++ .next :: between ++ [.next])).getLast? = some (.item none) := by
  intro source cursor session steps between
  have hitems : (chunks cursor.remaining).map (Chunk.shift cursor.pos) =
      [⟨.text, 1, ['{', 'é']⟩, ⟨.tag .comment, 4, ['{', '#', '}']⟩,
        ⟨.unterminated .var, 7, ['{', '{']⟩] := by
    decide +kernel
  have hbetween : StreamSession.RestoresOwnSaves between := by
    intro front back h
    cases front with
    | nil => simp [between] at h
    | cons first front =>
        obtain ⟨rfl, -⟩ : .save = first ∧ _ := List.cons.inj h
        exact List.mem_cons_self
  have hended : (session.run (steps ++ [.next])).getLast? = some (.item none) := by
    decide +kernel
  obtain ⟨-, -, hrun, -, -, hstays⟩ :=
    chunker_session_eq_bookmarks source [.takePast ['{'] false] steps
  rw [hitems] at hrun
  exact ⟨by decide +kernel, hrun, hbetween, hended, hstays between hbetween hended⟩

end TemplateLexer
