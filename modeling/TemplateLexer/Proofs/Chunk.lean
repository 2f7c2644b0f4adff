import TemplateLexer.Chunk
import TemplateLexer.Proofs.Cursor

/-!
# The first chunk of a text

Which chunk a text begins with depends on the text alone.  `Leads` says it
without the scanner: literal text runs to the first opener or to the end, a
tag runs from its opener to the first closer, and an opener without a closer
takes all that is left.  Every text that is not empty has such a first chunk,
and the scanner yields it and goes on behind it, whether it keeps a tag on the
way or not.
-/

namespace TemplateLexer

open Text

namespace TagKind

variable {kind other : TagKind} {text : Text}

theorem opener_mem_openers (kind : TagKind) : kind.opener ∈ openers :=
  List.mem_map_of_mem (mem_all kind)

theorem forall_mem_openers {p : Text → Prop} :
    (∀ opener ∈ openers, p opener) ↔ ∀ kind : TagKind, p kind.opener := by
  simp [openers, mem_all]

theorem length_le_of_mem_openers {marker : Text} (h : marker ∈ openers) : marker.length ≤ 2 := by
  obtain ⟨kind, -, rfl⟩ := List.mem_map.mp h
  cases kind <;> exact Nat.le_refl 2

@[simp] theorem length_closer (kind : TagKind) : kind.closer.length = 2 := by
  cases kind <;> rfl

@[simp] theorem byteLength_closer (kind : TagKind) : kind.closer.byteLength = 2 := by
  cases kind <;> rfl

@[simp] theorem length_opener (kind : TagKind) : kind.opener.length = 2 := by
  cases kind <;> rfl

theorem opener_prefix_inj (h : kind.opener <+: text) (hother : other.opener <+: text) :
    kind = other := by
  have heq : kind.opener = other.opener :=
    (List.prefix_of_prefix_length_le h hother (by simp)).eq_of_length (by simp)
  cases kind <;> cases other <;> first | rfl | simp [opener] at heq

theorem markerAt?_openers_eq_none_iff :
    markerAt? openers text = none ↔ ∀ kind : TagKind, ¬ kind.opener <+: text := by
  rw [markerAt?_eq_none_iff, forall_mem_openers]
  simp [opener_ne_nil]

theorem markerAt?_openers_eq_some_iff {marker : Text} :
    markerAt? openers text = some marker ↔
      ∃ kind : TagKind, marker = kind.opener ∧ kind.opener <+: text := by
  constructor
  · intro h
    obtain ⟨hmem, -, hbegins⟩ := of_markerAt?_eq_some h
    obtain ⟨kind, -, rfl⟩ := List.mem_map.mp hmem
    exact ⟨kind, rfl, hbegins⟩
  · rintro ⟨kind, rfl, hbegins⟩
    cases hmarker : markerAt? openers text with
    | none => exact absurd hbegins (markerAt?_openers_eq_none_iff.mp hmarker kind)
    | some found =>
        obtain ⟨hmem, -, hfound⟩ := of_markerAt?_eq_some hmarker
        obtain ⟨other, -, rfl⟩ := List.mem_map.mp hmem
        rw [opener_prefix_inj hbegins hfound]

theorem unmarked_openers_nil_iff :
    Unmarked openers text [] ↔ ∀ kind : TagKind, ¬ kind.opener <:+: text := by
  rw [unmarked_nil_right_iff, forall_mem_openers]
  simp [opener_ne_nil]

/-- A tag runs from its opener to the first closer, which may overlap the opener. -/
def IsTag (kind : TagKind) (text : Text) : Prop :=
  kind.opener <+: text ∧
    ∃ body, text = body ++ kind.closer ∧ Unmarked [kind.closer] body kind.closer

end TagKind

/--
The part is the first chunk, of the given kind, of the text that goes on with
the rest.
-/
inductive ChunkKind.Leads : ChunkKind → Text → Text → Prop
  | text {part rest : Text} (hne : part ≠ [])
      (hpart : Unmarked TagKind.openers part rest)
      (hrest : rest = [] ∨ ∃ kind : TagKind, kind.opener <+: rest) :
      Leads .text part rest
  | tag {kind : TagKind} {part rest : Text} (htag : kind.IsTag part) :
      Leads (.tag kind) part rest
  | unterminated {kind : TagKind} {part : Text} (hopener : kind.opener <+: part)
      (hpart : Unmarked [kind.closer] part []) :
      Leads (.unterminated kind) part []

namespace ChunkKind

variable {kind : ChunkKind} {part rest : Text}

theorem Leads.ne_nil (h : kind.Leads part rest) : part ≠ [] := by
  cases h with
  | text hne => exact hne
  | tag htag => exact htag.1.ne_nil (TagKind.opener_ne_nil _)
  | unterminated hopener => exact hopener.ne_nil (TagKind.opener_ne_nil _)

theorem Leads.opener_prefix {opening : TagKind} (h : kind.Leads part rest)
    (hopening : opening.opener <+: part ++ rest) :
    kind = .tag opening ∨ kind = .unterminated opening := by
  cases h with
  | text hne hpart =>
      obtain ⟨c, part, rfl⟩ := List.exists_cons_of_ne_nil hne
      exact absurd hopening (TagKind.markerAt?_openers_eq_none_iff.mp hpart.1 opening)
  | tag htag =>
      have hbegins := htag.1.trans (List.prefix_append part rest)
      exact .inl (by rw [TagKind.opener_prefix_inj hbegins hopening])
  | unterminated hopener =>
      rw [List.append_nil] at hopening
      exact .inr (by rw [TagKind.opener_prefix_inj hopener hopening])

theorem Leads.tagKind?_eq {opening : TagKind} (h : kind.Leads part rest)
    (hopening : opening.opener <+: part ++ rest) : kind.tagKind? = some opening := by
  rcases h.opener_prefix hopening with rfl | rfl
  · rfl
  · rfl

theorem Leads.isTag {kind : TagKind} (h : Leads (.tag kind) part rest) : kind.IsTag part := by
  cases h with
  | tag htag => exact htag

theorem Leads.tagKind?_opener {opening : TagKind} (h : kind.Leads part rest)
    (hkind : kind.tagKind? = some opening) : opening.opener <+: part := by
  cases h with
  | text => cases hkind
  | tag htag =>
      cases hkind
      exact htag.1
  | unterminated hopener =>
      cases hkind
      exact hopener

theorem exists_leads_of_opener {kind : TagKind} {text : Text} (h : kind.opener <+: text) :
    ∃ part rest, text = part ++ rest ∧
      (Leads (.tag kind) part rest ∨ Leads (.unterminated kind) part rest) := by
  rcases unmarked_or_marked [kind.closer] text with
    hunmarked | ⟨body, behind, closer, rfl, hbody, hcloser⟩
  · exact ⟨text, [], (List.append_nil _).symm, .inr (.unterminated h hunmarked)⟩
  · obtain ⟨hmem, -, rest, rfl⟩ := of_markerAt?_eq_some hcloser
    obtain rfl := List.mem_singleton.mp hmem
    rw [← List.append_assoc] at h
    have hopener : kind.opener <+: body ++ kind.closer :=
      List.prefix_of_prefix_length_le h (List.prefix_append _ _) (by simp)
    refine ⟨body ++ kind.closer, rest, (List.append_assoc ..).symm, .inl (.tag ⟨hopener, ?_⟩)⟩
    exact ⟨body, rfl, hbody.of_append⟩

theorem exists_leads {text : Text} (htext : text ≠ []) :
    ∃ kind part rest, text = part ++ rest ∧ Leads kind part rest := by
  rcases unmarked_or_marked TagKind.openers text with
    hunmarked | ⟨before, after, marker, rfl, hbefore, hafter⟩
  · exact ⟨.text, text, [], (List.append_nil _).symm, .text htext hunmarked (.inl rfl)⟩
  · obtain ⟨kind, rfl, hopener⟩ := TagKind.markerAt?_openers_eq_some_iff.mp hafter
    cases before with
    | nil =>
        obtain ⟨part, rest, rfl, htag | htag⟩ := exists_leads_of_opener hopener
        · exact ⟨_, part, rest, rfl, htag⟩
        · exact ⟨_, part, rest, rfl, htag⟩
    | cons c before =>
        exact ⟨.text, c :: before, after, rfl,
          .text (List.cons_ne_nil c before) hbefore (.inr ⟨kind, hopener⟩)⟩

end ChunkKind

namespace Chunker

variable {offset : Nat} {kind : TagKind} {part rest : Text}

theorem scanTag_of_isTag (h : kind.IsTag part) :
    scanTag kind ⟨offset, part ++ rest⟩ =
      (⟨.tag kind, offset, part⟩, ⟨offset + part.byteLength, rest⟩) := by
  obtain ⟨-, body, rfl, hbody⟩ := h
  have hlong : ∀ marker ∈ [kind.closer], marker.length ≤ kind.closer.length + 1 := by
    simp
  have htake : Cursor.takePast? kind.closer true ⟨offset, body ++ kind.closer ++ rest⟩ =
      some (body ++ kind.closer, ⟨offset + (body ++ kind.closer).byteLength, rest⟩) :=
    (Cursor.takePast?_eq_some_iff kind.closer_ne_nil).mpr
      ⟨body, rfl, rfl, hbody.append hlong, rfl⟩
  rw [scanTag, htake]

theorem scanTag_of_unmarked (h : Unmarked [kind.closer] part []) :
    scanTag kind ⟨offset, part⟩ =
      (⟨.unterminated kind, offset, part⟩, ⟨offset + part.byteLength, []⟩) := by
  have htake : Cursor.takePast? kind.closer true ⟨offset, part⟩ = none :=
    (Cursor.takePast?_eq_none_iff kind.closer_ne_nil).mpr h
  rw [scanTag, htake]
  rfl

theorem next?_of_pending {cursor : Cursor} {chunk : Chunk} :
    Std.Stream.next? (⟨cursor, some chunk⟩ : Chunker) = some (chunk, ofCursor cursor) := rfl

theorem next?_ofCursor_nil : Std.Stream.next? (ofCursor ⟨offset, []⟩) = none := rfl

theorem next?_of_opener {text : Text} (h : kind.opener <+: text) :
    Std.Stream.next? (ofCursor ⟨offset, text⟩) =
      some ((scanTag kind ⟨offset, text⟩).1, ofCursor (scanTag kind ⟨offset, text⟩).2) := by
  have hne : text ≠ [] := h.ne_nil kind.opener_ne_nil
  have hmarker : markerAt? TagKind.openers text = some kind.opener :=
    TagKind.markerAt?_openers_eq_some_iff.mpr ⟨kind, rfl, h⟩
  have hseek : Cursor.seekAny? TagKind.openers ⟨offset, text⟩ =
      some (kind.opener, [], ⟨offset, text⟩) :=
    Cursor.seekAny?_eq_some_iff.mpr ⟨rfl, rfl, unmarked_nil, hmarker⟩
  change next? (ofCursor ⟨offset, text⟩) = _
  simp [next?, ofCursor, Cursor.isEmpty, hne, hseek, TagKind.ofOpener?_opener]

theorem next?_of_unmarked (hne : part ≠ []) (h : Unmarked TagKind.openers part []) :
    Std.Stream.next? (ofCursor ⟨offset, part⟩) =
      some (⟨.text, offset, part⟩, ofCursor ⟨offset + part.byteLength, []⟩) := by
  have hseek : Cursor.seekAny? TagKind.openers ⟨offset, part⟩ = none :=
    Cursor.seekAny?_eq_none_iff.mpr h
  change next? (ofCursor ⟨offset, part⟩) = _
  simp [next?, ofCursor, Cursor.isEmpty, hne, hseek, Cursor.takeRest]

theorem next?_of_unmarked_of_opener (hne : part ≠ [])
    (hpart : Unmarked TagKind.openers part rest) (hrest : kind.opener <+: rest) :
    Std.Stream.next? (ofCursor ⟨offset, part ++ rest⟩) =
      some (⟨.text, offset, part⟩,
        ⟨(scanTag kind ⟨offset + part.byteLength, rest⟩).2,
          some (scanTag kind ⟨offset + part.byteLength, rest⟩).1⟩) := by
  have hmarker : markerAt? TagKind.openers rest = some kind.opener :=
    TagKind.markerAt?_openers_eq_some_iff.mpr ⟨kind, rfl, hrest⟩
  have hseek : Cursor.seekAny? TagKind.openers ⟨offset, part ++ rest⟩ =
      some (kind.opener, part, ⟨offset + part.byteLength, rest⟩) :=
    Cursor.seekAny?_eq_some_iff.mpr ⟨rfl, rfl, hpart, hmarker⟩
  change next? (ofCursor ⟨offset, part ++ rest⟩) = _
  simp [next?, ofCursor, Cursor.isEmpty, hne, hseek, TagKind.ofOpener?_opener]

end Chunker

def chunksFrom (offset : Nat) (text : Text) : List Chunk :=
  FiniteStream.toList (Chunker.ofCursor ⟨offset, text⟩)

theorem chunks_eq_chunksFrom (source : Text) : chunks source = chunksFrom 0 source := rfl

section

variable {offset : Nat} {kind : ChunkKind} {part rest : Text}

@[simp] theorem chunksFrom_nil : chunksFrom offset [] = [] :=
  FiniteStream.toList_of_next?_eq_none Chunker.next?_ofCursor_nil

theorem chunksFrom_of_opener {opening : TagKind} {text : Text} (h : opening.opener <+: text) :
    chunksFrom offset text =
      (Chunker.scanTag opening ⟨offset, text⟩).1 ::
        FiniteStream.toList (Chunker.ofCursor (Chunker.scanTag opening ⟨offset, text⟩).2) :=
  FiniteStream.toList_of_next?_eq_some (Chunker.next?_of_opener h)

theorem chunksFrom_of_leads (h : kind.Leads part rest) :
    chunksFrom offset (part ++ rest) =
      ⟨kind, offset, part⟩ :: chunksFrom (offset + part.byteLength) rest := by
  cases h with
  | text hne hpart hrest =>
      rcases hrest with rfl | ⟨opening, hopening⟩
      · rw [List.append_nil]
        exact FiniteStream.toList_of_next?_eq_some (Chunker.next?_of_unmarked hne hpart)
      · rw [chunksFrom, FiniteStream.toList_of_next?_eq_some
            (Chunker.next?_of_unmarked_of_opener hne hpart hopening),
          FiniteStream.toList_of_next?_eq_some Chunker.next?_of_pending,
          chunksFrom_of_opener hopening]
  | tag htag =>
      rw [chunksFrom_of_opener (htag.1.trans (List.prefix_append part rest)),
        Chunker.scanTag_of_isTag htag, chunksFrom]
  | unterminated hopener hpart =>
      rw [List.append_nil, chunksFrom_of_opener hopener, Chunker.scanTag_of_unmarked hpart,
        chunksFrom]

end

end TemplateLexer
