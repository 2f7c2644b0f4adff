import TemplateLexer.Cursor
import TemplateLexer.FiniteStream
import TemplateLexer.TagKind

/-!
# Chunks

A text is scanned into chunks: literal text up to the next opener, then the
tag from that opener through its closer.  The closer is sought from the opener
on and may share a character with it, so a chunk of three characters is a
complete tag.  An opener whose closer never follows makes one last chunk of
all the rest.  No chunk is empty, and the chunks in order make up the text.
-/

namespace TemplateLexer

inductive ChunkKind where
  | text
  | tag (kind : TagKind)
  | unterminated (kind : TagKind)
  deriving DecidableEq, Repr

structure Chunk where
  kind : ChunkKind
  start : Nat
  text : Text
  deriving DecidableEq, Repr

def ChunkKind.tagKind? : ChunkKind → Option TagKind
  | .text => none
  | .tag kind => some kind
  | .unterminated kind => some kind

/--
The chunks that lie ahead of a cursor.  Text and the tag behind it are found
in one scan, and the tag is then kept until it is asked for.
-/
structure Chunker where
  cursor : Cursor
  pending : Option Chunk
  deriving DecidableEq, Repr

namespace Chunker

def ofCursor (cursor : Cursor) : Chunker :=
  ⟨cursor, none⟩

def ofText (source : Text) : Chunker :=
  ofCursor (Cursor.start source)

def scanTag (kind : TagKind) (cursor : Cursor) : Chunk × Cursor :=
  match cursor.takePast? kind.closer true with
  | some (text, next) => (⟨.tag kind, cursor.pos, text⟩, next)
  | none =>
      let (text, next) := cursor.takeRest
      (⟨.unterminated kind, cursor.pos, text⟩, next)

def next? (chunker : Chunker) : Option (Chunk × Chunker) :=
  match chunker.pending with
  | some chunk => some (chunk, ofCursor chunker.cursor)
  | none =>
      if chunker.cursor.isEmpty then none
      else
        match chunker.cursor.seekAny? TagKind.openers with
        | none =>
            let (text, next) := chunker.cursor.takeRest
            some (⟨.text, chunker.cursor.pos, text⟩, ofCursor next)
        | some (opener, before, atOpener) => do
            let kind ← TagKind.ofOpener? opener
            let (tag, next) := scanTag kind atOpener
            if before.isEmpty then some (tag, ofCursor next)
            else some (⟨.text, chunker.cursor.pos, before⟩, ⟨next, some tag⟩)

def size (chunker : Chunker) : Nat :=
  2 * chunker.cursor.remaining.length + if chunker.pending.isSome then 1 else 0

theorem length_remaining_scanTag_le (kind : TagKind) (cursor : Cursor) :
    (scanTag kind cursor).2.remaining.length ≤ cursor.remaining.length := by
  rw [scanTag]
  split
  · next text next h =>
      exact Nat.le_of_lt
        (Cursor.length_remaining_lt_of_takePast? kind.closer_ne_nil h)
  · exact Nat.zero_le _

theorem length_remaining_scanTag_lt (kind : TagKind) {cursor : Cursor}
    (hcursor : cursor.remaining ≠ []) :
    (scanTag kind cursor).2.remaining.length < cursor.remaining.length := by
  rw [scanTag]
  split
  · next text next h =>
      exact Cursor.length_remaining_lt_of_takePast? kind.closer_ne_nil h
  · exact List.length_pos_iff.mpr hcursor

theorem size_lt_of_next? {chunker rest : Chunker} {chunk : Chunk}
    (h : chunker.next? = some (chunk, rest)) : rest.size < chunker.size := by
  rw [next?] at h
  split at h
  · next pending hpending =>
      cases h
      simp [size, ofCursor, hpending]
  · next hpending =>
      split at h
      · cases h
      · next hempty =>
          have hremaining : chunker.cursor.remaining ≠ [] := by
            simpa [Cursor.isEmpty] using hempty
          have hlength := List.length_pos_iff.mpr hremaining
          split at h
          · cases h
            simp [size, ofCursor, hpending]
            omega
          · next opener before atOpener hfound =>
              obtain ⟨kind, -, h⟩ := Option.bind_eq_some_iff.mp h
              have hsplit := Cursor.remaining_of_seekAny? hfound
              have hsum := congrArg List.length hsplit
              rw [List.length_append] at hsum
              have hle := length_remaining_scanTag_le kind atOpener
              have hlt := @length_remaining_scanTag_lt kind atOpener
              rcases hscan : scanTag kind atOpener with ⟨tag, next⟩
              simp only [hscan] at h hle hlt
              split at h
              · next hbefore =>
                  cases h
                  have hat : atOpener.remaining ≠ [] := by
                    intro hnil
                    rw [hnil, List.isEmpty_iff.mp hbefore] at hsplit
                    exact hremaining hsplit
                  have := hlt hat
                  simp [size, ofCursor, hpending]
                  omega
              · next hbefore =>
                  cases h
                  have hpos : 0 < before.length :=
                    List.length_pos_iff.mpr (by simpa using hbefore)
                  simp [size, hpending]
                  omega

instance : FiniteStream Chunker Chunk where
  next? := next?
  size := size
  size_lt := size_lt_of_next?

end Chunker

def chunks (source : Text) : List Chunk :=
  FiniteStream.toList (Chunker.ofText source)

end TemplateLexer
