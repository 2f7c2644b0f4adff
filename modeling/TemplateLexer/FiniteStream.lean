/-!
# Streams that end

A stream yields an item and the stream after it, or nothing.  A finite stream
has a size that every item lowers, so all of its items can be collected.
A stream that has nothing to yield stays as it is, hence never yields again.
-/

namespace TemplateLexer

class FiniteStream (σ : Type) (α : outParam Type) extends Std.Stream σ α where
  size : σ → Nat
  size_lt {stream rest : σ} {item : α} :
    next? stream = some (item, rest) → size rest < size stream

namespace FiniteStream

variable {σ α : Type} [FiniteStream σ α]

def toList (stream : σ) : List α :=
  match _h : Std.Stream.next? stream with
  | none => []
  | some (item, rest) => item :: toList rest
termination_by size stream
decreasing_by exact size_lt ‹_›

def drain (stream : σ) : σ :=
  match _h : Std.Stream.next? stream with
  | none => stream
  | some (_, rest) => drain rest
termination_by size stream
decreasing_by exact size_lt ‹_›

/-- The item after the first `count`, with the stream after it, or the ended stream. -/
def nth (count : Nat) (stream : σ) : Option α × σ :=
  match Std.Stream.next? stream with
  | none => (none, stream)
  | some (item, rest) =>
      match count with
      | 0 => (some item, rest)
      | count + 1 => nth count rest

theorem toList_of_next?_eq_none {stream : σ}
    (h : Std.Stream.next? stream = none) : toList stream = [] := by
  rw [toList]
  split
  · rfl
  · next heq => rw [h] at heq; cases heq

theorem toList_of_next?_eq_some {stream rest : σ} {item : α}
    (h : Std.Stream.next? stream = some (item, rest)) :
    toList stream = item :: toList rest := by
  rw [toList]
  split
  · next heq => rw [h] at heq; cases heq
  · next heq => rw [h] at heq; cases heq; rfl

theorem drain_of_next?_eq_none {stream : σ}
    (h : Std.Stream.next? stream = none) : drain stream = stream := by
  rw [drain]
  split
  · rfl
  · next heq => rw [h] at heq; cases heq

theorem drain_of_next?_eq_some {stream rest : σ} {item : α}
    (h : Std.Stream.next? stream = some (item, rest)) :
    drain stream = drain rest := by
  rw [drain]
  split
  · next heq => rw [h] at heq; cases heq
  · next heq => rw [h] at heq; cases heq; rfl

theorem next?_drain (stream : σ) : Std.Stream.next? (drain stream) = none := by
  fun_induction drain stream with
  | case1 stream h => exact h
  | case2 stream item rest h ih => exact ih

end FiniteStream

/-! ## Sessions -/

/--
A stream in use, with one saved stream to go back to.  Streams are values, so
going back to the saved one leaves it usable.
-/
structure StreamSession (σ : Type) where
  current : σ
  saved : σ
  deriving DecidableEq, Repr

namespace StreamSession

inductive Step where
  | next
  | nth (count : Nat)
  | rest
  | save
  | restore
  deriving DecidableEq, Repr

inductive Answer (α : Type) where
  | item (item : Option α)
  | items (items : List α)
  | saved
  | restored
  deriving DecidableEq, Repr

def start {σ : Type} (stream : σ) : StreamSession σ :=
  ⟨stream, stream⟩

variable {σ α : Type} [FiniteStream σ α]

def step (session : StreamSession σ) : Step → Answer α × StreamSession σ
  | .next =>
      match Std.Stream.next? session.current with
      | none => (.item none, session)
      | some (item, rest) => (.item (some item), { session with current := rest })
  | .nth count =>
      let (item, rest) := FiniteStream.nth count session.current
      (.item item, { session with current := rest })
  | .rest =>
      (.items (FiniteStream.toList session.current),
        { session with current := FiniteStream.drain session.current })
  | .save => (.saved, { session with saved := session.current })
  | .restore => (.restored, { session with current := session.saved })

def run (session : StreamSession σ) : List Step → List (Answer α)
  | [] => []
  | first :: steps =>
      let (answer, session) := session.step first
      answer :: session.run steps

end StreamSession

end TemplateLexer
