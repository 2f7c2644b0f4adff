import TemplateLexer.Json.Skip

/-!
# Reading values of a known type

A reader for one type of value meets a value of another type with the
description of what it found.  A choice among names is written as a string
that holds the name, or as an object with the name as its only key.
-/

namespace TemplateLexer

namespace Json

def reject {α : Type} (cause : Mismatch) : Except ReadError α :=
  .error (.rejected cause)

def readFound : Text → Except ReadError Found
  | [] => .error .cutShort
  | c :: rest =>
      if c = 'n' then (skipWord "ull".toList rest).map fun _ => .null
      else if c = 't' then (skipWord "rue".toList rest).map fun _ => .boolean true
      else if c = 'f' then (skipWord "alse".toList rest).map fun _ => .boolean false
      else if c = '"' then (readString rest).map fun (read, _) => .string read.value
      else if c = '[' then .ok .sequence
      else if c = '{' then .ok .map
      else if c = '-' ∨ c.isDigit then do
        let (numeral, _) ← readNumeral (c == '-') (if c = '-' then rest else c :: rest)
        match numeral.found? with
        | some found => .ok found
        | none => .error .malformed
      else .error .malformed

def rejectOther {α : Type} (expected : Text) (text : Text) : Except ReadError α := do
  reject (.wrongType (← readFound text) expected)

def readNull : Reader Unit := fun text =>
  match skipBlank text with
  | [] => .error .cutShort
  | c :: rest =>
      if c = 'n' then (skipWord "ull".toList rest).map fun rest => ((), rest)
      else rejectOther "unit".toList (c :: rest)

/-- Reads a string written without escapes, so that its value stands in the text as it is. -/
def readVerbatim : Reader Text := fun text =>
  let expected := "a borrowed string".toList
  match skipBlank text with
  | [] => .error .cutShort
  | c :: rest =>
      if c = '"' then do
        let (read, rest) ← readString rest
        if read.escaped then reject (.wrongType (.string read.value) expected)
        else .ok (read.value, rest)
      else rejectOther expected (c :: rest)

structure Choice (κ : Type) where
  values : List κ
  name : κ → Text

/-- Reads a string that names a value.  Anything else in its place is malformed, of whatever type. -/
def Choice.readName {κ : Type} (choice : Choice κ) : Reader κ := fun text => do
  let (read, rest) ← readString (← skipMark '"' text)
  match choice.values.find? fun value => choice.name value == read.value with
  | some value => .ok (value, rest)
  | none => reject (.unknownName read.value (choice.values.map choice.name))

/--
Reads a string that names a value, which `bare` then has to accept, or an
object with such a name as its only key, whose member `content` reads.
-/
def Choice.read {κ α : Type} (choice : Choice κ) (bare : κ → Except ReadError α)
    (content : κ → Reader α) : Reader α := fun text =>
  match skipBlank text with
  | [] => .error .cutShort
  | c :: rest =>
      if c = '{' then do
        let (chosen, rest) ← choice.readName rest
        let (value, rest) ← content chosen (← skipMark ':' rest)
        .ok (value, ← skipMark '}' rest)
      else if c = '"' then do
        let (chosen, rest) ← choice.readName (c :: rest)
        .ok (← bare chosen, rest)
      else .error .malformed

def Choice.readBare {κ : Type} (choice : Choice κ) : Reader κ :=
  choice.read .ok fun value text =>
    (readNull text).map fun (_, rest) => (value, rest)

def readAll {α : Type} (read : Reader α) (text : Text) : Except ReadError α := do
  let (value, rest) ← read text
  match skipBlank rest with
  | [] => .ok value
  | _ => .error .malformed

theorem rejectOther_ne_ok {α : Type} {expected text : Text} {a : α} :
    rejectOther expected text ≠ .ok a := by
  intro h
  obtain ⟨found, -, h⟩ := bind_eq_ok_iff.mp h
  cases h

theorem length_lt_of_readNull {text rest : Text}
    (h : readNull text = .ok ((), rest)) : rest.length < text.length := by
  unfold readNull at h
  split at h
  · cases h
  · next c tail hblank =>
      have := length_lt_of_skipBlank hblank
      split at h
      · obtain ⟨behind, hword, heq⟩ := map_eq_ok_iff.mp h
        cases heq
        have := length_le_of_skipWord hword
        omega
      · exact absurd h rejectOther_ne_ok

theorem Choice.length_lt_of_readName {κ : Type} {choice : Choice κ} {text rest : Text}
    {value : κ} (h : choice.readName text = .ok (value, rest)) :
    rest.length < text.length := by
  obtain ⟨opened, hopened, h⟩ := bind_eq_ok_iff.mp h
  obtain ⟨⟨read, behind⟩, hread, h⟩ := bind_eq_ok_iff.mp h
  dsimp only at h
  split at h
  · cases h
    exact Nat.lt_trans (length_lt_of_readString hread) (length_lt_of_skipMark hopened)
  · cases h

theorem Choice.length_lt_of_readBare {κ : Type} {choice : Choice κ} {text rest : Text}
    {value : κ} (h : choice.readBare text = .ok (value, rest)) :
    rest.length < text.length := by
  unfold Choice.readBare Choice.read at h
  split at h
  · cases h
  · next c tail hblank =>
      have hlt := length_lt_of_skipBlank hblank
      have hle := length_skipBlank_le text
      rw [hblank] at hle
      split at h
      · obtain ⟨⟨named, afterName⟩, hname, h⟩ := bind_eq_ok_iff.mp h
        obtain ⟨afterColon, hcolon, h⟩ := bind_eq_ok_iff.mp h
        obtain ⟨⟨value, afterValue⟩, hvalue, h⟩ := bind_eq_ok_iff.mp h
        obtain ⟨afterClose, hclose, h⟩ := bind_eq_ok_iff.mp h
        obtain ⟨⟨_, afterNull⟩, hnull, heq⟩ := map_eq_ok_iff.mp hvalue
        cases heq
        cases h
        have := Choice.length_lt_of_readName hname
        have := length_lt_of_skipMark hcolon
        have := length_lt_of_readNull hnull
        have := length_lt_of_skipMark hclose
        omega
      · split at h
        · obtain ⟨⟨named, afterName⟩, hname, h⟩ := bind_eq_ok_iff.mp h
          obtain ⟨accepted, hbare, h⟩ := bind_eq_ok_iff.mp h
          cases hbare
          cases h
          have := Choice.length_lt_of_readName hname
          omega
        · cases h

end Json

end TemplateLexer
