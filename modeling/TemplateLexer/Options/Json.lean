import TemplateLexer.Json.Literal
import TemplateLexer.Json.Typed
import TemplateLexer.Options

/-!
# Options as JSON

Options are an object with a member for each of the two settings.  A text that
gives only some of them, in whatever order and among members of other names,
leaves the others at their defaults; one that gives a setting twice is
rejected at the second key.  Options may also be given in order, as an array.
-/

namespace TemplateLexer

def Recovery.choice : Json.Choice Recovery :=
  ⟨Recovery.all, Recovery.name⟩

def TrimMode.choice : Json.Choice TrimMode :=
  ⟨TrimMode.all, TrimMode.name⟩

def Recovery.toJson (recovery : Recovery) : Text :=
  Json.literal recovery.name

def Recovery.ofJson (text : Text) : Except Json.ReadError Recovery :=
  Json.readAll Recovery.choice.readBare text

def TrimMode.toJson (mode : TrimMode) : Text :=
  Json.literal mode.name

def TrimMode.ofJson (text : Text) : Except Json.ReadError TrimMode :=
  Json.readAll TrimMode.choice.readBare text

namespace Options

def recoveryKey : Text := "recovery".toList

def trimKey : Text := "trim".toList

def toJson (options : Options) : Text :=
  Json.object [(recoveryKey, options.recovery.toJson), (trimKey, options.trim.toJson)]

structure Given where
  recovery : Option Recovery := none
  trim : Option TrimMode := none
  deriving DecidableEq, Repr

def Given.complete (given : Given) : Options :=
  let defaults : Options := {}
  ⟨given.recovery.getD defaults.recovery, given.trim.getD defaults.trim⟩

inductive MemberStart where
  | key (rest : Text)
  | closed (rest : Text)
  deriving DecidableEq, Repr

def MemberStart.rest : MemberStart → Text
  | key rest => rest
  | closed rest => rest

/-- Passes over the quote that opens the next key, with a comma before it unless it is the first. -/
def readMemberStart (first : Bool) (text : Text) : Except Json.ReadError MemberStart :=
  match Json.skipBlank text with
  | [] => .error .cutShort
  | c :: rest =>
      if c = '}' then .ok (.closed rest)
      else if first then
        if c = '"' then .ok (.key rest) else .error .malformed
      else if c = ',' then (Json.skipMark '"' rest).map .key
      else .error .malformed

def readMember (given : Given) (text : Text) : Except Json.ReadError (Given × Text) := do
  let (key, rest) ← Json.readString text
  if key.value = recoveryKey then
    if given.recovery.isSome then Json.reject (.duplicateField recoveryKey)
    else
      let (recovery, rest) ← Recovery.choice.readBare (← Json.skipMark ':' rest)
      .ok ({ given with recovery := some recovery }, rest)
  else if key.value = trimKey then
    if given.trim.isSome then Json.reject (.duplicateField trimKey)
    else
      let (trim, rest) ← TrimMode.choice.readBare (← Json.skipMark ':' rest)
      .ok ({ given with trim := some trim }, rest)
  else
    .ok (given, ← Json.skipValue (← Json.skipMark ':' rest))

theorem length_lt_of_readMemberStart {first : Bool} {text : Text} {start : MemberStart}
    (h : readMemberStart first text = .ok start) : start.rest.length < text.length := by
  unfold readMemberStart at h
  split at h
  · cases h
  · next c tail hblank =>
      have := Json.length_lt_of_skipBlank hblank
      split at h
      · cases h
        exact this
      · split at h
        · split at h
          · cases h
            exact this
          · cases h
        · split at h
          · obtain ⟨behind, hmark, rfl⟩ := Json.map_eq_ok_iff.mp h
            have := Json.length_lt_of_skipMark hmark
            simp only [MemberStart.rest]
            omega
          · cases h

theorem length_lt_of_readMember {given given' : Given} {text rest : Text}
    (h : readMember given text = .ok (given', rest)) : rest.length < text.length := by
  obtain ⟨⟨key, afterKey⟩, hkey, h⟩ := Json.bind_eq_ok_iff.mp h
  have := Json.length_lt_of_readString hkey
  dsimp only at h
  split at h
  · split at h
    · cases h
    · obtain ⟨afterColon, hcolon, h⟩ := Json.bind_eq_ok_iff.mp h
      obtain ⟨⟨value, afterValue⟩, hvalue, h⟩ := Json.bind_eq_ok_iff.mp h
      cases h
      have := Json.length_lt_of_skipMark hcolon
      have := Json.Choice.length_lt_of_readBare hvalue
      show afterValue.length < text.length
      omega
  · split at h
    · split at h
      · cases h
      · obtain ⟨afterColon, hcolon, h⟩ := Json.bind_eq_ok_iff.mp h
        obtain ⟨⟨value, afterValue⟩, hvalue, h⟩ := Json.bind_eq_ok_iff.mp h
        cases h
        have := Json.length_lt_of_skipMark hcolon
        have := Json.Choice.length_lt_of_readBare hvalue
        show afterValue.length < text.length
        omega
    · obtain ⟨afterColon, hcolon, h⟩ := Json.bind_eq_ok_iff.mp h
      obtain ⟨afterValue, hvalue, h⟩ := Json.bind_eq_ok_iff.mp h
      cases h
      have := Json.length_lt_of_skipMark hcolon
      have := Json.length_lt_of_skipFrom hvalue
      omega

def readMembers (first : Bool) (given : Given) (text : Text) :
    Except Json.ReadError (Given × Text) :=
  match _hstart : readMemberStart first text with
  | .error error => .error error
  | .ok (.closed rest) => .ok (given, rest)
  | .ok (.key rest) =>
      match _hmember : readMember given rest with
      | .error error => .error error
      | .ok (given, rest) => readMembers false given rest
termination_by text.length
decreasing_by
  have hmember := length_lt_of_readMember ‹_›
  have hstart := length_lt_of_readMemberStart ‹_›
  exact Nat.lt_trans hmember hstart

def readElement {α : Type} (first : Bool) (read : Json.Reader α) (text : Text) :
    Except Json.ReadError (Option α × Text) :=
  match Json.skipBlank text with
  | [] => .error .cutShort
  | c :: rest =>
      if c = ']' then .ok (none, c :: rest)
      else if first then
        (read (c :: rest)).map fun (value, rest) => (some value, rest)
      else if c = ',' then
        (read rest).map fun (value, rest) => (some value, rest)
      else .error .malformed

def readElements (text : Text) : Except Json.ReadError (Given × Text) := do
  let (recovery, rest) ← readElement true Recovery.choice.readBare text
  let (trim, rest) ← readElement recovery.isNone TrimMode.choice.readBare rest
  .ok (⟨recovery, trim⟩, ← Json.skipMark ']' rest)

def readJson : Json.Reader Options := fun text =>
  match Json.skipBlank text with
  | [] => .error .cutShort
  | c :: rest =>
      if c = '[' then
        (readElements rest).map fun (given, rest) => (given.complete, rest)
      else if c = '{' then
        (readMembers true {} rest).map fun (given, rest) => (given.complete, rest)
      else Json.rejectOther "struct LexerOptions".toList (c :: rest)

def ofJson (text : Text) : Except Json.ReadError Options :=
  Json.readAll readJson text

end Options

end TemplateLexer
