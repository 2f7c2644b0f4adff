import TemplateLexer.Json.ReadError

/-!
# Reading the parts of a JSON text

A reader takes a value off the beginning of a text and returns it with the
rest, or says why it cannot.  Readers go from left to right and stop at the
first fault.  Every reader of this module that succeeds leaves a shorter text,
which is what readers of nested values recurse on.
-/

namespace TemplateLexer

namespace Json

abbrev Reader (α : Type) := Text → Except ReadError (α × Text)

theorem bind_eq_ok_iff {ε α β : Type} {x : Except ε α} {f : α → Except ε β} {b : β} :
    x >>= f = .ok b ↔ ∃ a, x = .ok a ∧ f a = .ok b := by
  cases x with
  | error e => simp [bind, Except.bind]
  | ok a => simp [bind, Except.bind]

theorem map_eq_ok_iff {ε α β : Type} {x : Except ε α} {f : α → β} {b : β} :
    x.map f = .ok b ↔ ∃ a, x = .ok a ∧ f a = b := by
  cases x with
  | error e => simp [Except.map]
  | ok a => simp [Except.map]

def isBlank (c : Char) : Bool :=
  c == ' ' || c == '\n' || c == '\t' || c == '\r'

def skipBlank (text : Text) : Text :=
  text.dropWhile isBlank

def skipWord : Text → Text → Except ReadError Text
  | [], text => .ok text
  | _ :: _, [] => .error .cutShort
  | letter :: word, c :: rest =>
      if c = letter then skipWord word rest else .error .malformed

def skipMark (mark : Char) (text : Text) : Except ReadError Text :=
  match skipBlank text with
  | [] => .error .cutShort
  | c :: rest => if c = mark then .ok rest else .error .malformed

theorem length_skipBlank_le (text : Text) : (skipBlank text).length ≤ text.length :=
  (List.dropWhile_sublist isBlank).length_le

theorem length_lt_of_skipBlank {text rest : Text} {c : Char}
    (h : skipBlank text = c :: rest) : rest.length < text.length := by
  have := length_skipBlank_le text
  rw [h, List.length_cons] at this
  omega

theorem length_le_of_skipWord {word text rest : Text}
    (h : skipWord word text = .ok rest) : rest.length ≤ text.length := by
  fun_induction skipWord word text with
  | case1 text => cases h; exact Nat.le_refl _
  | case2 => cases h
  | case3 word c text ih => exact Nat.le_succ_of_le (ih h)
  | case4 => cases h

theorem length_lt_of_skipMark {mark : Char} {text rest : Text}
    (h : skipMark mark text = .ok rest) : rest.length < text.length := by
  rw [skipMark] at h
  split at h
  · cases h
  · next c tail hblank =>
      split at h
      · cases h; exact length_lt_of_skipBlank hblank
      · cases h

def hexValue? (c : Char) : Option Nat :=
  if '0' ≤ c ∧ c ≤ '9' then some (c.toNat - '0'.toNat)
  else if 'a' ≤ c ∧ c ≤ 'f' then some (c.toNat - 'a'.toNat + 10)
  else if 'A' ≤ c ∧ c ≤ 'F' then some (c.toNat - 'A'.toNat + 10)
  else none

def hex4? (first second third fourth : Char) : Option Nat := do
  some (((← hexValue? first) * 16 + (← hexValue? second)) * 256 +
    (← hexValue? third) * 16 + (← hexValue? fourth))

/-- Reads four hexadecimal digits.  A text of fewer than four bytes is cut short. -/
def readHex4 (text : Text) : Except ReadError (Nat × Text) :=
  match text with
  | first :: second :: third :: fourth :: rest =>
      match hex4? first second third fourth with
      | some code => .ok (code, rest)
      | none => .error .malformed
  | short => .error (if short.byteLength < 4 then .cutShort else .malformed)

def isLeadingSurrogate (code : Nat) : Bool :=
  0xD800 ≤ code && code ≤ 0xDBFF

def isTrailingSurrogate (code : Nat) : Bool :=
  0xDC00 ≤ code && code ≤ 0xDFFF

def combineSurrogates (leading trailing : Nat) : Nat :=
  (leading - 0xD800) * 0x400 + (trailing - 0xDC00) + 0x10000

/-- Reads the digits of a numeric escape, and after a leading surrogate the escape of the other. -/
def readCodePoint (text : Text) : Except ReadError (Char × Text) := do
  let (code, rest) ← readHex4 text
  if isTrailingSurrogate code then .error .malformed
  else if isLeadingSurrogate code then
    let (trailing, rest) ← readHex4 (← skipWord ['\\', 'u'] rest)
    if isTrailingSurrogate trailing then
      .ok (Char.ofNat (combineSurrogates code trailing), rest)
    else .error .malformed
  else .ok (Char.ofNat code, rest)

def letterEscape? (c : Char) : Option Char :=
  if c = '"' ∨ c = '\\' ∨ c = '/' then some c
  else if c = 'b' then some '\x08'
  else if c = 'f' then some '\x0c'
  else if c = 'n' then some '\n'
  else if c = 'r' then some '\r'
  else if c = 't' then some '\t'
  else none

def readEscape : Text → Except ReadError (Char × Text)
  | [] => .error .cutShort
  | c :: rest =>
      if c = 'u' then readCodePoint rest
      else
        match letterEscape? c with
        | some meant => .ok (meant, rest)
        | none => .error .malformed

def skipEscape : Text → Except ReadError Text
  | [] => .error .cutShort
  | c :: rest =>
      if c = 'u' then (readHex4 rest).map fun (_, rest) => rest
      else if (letterEscape? c).isSome then .ok rest
      else .error .malformed

theorem length_lt_of_readHex4 {text rest : Text} {code : Nat}
    (h : readHex4 text = .ok (code, rest)) : rest.length < text.length := by
  unfold readHex4 at h
  split at h
  · split at h
    · cases h
      simp only [List.length_cons]
      omega
    · cases h
  · cases h

theorem length_lt_of_readCodePoint {text rest : Text} {c : Char}
    (h : readCodePoint text = .ok (c, rest)) : rest.length < text.length := by
  obtain ⟨⟨code, tail⟩, hcode, h⟩ := bind_eq_ok_iff.mp h
  have hlt := length_lt_of_readHex4 hcode
  dsimp only at h
  split at h
  · cases h
  · split at h
    · obtain ⟨behind, hword, h⟩ := bind_eq_ok_iff.mp h
      obtain ⟨⟨trailing, other⟩, htrailing, h⟩ := bind_eq_ok_iff.mp h
      have := length_le_of_skipWord hword
      have := length_lt_of_readHex4 htrailing
      dsimp only at h
      split at h
      · obtain ⟨-, rfl⟩ := Prod.mk.injEq .. ▸ Except.ok.injEq .. ▸ h
        omega
      · cases h
    · obtain ⟨-, rfl⟩ := Prod.mk.injEq .. ▸ Except.ok.injEq .. ▸ h
      exact hlt

theorem length_lt_of_readEscape {text rest : Text} {c : Char}
    (h : readEscape text = .ok (c, rest)) : rest.length < text.length := by
  rw [readEscape.eq_def] at h
  split at h
  · cases h
  · split at h
    · exact Nat.lt_succ_of_lt (length_lt_of_readCodePoint h)
    · split at h
      · cases h
        exact Nat.lt_succ_self _
      · cases h

theorem length_lt_of_skipEscape {text rest : Text}
    (h : skipEscape text = .ok rest) : rest.length < text.length := by
  rw [skipEscape.eq_def] at h
  split at h
  · cases h
  · next c tail =>
      split at h
      · cases hhex : readHex4 tail with
        | error e => rw [hhex] at h; cases h
        | ok read =>
            rw [hhex] at h
            cases h
            exact Nat.lt_succ_of_lt (length_lt_of_readHex4 hhex)
      · split at h
        · cases h
          exact Nat.lt_succ_self _
        · cases h

/-! ## Strings -/

structure StringValue where
  value : Text
  escaped : Bool
  deriving DecidableEq, Repr

def readString (text : Text) : Except ReadError (StringValue × Text) :=
  match text with
  | [] => .error .cutShort
  | c :: rest =>
      if c = '"' then .ok (⟨[], false⟩, rest)
      else if c = '\\' then
        match _h : readEscape rest with
        | .error error => .error error
        | .ok (meant, rest) =>
            (readString rest).map fun (tail, rest) => (⟨meant :: tail.value, true⟩, rest)
      else if c.toNat < 0x20 then .error .malformed
      else
        (readString rest).map fun (tail, rest) => (⟨c :: tail.value, tail.escaped⟩, rest)
termination_by text.length
decreasing_by
  · have := length_lt_of_readEscape ‹_›
    simp only [List.length_cons]
    omega
  · exact Nat.lt_succ_self _

def skipString (text : Text) : Except ReadError Text :=
  match text with
  | [] => .error .cutShort
  | c :: rest =>
      if c = '"' then .ok rest
      else if c = '\\' then
        match _h : skipEscape rest with
        | .error error => .error error
        | .ok rest => skipString rest
      else if c.toNat < 0x20 then .error .malformed
      else skipString rest
termination_by text.length
decreasing_by
  · have := length_lt_of_skipEscape ‹_›
    simp only [List.length_cons]
    omega
  · exact Nat.lt_succ_self _

theorem length_lt_of_readString {text rest : Text} {value : StringValue}
    (h : readString text = .ok (value, rest)) : rest.length < text.length := by
  fun_induction readString text generalizing value rest with
  | case1 => cases h
  | case2 => cases h; exact Nat.lt_succ_self _
  | case3 => cases h
  | case4 tail meant behind hescape _ ih =>
      obtain ⟨⟨read, after⟩, hread, heq⟩ := map_eq_ok_iff.mp h
      cases heq
      have := length_lt_of_readEscape hescape
      have := ih hread
      simp only [List.length_cons]
      omega
  | case5 => cases h
  | case6 c tail _ _ _ ih =>
      obtain ⟨⟨read, after⟩, hread, heq⟩ := map_eq_ok_iff.mp h
      cases heq
      exact Nat.lt_succ_of_lt (ih hread)

theorem length_lt_of_skipString {text rest : Text}
    (h : skipString text = .ok rest) : rest.length < text.length := by
  fun_induction skipString text generalizing rest with
  | case1 => cases h
  | case2 => cases h; exact Nat.lt_succ_self _
  | case3 => cases h
  | case4 tail behind hescape _ ih =>
      have := length_lt_of_skipEscape hescape
      have := ih h
      simp only [List.length_cons]
      omega
  | case5 => cases h
  | case6 c tail _ _ _ ih => exact Nat.lt_succ_of_lt (ih h)

end Json

end TemplateLexer
