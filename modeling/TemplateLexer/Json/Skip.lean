import TemplateLexer.Json.Number

/-!
# Skipping values

A value that nothing is known about is passed over without being read: its
form is checked, but neither the size of numbers nor the surrogates in its
strings.  The enclosing arrays and objects are kept in a list, so values may
be nested to any depth.
-/

namespace TemplateLexer

namespace Json

inductive Enclosure where
  | array
  | object
  deriving DecidableEq, Repr

def Enclosure.closer : Enclosure → Char
  | array => ']'
  | object => '}'

/-- Where skipping stands: in front of a further value within enclosures, or behind the last. -/
inductive SkipState where
  | before (enclosing : List Enclosure) (rest : Text)
  | finished (rest : Text)
  deriving DecidableEq, Repr

def SkipState.rest : SkipState → Text
  | before _ rest => rest
  | finished rest => rest

def skipScalar : Text → Except ReadError Text
  | [] => .error .cutShort
  | c :: rest =>
      if c = 'n' then skipWord "ull".toList rest
      else if c = 't' then skipWord "rue".toList rest
      else if c = 'f' then skipWord "alse".toList rest
      else if c = '"' then skipString rest
      else if c = '-' then skipNumeral rest
      else if c.isDigit then skipNumeral (c :: rest)
      else .error .malformed

def skipKey (enclosure : Enclosure) (text : Text) : Except ReadError Text :=
  match enclosure with
  | .array => .ok text
  | .object => do skipMark ':' (← skipString (← skipMark '"' text))

def skipEnd : List Enclosure → Text → Except ReadError SkipState
  | [], text => .ok (.finished text)
  | enclosure :: outer, text =>
      match skipBlank text with
      | [] => .error .cutShort
      | c :: rest =>
          if c = ',' then
            (skipKey enclosure rest).map (.before (enclosure :: outer))
          else if c = enclosure.closer then skipEnd outer rest
          else .error .malformed

/--
Passes over what stands behind an opening bracket up to the first value, or,
if there is none, past the closing bracket and on as `skipEnd` does.
-/
def skipOpening (enclosure : Enclosure) (enclosing : List Enclosure) (text : Text) :
    Except ReadError SkipState :=
  match skipBlank text with
  | [] => .error .cutShort
  | c :: rest =>
      if c = enclosure.closer then skipEnd enclosing rest
      else (skipKey enclosure (c :: rest)).map (.before (enclosure :: enclosing))

def skipStep (enclosing : List Enclosure) (text : Text) : Except ReadError SkipState :=
  match skipBlank text with
  | [] => .error .cutShort
  | c :: rest =>
      if c = '[' then skipOpening .array enclosing rest
      else if c = '{' then skipOpening .object enclosing rest
      else do skipEnd enclosing (← skipScalar (c :: rest))

theorem length_lt_of_skipScalar {text rest : Text}
    (h : skipScalar text = .ok rest) : rest.length < text.length := by
  unfold skipScalar at h
  split at h
  · cases h
  · next c tail =>
      repeat' split at h
      · exact Nat.lt_succ_of_le (length_le_of_skipWord h)
      · exact Nat.lt_succ_of_le (length_le_of_skipWord h)
      · exact Nat.lt_succ_of_le (length_le_of_skipWord h)
      · exact Nat.lt_succ_of_lt (length_lt_of_skipString h)
      · exact Nat.lt_succ_of_lt (length_lt_of_skipNumeral h)
      · exact length_lt_of_skipNumeral h
      · cases h

theorem length_le_of_skipKey {enclosure : Enclosure} {text rest : Text}
    (h : skipKey enclosure text = .ok rest) : rest.length ≤ text.length := by
  cases enclosure with
  | array => cases h; exact Nat.le_refl _
  | object =>
      obtain ⟨opened, hopened, h⟩ := bind_eq_ok_iff.mp h
      obtain ⟨behind, hstring, h⟩ := bind_eq_ok_iff.mp h
      have := length_lt_of_skipMark hopened
      have := length_lt_of_skipString hstring
      have := length_lt_of_skipMark h
      omega

theorem length_le_of_skipEnd {enclosing : List Enclosure} {text : Text} {state : SkipState}
    (h : skipEnd enclosing text = .ok state) : state.rest.length ≤ text.length := by
  induction enclosing generalizing text with
  | nil => cases h; exact Nat.le_refl _
  | cons enclosure outer ih =>
      unfold skipEnd at h
      split at h
      · cases h
      · next c tail hblank =>
          have := length_lt_of_skipBlank hblank
          split at h
          · obtain ⟨behind, hkey, rfl⟩ := map_eq_ok_iff.mp h
            have := length_le_of_skipKey hkey
            simp only [SkipState.rest]
            omega
          · split at h
            · have := ih h
              omega
            · cases h

theorem length_le_of_skipOpening {enclosure : Enclosure} {enclosing : List Enclosure}
    {text : Text} {state : SkipState}
    (h : skipOpening enclosure enclosing text = .ok state) :
    state.rest.length ≤ text.length := by
  unfold skipOpening at h
  split at h
  · cases h
  · next c tail hblank =>
      have := length_lt_of_skipBlank hblank
      split at h
      · have := length_le_of_skipEnd h
        omega
      · obtain ⟨behind, hkey, rfl⟩ := map_eq_ok_iff.mp h
        have := length_le_of_skipKey hkey
        simp only [SkipState.rest, List.length_cons] at *
        omega

theorem length_lt_of_skipStep {enclosing : List Enclosure} {text : Text} {state : SkipState}
    (h : skipStep enclosing text = .ok state) : state.rest.length < text.length := by
  unfold skipStep at h
  split at h
  · cases h
  · next c tail hblank =>
      have hlt := length_lt_of_skipBlank hblank
      have hle := length_skipBlank_le text
      rw [hblank] at hle
      split at h
      · have := length_le_of_skipOpening h
        omega
      · split at h
        · have := length_le_of_skipOpening h
          omega
        · obtain ⟨behind, hscalar, h⟩ := bind_eq_ok_iff.mp h
          have := length_lt_of_skipScalar hscalar
          have := length_le_of_skipEnd h
          omega

/-- The rest after a value and, if it stands within enclosures, after the outermost of these. -/
def skipFrom (enclosing : List Enclosure) (text : Text) : Except ReadError Text :=
  match _h : skipStep enclosing text with
  | .error error => .error error
  | .ok (.finished rest) => .ok rest
  | .ok (.before enclosing rest) => skipFrom enclosing rest
termination_by text.length
decreasing_by exact length_lt_of_skipStep ‹_›

def skipValue (text : Text) : Except ReadError Text :=
  skipFrom [] text

theorem length_lt_of_skipFrom {enclosing : List Enclosure} {text rest : Text}
    (h : skipFrom enclosing text = .ok rest) : rest.length < text.length := by
  fun_induction skipFrom enclosing text generalizing rest with
  | case1 => cases h
  | case2 enclosing text behind hstep =>
      cases h
      exact length_lt_of_skipStep hstep
  | case3 enclosing text inner behind hstep ih =>
      exact Nat.lt_trans (ih h) (length_lt_of_skipStep hstep)

end Json

end TemplateLexer
