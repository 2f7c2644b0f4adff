import TemplateLexer.Text

/-!
# Trimming a run of one character from both ends

The part that is kept lies between two offsets: where the first other
character begins and where the last one ends.  The standard mode looks at
every character for both.  The legacy mode never takes the first character of
the text as the last one to keep and falls back to the ends of the text, so a
text in which at most the first character differs is kept whole.
-/

namespace TemplateLexer

inductive TrimMode where
  | standard
  | legacy
  deriving DecidableEq, Repr

namespace Text

def firstOther? (ch : Char) (text : Text) : Option Nat :=
  (text.charIndices.find? fun (_, c) => c ≠ ch).map fun (offset, _) => offset

def lastOther? (ch : Char) (text : Text) : Option Nat :=
  (text.charIndices.reverse.find? fun (_, c) => c ≠ ch).map fun (offset, c) =>
    offset + c.utf8Size

/--
The offset at which the last character other than `ch` ends, among the
characters after the first.
-/
def lastOtherAfterFirst? (ch : Char) (text : Text) : Option Nat :=
  ((text.charIndices.reverse.takeWhile fun (offset, _) => offset ≠ 0).find?
    fun (_, c) => c ≠ ch).map fun (offset, c) => offset + c.utf8Size

/--
The text without the runs of `ch` at its two ends, as `mode` finds them.  Both
offsets are places to cut, the first not behind the second, so no slice falls
back to the empty text.
-/
def trim (mode : TrimMode) (ch : Char) (text : Text) : Text :=
  match mode with
  | .standard =>
      match firstOther? ch text, lastOther? ch text with
      | some first, some last => (text.slice? first last).getD []
      | _, _ => []
  | .legacy =>
      let first := (firstOther? ch text).getD 0
      let last := (lastOtherAfterFirst? ch text).getD text.byteLength
      (text.slice? first last).getD []

end Text

end TemplateLexer
