import TemplateLexer.Text

/-!
# Searching a text for markers

Two searches.  `offsetOf?` finds one marker.  `offsetOfAny?` finds the
earliest of several: the least offset decides, and among the markers at that
offset the one listed first.

A marker can begin only where its first byte stands, and no byte inside a
character is the first byte of a marker.  So the search for several visits
characters only, and as long as few distinct first bytes are sought it
compares the first byte of each character with them before it compares
markers.
-/

namespace TemplateLexer

namespace Text

def leadByte (c : Char) : UInt8 :=
  (String.utf8EncodeChar c).headD 0

def leadBytes (markers : List Text) : List UInt8 :=
  (markers.filterMap fun marker => marker.head?.map leadByte).eraseDups

/-- The first-listed marker that the text begins with.  The empty marker is none. -/
def markerAt? (markers : List Text) (text : Text) : Option Text :=
  markers.find? fun marker => !marker.isEmpty && marker.isPrefixOf text

def scanFrom (candidate : Char → Bool) (markers : List Text) (offset : Nat) :
    Text → Option (Nat × Text)
  | [] => none
  | c :: rest =>
      match if candidate c then markerAt? markers (c :: rest) else none with
      | some marker => some (offset, marker)
      | none => scanFrom candidate markers (offset + c.utf8Size) rest

def maxLeadBytes : Nat := 3

/-- The least offset at which a marker stands, and the first-listed marker there. -/
def offsetOfAny? (markers : List Text) (text : Text) : Option (Nat × Text) :=
  match leadBytes markers with
  | [] => none
  | leads =>
      if leads.length ≤ maxLeadBytes then
        scanFrom (fun c => leads.contains (leadByte c)) markers 0 text
      else
        scanFrom (fun _ => true) markers 0 text

def offsetOfFrom? (marker : Text) (offset : Nat) : Text → Option Nat
  | [] => if marker.isEmpty then some offset else none
  | c :: rest =>
      if marker.isPrefixOf (c :: rest) then some offset
      else offsetOfFrom? marker (offset + c.utf8Size) rest

def offsetOf? (marker text : Text) : Option Nat :=
  offsetOfFrom? marker 0 text

end Text

end TemplateLexer
