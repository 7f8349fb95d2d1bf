import FleetStore.Number.Reader
import FleetStore.Value.Basic

/-! # Bare literals

A word that stands for a value by itself: `true`, `false`, a 32-bit integer, a
64-bit integer followed by `L`, or a finite double written with a point. The
readings are tried in this order, and a number out of range is no literal.
-/

namespace FleetStore.Descriptor

/-- The part of a word before a final `L`. -/
def beforeL? (cs : List Char) : Option (List Char) :=
  if cs.getLast? = some 'L' then some cs.dropLast else none

def readFinite? (word : String) : Option Value :=
  (Double.read? word).bind fun x => if x.isFinite then some (.double x) else none

/-- The value that a bare word stands for. -/
def literal? (word : String) : Option Value :=
  if word = "true" then some (.boolean true)
  else if word = "false" then some (.boolean false)
  else
    match beforeL? word.toList with
    | some digits => ((Text.readInt? digits).bind Text.int64?).map .long
    | none =>
        match (Text.readInt? word.toList).bind Text.int32? with
        | some n => some (.int n)
        | none => if word.toList.contains '.' then readFinite? word else none

end FleetStore.Descriptor
