import FleetStore.Number.Rounding
import FleetStore.Text.Integer

/-! # Reading doubles

A double is written as an optional sign, digits with an optional point among
or beside them, and an optional exponent; or as `inf`, `infinity` or `nan` in
any case. At least one digit is needed, before or after the point. The value
is the double nearest to the number written.
-/

namespace FleetStore.Double

/-- An exponent: nothing, or `e` in either case and an integer. -/
def readExponent? : List Char → Option Int
  | [] => some 0
  | c :: rest => if c.toLower = 'e' then Text.readInt? rest else none

/-- An unsigned number: digits, a point and digits, and an exponent. -/
def readUnsigned? (negative : Bool) (cs : List Char) : Option Double :=
  let whole := cs.takeWhile Char.isDigit
  let afterWhole := cs.dropWhile Char.isDigit
  let (fraction, rest) :=
    match afterWhole with
    | '.' :: tail => (tail.takeWhile Char.isDigit, tail.dropWhile Char.isDigit)
    | tail => ([], tail)
  if whole.isEmpty && fraction.isEmpty then none
  else
    (readExponent? rest).map fun exponent =>
      ofDecimal negative (Text.valueOfDigits 0 (whole ++ fraction)) (exponent - fraction.length)

/-- The words for numbers that have no digits. -/
def readName? (negative : Bool) (cs : List Char) : Option Double :=
  match String.ofList (cs.map Char.toLower) with
  | "inf" | "infinity" => some (.infinite negative)
  | "nan" => some .nan
  | _ => none

def readMagnitude? (negative : Bool) (cs : List Char) : Option Double :=
  (readName? negative cs).or (readUnsigned? negative cs)

def read? (text : String) : Option Double :=
  match text.toList with
  | '-' :: rest => readMagnitude? true rest
  | '+' :: rest => readMagnitude? false rest
  | rest => readMagnitude? false rest

end FleetStore.Double
