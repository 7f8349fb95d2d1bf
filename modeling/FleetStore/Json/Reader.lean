import FleetStore.Json.Basic
import FleetStore.Text.Integer

/-! # Reading documents

The reader takes the JSON grammar as it stands: no comments, no trailing
commas. A number without point and exponent that fits into 64 bits is an
integer, every other number a double. Of two members with one name the later
stays, and nesting deeper than the limit is refused.
-/

namespace FleetStore.Json

/-- The deepest nesting of arrays and objects. -/
def depthLimit : Nat := 127

def isSpace (c : Char) : Bool :=
  c == ' ' || c == '\t' || c == '\n' || c == '\r'

def skipSpace (cs : List Char) : List Char :=
  cs.dropWhile isSpace

/-! ## Numbers -/

/-- The digits of a number, gathered into 64 bits. -/
structure Digits where
  significand : Nat
  exponent : Int
  /-- Whether a digit was dropped because the significand was full. -/
  full : Bool

/-- Takes up digits before the point: one that does not fit counts as a power of
ten, and so do all digits after it. -/
def Digits.whole (d : Digits) (c : Char) : Digits :=
  let next := 10 * d.significand + (c.toNat - '0'.toNat)
  if d.full || next ≥ twoTo 64 then { d with exponent := d.exponent + 1, full := true }
  else { d with significand := next }

/-- Takes up digits after the point: one that does not fit is dropped, and so are
all digits after it. A digit that fits is taken up even if one before the point was
not, so reading goes on behind the point with a significand that counts as free. -/
def Digits.fraction (d : Digits) (c : Char) : Digits :=
  let next := 10 * d.significand + (c.toNat - '0'.toNat)
  if d.full || next ≥ twoTo 64 then { d with full := true }
  else { d with significand := next, exponent := d.exponent - 1 }

/-- The double of a significand and a power of ten. The significand is rounded
first and then multiplied or divided by the power, in steps of 10³⁰⁸ where the
power is greater; `none` stands for a number that is too large. -/
def scale? (negative : Bool) (significand : Nat) (exponent : Int) : Option FiniteDouble :=
  let divide (x : FiniteDouble) (power : Nat) : Double :=
    .ofUnits negative (x.magnitude * twoTo 1074)
      (match Double.ofInt (tenTo power) with | .finite p => p.magnitude | _ => 1)
  let finite? : Double → Option FiniteDouble
    | .finite x => some x
    | _ => none
  match Double.ofInt significand with
  | .finite start =>
      if start.significand = 0 then some (.zero negative)
      else if 308 < exponent then none
      else if 0 ≤ exponent then
        match Double.ofInt (tenTo exponent.toNat) with
        | .finite p => finite? (.ofUnits negative (start.magnitude * p.magnitude) (twoTo 1074))
        | _ => none
      else
        let power := (-exponent).toNat
        if power ≤ 308 then finite? (divide start power)
        else if power ≤ 616 then
          match divide start 308 with
          | .finite x => finite? (divide x (power - 308))
          | _ => none
        else some (.zero negative)
  | _ => none

/-- The exponent of a number and what follows it. -/
def readExponent? : List Char → Option (Int × List Char)
  | c :: rest =>
      if c = 'e' ∨ c = 'E' then
        let (negative, rest) :=
          match rest with
          | '+' :: tail => (false, tail)
          | '-' :: tail => (true, tail)
          | tail => (false, tail)
        (Text.readNat? (rest.takeWhile Char.isDigit)).map fun n =>
          (if negative then -(n : Int) else n, rest.dropWhile Char.isDigit)
      else some (0, c :: rest)
  | [] => some (0, [])

def readNumber? (negative : Bool) (cs : List Char) : Option (Json × List Char) :=
  let whole := cs.takeWhile Char.isDigit
  let rest := cs.dropWhile Char.isDigit
  if whole.isEmpty || (whole.head? == some '0' && 1 < whole.length) then none
  else
    let digits := whole.foldl Digits.whole ⟨0, 0, false⟩
    let value := Text.valueOfDigits 0 whole
    let float (digits : Digits) (rest : List Char) : Option (Json × List Char) := do
      let (exponent, rest) ← readExponent? rest
      let x ← scale? negative digits.significand (digits.exponent + exponent)
      return (.float x, rest)
    match rest with
    | '.' :: tail =>
        let fraction := tail.takeWhile Char.isDigit
        if fraction.isEmpty then none
        else
          float (fraction.foldl Digits.fraction { digits with full := false })
            (tail.dropWhile Char.isDigit)
    | 'e' :: _ | 'E' :: _ => float digits rest
    | rest =>
        if negative then
          if value = 0 then some (.float (.zero true), rest)
          else if value ≤ twoTo 63 then some (.int (-(value : Int)), rest)
          else float digits rest
        else if digits.full then float digits rest
        else some (.int value, rest)

/-! ## Strings -/

def hexValue? (c : Char) : Option Nat :=
  if '0' ≤ c ∧ c ≤ '9' then some (c.toNat - '0'.toNat)
  else if 'a' ≤ c ∧ c ≤ 'f' then some (c.toNat - 'a'.toNat + 10)
  else if 'A' ≤ c ∧ c ≤ 'F' then some (c.toNat - 'A'.toNat + 10)
  else none

/-- Four digits of an escape. -/
def hexUnit? (a b c d : Char) : Option Nat := do
  return 4096 * (← hexValue? a) + 256 * (← hexValue? b) + 16 * (← hexValue? c) + (← hexValue? d)

/-- The character of a one-letter escape. -/
def escaped? : Char → Option Char
  | '"' => some '"'
  | '\\' => some '\\'
  | '/' => some '/'
  | 'b' => some (Char.ofNat 8)
  | 'f' => some (Char.ofNat 12)
  | 'n' => some '\n'
  | 'r' => some '\r'
  | 't' => some '\t'
  | _ => none

/-- A string after its opening quotation mark; `seen` holds the characters read so
far, the last one first. A character beyond U+FFFF is escaped as two units. -/
def readString? (seen : List Char) : List Char → Option (String × List Char)
  | '"' :: rest => some (String.ofList seen.reverse, rest)
  | '\\' :: 'u' :: a :: b :: c :: d :: rest =>
      match hexUnit? a b c d with
      | none => none
      | some unit =>
          if 0xD800 ≤ unit ∧ unit < 0xDC00 then
            match rest with
            | '\\' :: 'u' :: a :: b :: c :: d :: rest =>
                match hexUnit? a b c d with
                | none => none
                | some low =>
                    if 0xDC00 ≤ low ∧ low < 0xE000 then
                      let code := 0x10000 + (unit - 0xD800) * 0x400 + (low - 0xDC00)
                      readString? (Char.ofNat code :: seen) rest
                    else none
            | _ => none
          else if 0xDC00 ≤ unit ∧ unit < 0xE000 then none
          else readString? (Char.ofNat unit :: seen) rest
  | '\\' :: c :: rest =>
      match escaped? c with
      | some c => readString? (c :: seen) rest
      | none => none
  | c :: rest => if c.toNat < 32 then none else readString? (c :: seen) rest
  | [] => none

/-! ## Documents -/

/-- What a reader still has to do: read a value, or go on with an array or an
object of which the first parts are known, the last one first. -/
inductive Frame where
  | items (seen : List Json)
  | members (seen : Dict Json) (name : String)

/-- A state of the reader: the open arrays and objects, the innermost first, and
whether a value is due or has just been completed. -/
inductive Due where
  | value
  | after (done : Json)

/-- The characters of a fixed word. -/
def dropWord? (word : List Char) (cs : List Char) : Option (List Char) :=
  if word.isPrefixOf cs then some (cs.drop word.length) else none

def readName? (cs : List Char) : Option (String × List Char) :=
  match skipSpace cs with
  | '"' :: rest =>
      match readString? [] rest with
      | some (name, rest) =>
          match skipSpace rest with
          | ':' :: rest => some (name, rest)
          | _ => none
      | none => none
  | _ => none

/-- Reads on until the outermost value is complete. Every step takes a character
at least or closes a value, so twice the length of the text are steps enough. -/
def readSteps : Nat → List Frame → Due → List Char → Option (Json × List Char)
  | 0, _, _, _ => none
  | steps + 1, frames, .value, cs =>
      match skipSpace cs with
      | '\x7b' :: rest =>
          if depthLimit ≤ frames.length then none
          else
            match skipSpace rest with
            | '\x7d' :: rest => readSteps steps frames (.after (.obj [])) rest
            | rest =>
                match readName? rest with
                | some (name, rest) => readSteps steps (.members ∅ name :: frames) .value rest
                | none => none
      | '[' :: rest =>
          if depthLimit ≤ frames.length then none
          else
            match skipSpace rest with
            | ']' :: rest => readSteps steps frames (.after (.arr [])) rest
            | rest => readSteps steps (.items [] :: frames) .value rest
      | '"' :: rest =>
          match readString? [] rest with
          | some (s, rest) => readSteps steps frames (.after (.str s)) rest
          | none => none
      | '-' :: rest =>
          match readNumber? true rest with
          | some (n, rest) => readSteps steps frames (.after n) rest
          | none => none
      | 't' :: rest =>
          match dropWord? ['r', 'u', 'e'] rest with
          | some rest => readSteps steps frames (.after (.bool true)) rest
          | none => none
      | 'f' :: rest =>
          match dropWord? ['a', 'l', 's', 'e'] rest with
          | some rest => readSteps steps frames (.after (.bool false)) rest
          | none => none
      | 'n' :: rest =>
          match dropWord? ['u', 'l', 'l'] rest with
          | some rest => readSteps steps frames (.after .null) rest
          | none => none
      | rest =>
          match readNumber? false rest with
          | some (n, rest) => readSteps steps frames (.after n) rest
          | none => none
  | _ + 1, [], .after done, cs => some (done, cs)
  | steps + 1, .items seen :: frames, .after done, cs =>
      match skipSpace cs with
      | ',' :: rest => readSteps steps (.items (done :: seen) :: frames) .value rest
      | ']' :: rest => readSteps steps frames (.after (.arr (done :: seen).reverse)) rest
      | _ => none
  | steps + 1, .members seen name :: frames, .after done, cs =>
      match skipSpace cs with
      | ',' :: rest =>
          match readName? rest with
          | some (next, rest) =>
              readSteps steps (.members (seen.insert name done) next :: frames) .value rest
          | none => none
      | '\x7d' :: rest => readSteps steps frames (.after (.ofDict (seen.insert name done))) rest
      | _ => none

/-- Reads the document that makes up the whole of a text. -/
def read? (text : String) : Option Json :=
  let cs := text.toList
  match readSteps (2 * cs.length + 2) [] .value cs with
  | some (done, rest) => if (skipSpace rest).isEmpty then some done else none
  | none => none

end FleetStore.Json
