import FleetStore.Number.Power
import FleetStore.Duration.Basic
import FleetStore.Text.Blank

/-! # Reading durations

A written duration is a list of items such as `1h`, `30 min` or `1.5s`, with or
without blanks between them; blanks may also stand among the digits of a
number. Every intermediate number has to fit into 64 bits and every fraction
has to come out exactly. A fault tells the byte of the text at which it was
found.
-/

namespace FleetStore

/-- Why a text is no duration. -/
inductive DurationFault where
  | empty
  /-- Nothing but blanks where blanks around a duration are allowed. -/
  | blank
  | expectedNumber (offset : Nat)
  | invalidCharacter (offset : Nat)
  | missingUnit (number : Nat)
  | unknownUnit (word : String)
  /-- A number leaves 64 bits or a fraction does not come out. -/
  | inexact
  /-- The seconds leave 64 bits because exactly one second is carried. -/
  | exhausted
deriving DecidableEq, Repr

def DurationFault.message : DurationFault → String
  | .empty => "value was empty"
  | .blank => "duration string is empty"
  | .expectedNumber offset => s!"expected number at {offset}"
  | .invalidCharacter offset => s!"invalid character at {offset}"
  | .missingUnit number => s!"time unit needed, for example {number}sec or {number}ms"
  | .unknownUnit word =>
      s!"unknown time unit \"{word}\", supported units: ns, us/µs, ms, sec, min, hours, days, "
        ++ "weeks, months, years (and few variations)"
  | .inexact =>
      "number is too large or cannot be represented without a lack of precision "
        ++ "(values below 1ns are not supported)"
  | .exhausted => "the seconds of a duration are exhausted"

namespace Duration

def checked (n : Nat) : Except DurationFault Nat :=
  if n < twoTo 64 then .ok n else .error .inexact

/-- A quotient that has to come out. -/
def exactly (n d : Nat) : Except DurationFault Nat :=
  if n % d = 0 then .ok (n / d) else .error .inexact

def add (d : Duration) (seconds nanos : Nat) : Except DurationFault Duration := do
  let below ← checked (d.subsecond + nanos)
  let sum : Duration := ⟨d.nanoseconds + seconds * nanosPerSecond + nanos⟩
  if sum.seconds < twoTo 64 then .ok sum
  else if below = nanosPerSecond ∧ d.seconds + seconds < twoTo 64 then .error .exhausted
  else .error .inexact

/-- The digits after a point as a fraction. -/
structure Fraction where
  numerator : Nat
  denominator : Nat

def addWhole (d : Duration) (unit : TimeUnit) (n : Nat) : Except DurationFault Duration := do
  if unit.nanoseconds < nanosPerSecond then
    d.add 0 (← checked (n * unit.nanoseconds))
  else
    d.add (← checked (n * (unit.nanoseconds / nanosPerSecond))) 0

/-- Adds a fraction of a unit to a duration: a fraction of an hour and of all larger
units has to come out in seconds, one of a smaller unit in nanoseconds. -/
def addFraction (d : Duration) (unit : TimeUnit) (f : Fraction) :
    Except DurationFault Duration := do
  if unit = .nanosecond then .error .inexact
  else if unit.nanoseconds ≤ TimeUnit.minute.nanoseconds then
    d.add 0 (← exactly (← checked (f.numerator * unit.nanoseconds)) f.denominator)
  else
    d.add (← exactly (← checked (f.numerator * (unit.nanoseconds / nanosPerSecond)))
      f.denominator) 0

/-- Adds an item, given by its number and the word of its unit. -/
def addItem (d : Duration) (n : Nat) (f : Option Fraction) (word : String) :
    Except DurationFault Duration :=
  match TimeUnit.ofWord? word with
  | none => .error (if word.isEmpty then .missingUnit n else .unknownUnit word)
  | some unit => do
      let d ← d.addWhole unit n
      match f with
      | none => return d
      | some f => d.addFraction unit f

/-- The characters of which the words for units are made. -/
def isUnitLetter (c : Char) : Bool :=
  c.isAlpha || c == 'µ'

def digit (c : Char) : Nat :=
  c.toNat - '0'.toNat

/-- Reads the digits after a point. The offset is that of the point until something
follows it, and then that of the next character. -/
def readFraction (f : Fraction) (offset position : Nat) :
    List Char → Except DurationFault (Fraction × Nat × List Char)
  | c :: rest =>
      if c.isDigit then do
        let denominator ← checked (f.denominator * 10)
        let numerator ← checked (f.numerator * 10 + digit c)
        readFraction ⟨numerator, denominator⟩ (position + 1) (position + 1) rest
      else if Text.isBlank c then
        readFraction f (position + c.utf8Size) (position + c.utf8Size) rest
      else if isUnitLetter c then
        if f.denominator = 1 then .error (.invalidCharacter offset)
        else .ok (f, position, c :: rest)
      else .error (.invalidCharacter offset)
  | [] =>
      if f.denominator = 1 then .error (.invalidCharacter offset) else .ok (f, position, [])

/-- Reads on in a number up to the first letter of its unit. -/
def readNumber (n position : Nat) :
    List Char → Except DurationFault (Nat × Option Fraction × Nat × List Char)
  | c :: rest =>
      if c.isDigit then do
        readNumber (← checked ((← checked (n * 10)) + digit c)) (position + 1) rest
      else if Text.isBlank c then readNumber n (position + c.utf8Size) rest
      else if isUnitLetter c then .ok (n, none, position, c :: rest)
      else if c = '.' then do
        let (f, position, rest) ← readFraction ⟨0, 1⟩ position (position + 1) rest
        return (n, some f, position, rest)
      else .error (.invalidCharacter position)
  | [] => .ok (n, none, position, [])

/-- Looks for the first digit of the next item. A fault is put where the search
began. -/
def readStart (offset position : Nat) :
    List Char → Except DurationFault (Option (Nat × Nat × List Char))
  | c :: rest =>
      if c.isDigit then .ok (some (digit c, position + 1, rest))
      else if Text.isBlank c then readStart offset (position + c.utf8Size) rest
      else .error (.expectedNumber offset)
  | [] => .ok none

/-- Reads the items of which the first number begins with the digit `n`. Every item
takes up a digit, so that `fuel` need not exceed the number of characters. -/
def readItems (d : Duration) : Nat → Nat → Nat → List Char → Except DurationFault Duration
  | 0, _, _, _ => .ok d
  | fuel + 1, n, position, cs => do
      let (n, f, position, rest) ← readNumber n position cs
      let word := rest.takeWhile isUnitLetter
      let position := position + Text.byteLength word
      match rest.dropWhile isUnitLetter with
      | [] => d.addItem n f (String.ofList word)
      | c :: rest =>
          if c.isDigit then do
            let d ← d.addItem n f (String.ofList word)
            readItems d fuel (digit c) (position + 1) rest
          else if Text.isBlank c then do
            let d ← d.addItem n f (String.ofList word)
            let position := position + c.utf8Size
            match ← readStart position position rest with
            | none => return d
            | some (n, position, rest) => readItems d fuel n position rest
          else .error (.invalidCharacter position)

def read (text : String) : Except DurationFault Duration :=
  if text = "0" then .ok zero
  else do
    match ← readStart 0 0 text.toList with
    | none => .error .empty
    | some (n, position, rest) => readItems zero (text.length + 1) n position rest

def readTrimmed (text : String) : Except DurationFault Duration :=
  let text := Text.trim text
  if text.isEmpty then .error .blank else read text

end Duration

end FleetStore
