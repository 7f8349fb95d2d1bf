import FleetStore.Duration.Basic

/-! # Writing durations

A duration is written as the amounts of its units from years down to
nanoseconds, leaving out weeks and every unit of which there is nothing.
-/

namespace FleetStore.Duration

/-- An amount of a unit that has no plural. -/
def amount (unit : String) (n : Nat) : List String :=
  if n = 0 then [] else [s!"{n}{unit}"]

/-- An amount of a unit that has a plural. -/
def amounts (unit : String) (n : Nat) : List String :=
  if n = 0 then [] else if n = 1 then [s!"{n}{unit}"] else [s!"{n}{unit}s"]

/-- The amounts that make up a duration, the largest unit first. -/
def parts (d : Duration) : List String :=
  let n := d.nanoseconds
  let year := TimeUnit.year.nanoseconds
  let month := TimeUnit.month.nanoseconds
  amounts "year" (n / year)
    ++ amounts "month" (n % year / month)
    ++ amounts "day" (n % year % month / TimeUnit.day.nanoseconds)
    ++ amount "h" (n % year % month % TimeUnit.day.nanoseconds / TimeUnit.hour.nanoseconds)
    ++ amount "m" (n % year % month % TimeUnit.hour.nanoseconds / TimeUnit.minute.nanoseconds)
    ++ amount "s" (n % year % month % TimeUnit.minute.nanoseconds / TimeUnit.second.nanoseconds)
    ++ amount "ms" (n % nanosPerSecond / TimeUnit.millisecond.nanoseconds)
    ++ amount "us"
      (n % TimeUnit.millisecond.nanoseconds / TimeUnit.microsecond.nanoseconds)
    ++ amount "ns" (n % TimeUnit.microsecond.nanoseconds)

def text (d : Duration) : String :=
  if d.isZero then "0s" else " ".intercalate d.parts

end FleetStore.Duration
