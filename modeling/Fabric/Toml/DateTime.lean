import Fabric.Numeral

/-!
# Dates and times of TOML

A date, a time, or both, and with both perhaps an offset. Each field has a fixed number of
digits and a range; the day has to exist in its month. A second may be 60. Fractions of a
second are cut off after nine digits.

The canonical text writes `T` between date and time and `Z` for the offset so spelled, and
drops zeros at the end of a fraction.
-/

namespace Fabric.Toml

/-- A calendar day. -/
structure Date where
  year : Nat
  month : Nat
  day : Nat
  deriving DecidableEq, Repr

/-- A time of day, to the nanosecond. -/
structure Time where
  hour : Nat
  minute : Nat
  second : Nat
  nanosecond : Nat := 0
  deriving DecidableEq, Repr

/-- The distance from universal time. -/
inductive Offset where
  | zulu
  | minutes (n : Int)
  deriving DecidableEq, Repr

/-- A date, a time, or both. -/
structure DateTime where
  date : Option Date := none
  time : Option Time := none
  offset : Option Offset := none
  deriving DecidableEq, Repr

/-! ### Canonical text -/

/-- A number with zeros in front up to a width. -/
def padded (width n : Nat) : String :=
  let digits := Nat.toDigits 10 n
  String.ofList (List.replicate (width - digits.length) '0' ++ digits)

/-- The text of a fraction of a second, without zeros at its end. -/
def Time.fractionText (nanosecond : Nat) : String :=
  if nanosecond = 0 then ""
  else "." ++ String.ofList ((padded 9 nanosecond).toList.reverse.dropWhile (· == '0')).reverse

/-- The text of a date. -/
def Date.text (d : Date) : String := s!"{padded 4 d.year}-{padded 2 d.month}-{padded 2 d.day}"

/-- The text of a time. -/
def Time.text (t : Time) : String :=
  s!"{padded 2 t.hour}:{padded 2 t.minute}:{padded 2 t.second}{Time.fractionText t.nanosecond}"

/-- The text of an offset. -/
def Offset.text : Offset → String
  | .zulu => "Z"
  | .minutes n =>
    let sign := if n < 0 then "-" else "+"
    s!"{sign}{padded 2 (n.natAbs / 60)}:{padded 2 (n.natAbs % 60)}"

namespace DateTime

/-- The canonical text. -/
def text (d : DateTime) : String :=
  let date := (d.date.map Date.text).getD ""
  let mark := if d.date.isSome ∧ d.time.isSome then "T" else ""
  date ++ mark ++ (d.time.map Time.text).getD "" ++ (d.offset.map Offset.text).getD ""

/-! ### Reading -/

/-- A number of exactly `width` digits at the front of a text, and the rest. -/
def fixed? (width : Nat) (cs : List Char) : Option (Nat × List Char) :=
  let digits := cs.take width
  if digits.length = width then (Numeral.digits? 10 digits).map fun n => (n, cs.drop width)
  else none

/-- A number of two digits, at most `limit`. -/
def two? (limit : Nat) (cs : List Char) : Option (Nat × List Char) :=
  (fixed? 2 cs).filter (·.1 ≤ limit)

/-- Skips a character that has to be there. -/
def skip? (c : Char) : List Char → Option (List Char)
  | d :: rest => if c = d then some rest else none
  | [] => none

/-- The number of days of a month. -/
def daysIn (year month : Nat) : Nat :=
  let leap := year % 4 = 0 ∧ (year % 100 ≠ 0 ∨ year % 400 = 0)
  if month = 2 then if leap then 29 else 28
  else if month = 4 ∨ month = 6 ∨ month = 9 ∨ month = 11 then 30
  else 31

/-- Whether a text starts as a date does: four digits and a hyphen. -/
def startsDate (cs : List Char) : Bool :=
  ((fixed? 4 cs).bind fun (_, rest) => skip? '-' rest).isSome

/-- Whether a text starts as a time does: an hour and a colon. -/
def startsTime (cs : List Char) : Bool :=
  ((two? 23 cs).bind fun (_, rest) => skip? ':' rest).isSome

/-- A date at the front of a text. -/
def date? (cs : List Char) : Option (Date × List Char) := do
  let (year, cs) ← fixed? 4 cs
  let cs ← skip? '-' cs
  let (month, cs) ← two? 12 cs
  let cs ← skip? '-' cs
  let (day, cs) ← two? 31 cs
  if 1 ≤ month ∧ 1 ≤ day ∧ day ≤ daysIn year month then some (⟨year, month, day⟩, cs) else none

/-- A fraction of a second at the front of a text, in nanoseconds, if there is a point. -/
def fraction? : List Char → Option (Nat × List Char)
  | '.' :: rest => do
    let digits := rest.takeWhile Char.isDigit
    let kept := digits.take 9
    let n ← Numeral.digits? 10 kept
    return (n * Nat.pow 10 (9 - kept.length), rest.drop digits.length)
  | cs => some (0, cs)

/-- A time at the front of a text. -/
def time? (cs : List Char) : Option (Time × List Char) := do
  let (hour, cs) ← two? 23 cs
  let cs ← skip? ':' cs
  let (minute, cs) ← two? 59 cs
  let cs ← skip? ':' cs
  let (second, cs) ← two? 60 cs
  let (nanosecond, cs) ← fraction? cs
  return (⟨hour, minute, second, nanosecond⟩, cs)

/-- An offset at the front of a text, if there is one. -/
def offset? : List Char → Option (Option Offset × List Char)
  | c :: rest =>
    if c = 'Z' ∨ c = 'z' then some (some .zulu, rest)
    else if c = '+' ∨ c = '-' then do
      let (hours, rest) ← two? 23 rest
      let rest ← skip? ':' rest
      let (minutes, rest) ← two? 59 rest
      let n : Int := hours * 60 + minutes
      return (some (.minutes (if c = '-' then -n else n)), rest)
    else some (none, c :: rest)
  | [] => some (none, [])

/-- A date or time at the front of a text that starts as one does, and the rest. -/
def scan? (cs : List Char) : Option (DateTime × List Char) := do
  if startsDate cs then
    let (date, rest) ← date? cs
    match rest with
    | c :: more =>
      if (c = 'T' ∨ c = 't' ∨ c = ' ') ∧ startsTime more then
        let (time, rest) ← time? more
        let (offset, rest) ← offset? rest
        return (⟨date, time, offset⟩, rest)
      else return (⟨date, none, none⟩, rest)
    | [] => return (⟨date, none, none⟩, [])
  else
    let (time, rest) ← time? cs
    return (⟨none, time, none⟩, rest)

end DateTime

end Fabric.Toml
