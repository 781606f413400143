import Patchbay.Document
import Patchbay.Number.Reading

set_option autoImplicit false

namespace Patchbay.Toml

structure Date where
  year : Nat
  month : Nat
  day : Nat

structure Clock where
  hour : Nat
  minute : Nat
  second : Nat
  nanosecond : Nat

inductive Zone where
  | universal
  | ahead (minutes : Int)

inductive Moment where
  | day (date : Date)
  | time (clock : Clock)
  | instant (date : Date) (clock : Clock) (zone : Option Zone)

def isLeap (year : Nat) : Bool := year % 4 == 0 && (year % 100 != 0 || year % 400 == 0)

def daysIn (year month : Nat) : Nat :=
  if month = 2 then (if isLeap year then 29 else 28)
  else if [4, 6, 9, 11].contains month then 30
  else 31

def readPart? (count low high : Nat) (cs : List Char) : Option (Nat × List Char) :=
  let digits := cs.take count
  let value := digitsValue digits
  if digits.length = count ∧ digits.all isDigit ∧ low ≤ value ∧ value ≤ high then some (value, cs.drop count)
  else none

def afterMark? (mark : Char) : List Char → Option (List Char)
  | c :: rest => if c = mark then some rest else none
  | [] => none

def readDate? (cs : List Char) : Option (Date × List Char) := do
  let (year, rest) ← readPart? 4 0 9999 cs
  let rest ← afterMark? '-' rest
  let (month, rest) ← readPart? 2 1 12 rest
  let rest ← afterMark? '-' rest
  let (day, rest) ← readPart? 2 1 (daysIn year month) rest
  some (⟨year, month, day⟩, rest)

/-- Nanoseconds in the digits after the point; those past the ninth are cut off. -/
def nanoseconds (digits : List Char) : Nat := digitsValue ((digits ++ List.replicate 9 '0').take 9)

def readFraction : List Char → Nat × List Char
  | '.' :: rest =>
    let digits := rest.takeWhile isDigit
    if digits.isEmpty then (0, '.' :: rest) else (nanoseconds digits, rest.dropWhile isDigit)
  | cs => (0, cs)

def readClock? (cs : List Char) : Option (Clock × List Char) := do
  let (hour, rest) ← readPart? 2 0 23 cs
  let rest ← afterMark? ':' rest
  let (minute, rest) ← readPart? 2 0 59 rest
  let rest ← afterMark? ':' rest
  let (second, rest) ← readPart? 2 0 60 rest
  let (nanosecond, rest) := readFraction rest
  some (⟨hour, minute, second, nanosecond⟩, rest)

def readShift? (cs : List Char) : Option (Nat × List Char) := do
  let (hours, rest) ← readPart? 2 0 23 cs
  let rest ← afterMark? ':' rest
  let (minutes, rest) ← readPart? 2 0 59 rest
  some (60 * hours + minutes, rest)

def readZone? : List Char → Option (Zone × List Char)
  | 'Z' :: rest | 'z' :: rest => some (.universal, rest)
  | '+' :: rest => (readShift? rest).map fun (minutes, rest) => (.ahead minutes, rest)
  | '-' :: rest => (readShift? rest).map fun (minutes, rest) => (.ahead (-(minutes : Int)), rest)
  | _ => none

def readClockAfter? : List Char → Option (Clock × List Char)
  | 'T' :: rest | 't' :: rest | ' ' :: rest => readClock? rest
  | _ => none

def readMoment? (cs : List Char) : Option (Moment × List Char) :=
  match readDate? cs with
  | none => (readClock? cs).map fun (clock, rest) => (.time clock, rest)
  | some (date, rest) =>
    match readClockAfter? rest with
    | none => some (.day date, rest)
    | some (clock, rest) =>
      match readZone? rest with
      | none => some (.instant date clock none, rest)
      | some (zone, rest) => some (.instant date clock (some zone), rest)

def padded (width n : Nat) : List Char :=
  let digits := Nat.toDigits 10 n
  List.replicate (width - digits.length) '0' ++ digits

def Date.text (date : Date) : List Char :=
  padded 4 date.year ++ '-' :: padded 2 date.month ++ '-' :: padded 2 date.day

def fractionText (nanosecond : Nat) : List Char :=
  if nanosecond = 0 then [] else '.' :: ((padded 9 nanosecond).reverse.dropWhile (· == '0')).reverse

def Clock.text (clock : Clock) : List Char :=
  padded 2 clock.hour ++ ':' :: padded 2 clock.minute ++ ':' :: padded 2 clock.second ++
    fractionText clock.nanosecond

def Zone.text : Zone → List Char
  | .universal => ['Z']
  | .ahead minutes =>
    (if minutes < 0 then '-' else '+') :: padded 2 (minutes.natAbs / 60) ++ ':' :: padded 2 (minutes.natAbs % 60)

namespace Moment

def text : Moment → List Char
  | .day date => date.text
  | .time clock => clock.text
  | .instant date clock none => date.text ++ 'T' :: clock.text
  | .instant date clock (some zone) => date.text ++ 'T' :: clock.text ++ zone.text

def documentKey : String := "$__toml_private_datetime"

def document (moment : Moment) : Document := .object [(documentKey, .string (String.ofList moment.text))]

end Moment

end Patchbay.Toml
