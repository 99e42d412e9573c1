import CallAdvice.Toml.Number

/-! Dates and times of documents. A date and a time are divided by the letter T or a blank; an
offset may follow the two of them. -/
set_option autoImplicit false

namespace CallAdvice.Toml

/-- Reads a number of exactly `n` decimal digits. -/
def fixedDigits (n : Nat) : Reader Nat := fun cs =>
  let ds := cs.take n
  if ds.length = n && ds.all isDigit then some (numberOf 10 ds, cs.drop n) else none

/-- Reads two decimal digits for a number between two bounds. -/
def twoDigits (low high : Nat) : Reader Nat := fun cs =>
  (fixedDigits 2 cs).bind fun (n, rest) => if low ≤ n && n ≤ high then some (n, rest) else none

/-- Whether a year has a 29th of February. -/
def isLeap (year : Nat) : Bool := year % 4 = 0 && (year % 100 != 0 || year % 400 = 0)

/-- The number of days of a month. -/
def daysIn (year month : Nat) : Nat :=
  if month = 2 then (if isLeap year then 29 else 28)
  else if month = 4 || month = 6 || month = 9 || month = 11 then 30
  else 31

/-- Reads a date. -/
def date : Reader Date := fun cs => do
  let (year, cs) ← fixedDigits 4 cs
  let cs ← expect? ['-'] cs
  let (month, cs) ← twoDigits 1 12 cs
  let cs ← expect? ['-'] cs
  let (day, cs) ← twoDigits 1 31 cs
  if day ≤ daysIn year month then some (⟨year, month, day⟩, cs) else none

/-- Reads the digits of a fraction of a second. -/
def secondFraction : List Char → List Char × List Char
  | '.' :: cs =>
    match cs.takeWhile isDigit with
    | [] => ([], '.' :: cs)
    | ds => (ds, cs.dropWhile isDigit)
  | cs => ([], cs)

/-- Reads a time of day. -/
def time : Reader Time := fun cs => do
  let (hour, cs) ← twoDigits 0 23 cs
  let cs ← expect? [':'] cs
  let (minute, cs) ← twoDigits 0 59 cs
  let cs ← expect? [':'] cs
  let (second, cs) ← twoDigits 0 60 cs
  let (fraction, cs) := secondFraction cs
  some (⟨hour, minute, second, fraction⟩, cs)

/-- Reads an offset from universal time, in minutes. -/
def offset : Reader Int
  | c :: cs =>
    if c = 'Z' || c = 'z' then some (0, cs)
    else if c = '+' || c = '-' then do
      let (hours, cs) ← twoDigits 0 23 cs
      let cs ← expect? [':'] cs
      let (minutes, cs) ← twoDigits 0 59 cs
      let n : Int := (60 * hours + minutes : Nat)
      some (if c = '-' then -n else n, cs)
    else none
  | [] => none

/-- Whether a character may divide a date from a time. -/
def divides (c : Char) : Bool := c = 'T' || c = 't' || c = ' '

/-- Reads the time after a date, if there is one. -/
def timeAfterDate : Reader Time
  | c :: cs => if divides c then time cs else none
  | [] => none

/-- Reads a date, a time or both. -/
def moment : Reader Moment := fun cs =>
  match date cs with
  | some (d, rest) =>
    match timeAfterDate rest with
    | some (t, rest) =>
      match offset rest with
      | some (o, rest) => some (.dateTime d t (some o), rest)
      | none => some (.dateTime d t none, rest)
    | none => some (.date d, rest)
  | none => (time cs).map fun (t, rest) => (.time t, rest)

end CallAdvice.Toml
