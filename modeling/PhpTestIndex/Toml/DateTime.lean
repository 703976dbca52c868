import PhpTestIndex.Text.Decimal
import PhpTestIndex.Toml.Fault
import PhpTestIndex.Toml.Value

/-!
# Dates and times in TOML documents

A date, a time of the day or both, possibly with the distance from universal time.  What has been
read is kept as it is written.
-/

namespace PhpTestIndex.Toml

/-- Read a number in some number of digits. -/
def readFixed (count : Nat) (chars : List Char) : Except Fault (Nat × List Char) :=
  let digits := chars.take count
  if digits.length = count && digits.all Char.isDigit then
    .ok (Text.digitsValue 10 digits, chars.drop count)
  else .error { rest := chars }

/-- Read a number in two digits that lies between two others. -/
def readPair (least most : Nat) (chars : List Char) : Except Fault (Nat × List Char) := do
  let (value, rest) ← readFixed 2 chars
  if least ≤ value && value ≤ most then return (value, rest)
  else throw { rest := chars, cause := some .outOfRange }

/-- The number of days in a month. -/
def daysIn (year month : Nat) : Nat :=
  if month = 2 then
    if (year % 4 = 0 && year % 100 != 0) || year % 400 = 0 then 29 else 28
  else if month = 4 ∨ month = 6 ∨ month = 9 ∨ month = 11 then 30
  else 31

/-- Drop the month and the day of a date. -/
def dropDay (year : Nat) (chars : List Char) : Except Fault (List Char) := do
  let (month, rest) ← readPair 1 12 chars
  let start ← readSign '-' rest
  let (day, rest) ← readPair 1 31 start
  if day ≤ daysIn year month then return rest
  else throw { rest := start, cause := some .outOfRange }

/-- Drop a date of the calendar. -/
def dropDate (chars : List Char) : Except Fault (List Char) := do
  let (year, rest) ← readFixed 4 chars
  let rest ← readSign '-' rest
  insist (dropDay year rest)

/-- Drop minutes and seconds. -/
def dropMinutes (chars : List Char) : Except Fault (List Char) := do
  let (_, rest) ← readPair 0 59 chars
  let rest ← readSign ':' rest
  let (_, rest) ← readPair 0 60 rest
  match rest with
  | '.' :: c :: digits =>
    if c.isDigit then return digits.dropWhile Char.isDigit else return '.' :: c :: digits
  | rest => return rest

/-- Drop a time of the day. -/
def dropTime (chars : List Char) : Except Fault (List Char) := do
  let (_, rest) ← readPair 0 23 chars
  let rest ← readSign ':' rest
  insist (dropMinutes rest)

/-- Drop hours and minutes. -/
def dropHours (chars : List Char) : Except Fault (List Char) := do
  let (_, rest) ← readPair 0 23 chars
  let rest ← readSign ':' rest
  let (_, rest) ← readPair 0 59 rest
  return rest

/-- Drop the distance from universal time, if it is told. -/
def dropZone : List Char → Except Fault (List Char)
  | c :: rest =>
    if c = 'Z' ∨ c = 'z' then .ok rest
    else if c = '+' ∨ c = '-' then insist (called "time offset" (dropHours rest))
    else .ok (c :: rest)
  | [] => .ok []

/-- Drop a date and the time after it, if a time follows. -/
def dropDateTime (chars : List Char) : Except Fault (List Char) := do
  let rest ← dropDate chars
  match rest with
  | c :: after =>
    if c = 'T' ∨ c = 't' ∨ c = ' ' then orTry (dropTime after >>= dropZone) (.ok rest)
    else .ok rest
  | [] => .ok []

/-- Read a date, a time or both. -/
def readDateTime (chars : List Char) : Except Fault (Toml × List Char) :=
  let kept (read : Except Fault (List Char)) : Reading Toml :=
    read.map fun rest =>
      (.dateTime (String.ofList (chars.take (chars.length - rest.length))), rest)
  orTry (kept (called "date-time" (dropDateTime chars))) (kept (called "time" (dropTime chars)))

end PhpTestIndex.Toml
