import PhpTestIndex.Text.Decimal
import PhpTestIndex.Toml.Fault
import PhpTestIndex.Toml.Text
import PhpTestIndex.Toml.Value

/-!
# Numbers in TOML documents

How whole numbers and numbers with a fraction or an exponent are read.  Whole numbers have 64 bits;
a number with a fraction is kept by its digits, and it is not read if it is larger than what can be
held in double precision.
-/

namespace PhpTestIndex.Toml

/-- Take a sign off a number. -/
def unsigned : List Char → Bool × List Char
  | '-' :: rest => (true, rest)
  | '+' :: rest => (false, rest)
  | rest => (false, rest)

/-- Read the digits that follow; a single underscore may stand before each. -/
def readMoreDigits (isDigit : Char → Bool) : List Char → Reading (List Char)
  | '_' :: c :: rest =>
    if isDigit c then prepend c (readMoreDigits isDigit rest)
    else .error { rest := c :: rest, expected := ["digit"], isFinal := true }
  | ['_'] => .error { rest := [], expected := ["digit"], isFinal := true }
  | c :: rest =>
    if isDigit c then prepend c (readMoreDigits isDigit rest) else .ok ([], c :: rest)
  | [] => .ok ([], [])

/-- Read digits, at least one. -/
def readDigits (isDigit : Char → Bool) : List Char → Reading (List Char)
  | c :: rest =>
    if isDigit c then prepend c (readMoreDigits isDigit rest) else .error { rest := c :: rest }
  | [] => .error { rest := [] }

/-- Read the decimal digits of a whole number with its sign; only zero itself begins with a zero. -/
def readWhole (chars : List Char) : Reading (Bool × List Char) :=
  let (isNegative, body) := unsigned chars
  called "integer" <|
    match body with
    | '0' :: rest => .ok ((isNegative, ['0']), rest)
    | body => (readDigits Char.isDigit body).map fun (digits, rest) => ((isNegative, digits), rest)

/-- The whole number with some value, if it can be held; `start` is the text that it begins. -/
def bounded (value : Int) (start : List Char) : Except Fault Toml :=
  if value < Int64.minValue.toInt then
    .error { rest := start, cause := some .tooSmall, isFinal := true }
  else if Int64.maxValue.toInt < value then
    .error { rest := start, cause := some .tooLarge, isFinal := true }
  else .ok (.integer value)

/-- Read the digits of a whole number to a base; `start` is the text that it begins. -/
def readBased (name : String) (base : Nat) (isDigit : Char → Bool) (start digits : List Char) :
    Except Fault (Toml × List Char) := do
  let (digits, rest) ← insist (called name (readDigits isDigit digits))
  let value ← bounded (Text.digitsValue base digits) start
  return (value, rest)

/-- Read a whole number. -/
def readInteger (chars : List Char) : Except Fault (Toml × List Char) :=
  match chars with
  | '0' :: 'x' :: rest => readBased "hexadecimal integer" 16 isHexDigit chars rest
  | '0' :: 'o' :: rest => readBased "octal integer" 8 (fun c => '0' ≤ c && c ≤ '7') chars rest
  | '0' :: 'b' :: rest => readBased "binary integer" 2 (fun c => c == '0' || c == '1') chars rest
  | chars => do
    let ((isNegative, digits), rest) ← readWhole chars
    let size : Int := Text.digitsValue 10 digits
    let value ← bounded (if isNegative then -size else size) chars
    return (value, rest)

/-- Read an exponent, which may begin with zeros. -/
def readExponent : List Char → Except Fault (Int × List Char)
  | mark :: rest =>
    if mark = 'e' ∨ mark = 'E' then do
      let (isNegative, digits) := unsigned rest
      let (digits, rest) ← insist (readDigits Char.isDigit digits)
      let size : Int := Text.digitsValue 10 digits
      return (if isNegative then -size else size, rest)
    else .error { rest := mark :: rest }
  | [] => .error { rest := [] }

/-- Read the digits after the point. -/
def readFraction (chars : List Char) : Except Fault (List Char × List Char) := do
  let rest ← readSign '.' chars
  insist ((readDigits Char.isDigit rest).mapError (Fault.expecting ["digit"]))

/-- Read what stands after the whole part of a number: an exponent, or a fraction and possibly an
exponent. -/
def readTail (chars : List Char) : Except Fault ((List Char × Int) × List Char) :=
  orTry ((readExponent chars).map fun (exponent, rest) => (([], exponent), rest)) do
    let (fraction, rest) ← readFraction chars
    let (exponent, rest) ← orTry (readExponent rest) (.ok (0, rest))
    return ((fraction, exponent), rest)

/-- A decimal number is larger than all numbers of double precision after rounding. -/
def isInfinite (whole fraction : List Char) (exponent : Int) : Bool :=
  let digits := Text.dropZeros (whole ++ fraction)
  let size := Text.digitsValue 10 digits
  let shift := exponent - fraction.length
  let places := digits.length + shift
  let limit := Nat.pow 2 1024 - Nat.pow 2 970
  if digits.isEmpty || places < 309 then false
  else if 309 < places then true
  else limit * Nat.pow 10 (-shift).toNat ≤ size * Nat.pow 10 shift.toNat

/-- Read one of the numbers that have no digits. -/
def readSpecial (chars : List Char) : Except Fault (Toml × List Char) :=
  let (isNegative, body) := unsigned chars
  match Text.after? "inf".toList body, Text.after? "nan".toList body with
  | some rest, _ => .ok (.float (if isNegative then "-inf" else "inf"), rest)
  | none, some rest => .ok (.float "NaN", rest)
  | none, none => .error { rest := body }

/-- Read a number with a fraction, an exponent or both. -/
def readDecimal (chars : List Char) : Except Fault (Toml × List Char) := do
  let ((isNegative, whole), rest) ← readWhole chars
  let ((fraction, exponent), rest) ← readTail rest
  if !isInfinite whole fraction exponent then
    return (.float (Text.plainDecimal isNegative whole fraction exponent), rest)
  else if isNegative then return (.float "-inf", rest)
  else throw { rest := chars, isFinal := true }

/-- Read a number with a fraction, an exponent or both, or one of the special numbers. -/
def readFloat (chars : List Char) : Except Fault (Toml × List Char) :=
  called "floating-point number" (orTry (readDecimal chars) (readSpecial chars))

end PhpTestIndex.Toml
