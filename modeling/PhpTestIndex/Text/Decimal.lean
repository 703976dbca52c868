/-!
# Decimal numbers

A decimal number written without an exponent and without superfluous zeros.
-/

namespace PhpTestIndex.Text

/-- Drop zeros at the start. -/
def dropZeros (digits : List Char) : List Char :=
  digits.dropWhile fun c => c == '0'

/-- Drop zeros at the end. -/
def dropEndZeros (digits : List Char) : List Char :=
  (dropZeros digits.reverse).reverse

/-- The number with the given digits before and after the point, shifted by an exponent. -/
def plainDecimal (isNegative : Bool) (whole fraction : List Char) (exponent : Int) : String :=
  let digits := whole ++ fraction
  let point : Int := whole.length + exponent
  let (before, after) : List Char × List Char :=
    if point ≤ 0 then ([], List.replicate (-point).toNat '0' ++ digits)
    else
      let count := point.toNat
      (digits.take count ++ List.replicate (count - digits.length) '0', digits.drop count)
  let before := match dropZeros before with
    | [] => ['0']
    | before => before
  let sign := if isNegative then "-" else ""
  match dropEndZeros after with
  | [] => sign ++ String.ofList before
  | after => sign ++ String.ofList before ++ "." ++ String.ofList after

/-- The number that some digits mean to a base; other characters do not count. -/
def digitsValue (base : Nat) (digits : List Char) : Nat :=
  digits.foldl (fun value c =>
    match digitValue? c with
    | none => value
    | some digit => value * base + digit) 0
where
  /-- The value of a digit or of a letter that stands for one. -/
  digitValue? (c : Char) : Option Nat :=
    if c.isDigit then some (c.toNat - 48)
    else if 'a' ≤ c ∧ c ≤ 'f' then some (c.toNat - 87)
    else if 'A' ≤ c ∧ c ≤ 'F' then some (c.toNat - 55)
    else none

end PhpTestIndex.Text
