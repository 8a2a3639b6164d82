/-!
# Digit strings

Whole numbers written in digits, and digit strings padded to a width.
-/

namespace DemandTransport.Decimal

/-- A text filled up on the left to `width` characters. -/
def padLeft (width : Nat) (fill : Char) (text : String) : String :=
  String.ofList (List.replicate (width - text.length) fill) ++ text

/-- A text filled up on the right with blanks to `width` characters. -/
def padRight (width : Nat) (text : String) : String :=
  text ++ String.ofList (List.replicate (width - text.length) ' ')

/-- A count in decimal digits. -/
def ofNat (n : Nat) : String := String.ofList (Nat.toDigits 10 n)

/-- A count in at least two decimal digits. -/
def twoDigits (n : Nat) : String := padLeft 2 '0' (ofNat n)

/-- A count in lower-case hexadecimal digits. -/
def hexOfNat (n : Nat) : String := String.ofList (Nat.toDigits 16 n)

/-- The value of a digit in a base of at most sixteen; letters of either case count from ten. -/
def digitValue? (base : Nat) (c : Char) : Option Nat :=
  let value :=
    if '0' ≤ c ∧ c ≤ '9' then c.toNat - '0'.toNat
    else if 'a' ≤ c ∧ c ≤ 'f' then c.toNat - 'a'.toNat + 10
    else if 'A' ≤ c ∧ c ≤ 'F' then c.toNat - 'A'.toNat + 10
    else base
  if value < base then some value else none

/-- The number that a list of digits in a base stands for, most significant digit first. -/
def valueOfDigits (base : Nat) (digits : List Nat) : Nat :=
  digits.foldl (fun value digit => value * base + digit) 0

/-- How many decimal digits a count has; zero has none. -/
def digitCount (n : Nat) : Nat := if n = 0 then 0 else (Nat.toDigits 10 n).length

end DemandTransport.Decimal
