import DemandTransport.Text.Json.Basic

/-!
# Reading JSON

A text is read from left to right. Every function takes the characters that are left and returns,
with what it has read, those behind it. Blanks may stand between any two tokens.
-/

namespace DemandTransport.Json

/-- The blanks between tokens. -/
def isBlank (c : Char) : Bool := c == ' ' || c == '\n' || c == '\r' || c == '\t'

/-- A text without its leading blanks. -/
def skipBlanks (cs : List Char) : List Char := cs.dropWhile isBlank

/-- What follows `word` in a text that starts with it. -/
def dropWord? (word : String) (cs : List Char) : Option (List Char) :=
  if word.toList.isPrefixOf cs then some (cs.drop word.length) else none

/-- The code unit that four hexadecimal digits stand for. -/
def hexUnit? (cs : List Char) : Option (Nat × List Char) :=
  match cs with
  | a :: b :: c :: d :: rest =>
    match [a, b, c, d].mapM (Decimal.digitValue? 16) with
    | some digits => some (Decimal.valueOfDigits 16 digits, rest)
    | none => none
  | _ => none

/-- Whether a code unit is the first half of a pair. -/
def isFirstHalf (unit : Nat) : Bool := 0xd800 ≤ unit && unit < 0xdc00

/-- Whether a code unit is the second half of a pair. -/
def isSecondHalf (unit : Nat) : Bool := 0xdc00 ≤ unit && unit < 0xe000

/-- The second half of a pair, if it is next. -/
def secondHalf? (cs : List Char) : Option (Nat × List Char) := do
  let (unit, rest) ← hexUnit? (← dropWord? "\\u" cs)
  if isSecondHalf unit then some (unit, rest) else none

/-- The character of an escape by code units: one unit, or two halves that belong together. A half
without the other one stands for no character. -/
def unitEscape? (cs : List Char) : Option (Option Char × List Char) := do
  let (unit, rest) ← hexUnit? cs
  if isFirstHalf unit then
    match secondHalf? rest with
    | some (second, rest) =>
      pure (some (Char.ofNat (0x10000 + (unit - 0xd800) * 0x400 + (second - 0xdc00))), rest)
    | none => pure (none, rest)
  else if isSecondHalf unit then pure (none, rest)
  else pure (some (Char.ofNat unit), rest)

/-- The character that a letter after a backslash stands for. -/
def letterEscape? : Char → Option Char
  | '"' => some '"'
  | '\\' => some '\\'
  | '/' => some '/'
  | 'b' => some '\x08'
  | 'f' => some '\x0c'
  | 'n' => some '\n'
  | 'r' => some '\r'
  | 't' => some '\t'
  | _ => none

/-- What is written between quotes, after the opening one; it is no text if a half of a pair is
alone in it. The characters read so far come last one first; the first argument bounds the number of
characters. -/
def readText : Nat → List (Option Char) → List Char → Option (Option String × List Char)
  | 0, _, _ => none
  | _ + 1, _, [] => none
  | bound + 1, done, c :: cs =>
    if c = '"' then some ((done.reverse.mapM id).map String.ofList, cs)
    else if c = '\\' then
      match cs with
      | 'u' :: rest =>
        match unitEscape? rest with
        | some (c, rest) => readText bound (c :: done) rest
        | none => none
      | letter :: rest =>
        match letterEscape? letter with
        | some c => readText bound (some c :: done) rest
        | none => none
      | [] => none
    else if c.toNat < 0x20 then none
    else readText bound (some c :: done) cs

/-- The exponent part of a number, if one starts here. -/
def readExponent? (cs : List Char) : Option (Option Int × List Char) :=
  match cs with
  | 'e' :: rest | 'E' :: rest =>
    let (negative, rest) :=
      match rest with
      | '+' :: rest => (false, rest)
      | '-' :: rest => (true, rest)
      | rest => (false, rest)
    let (digits, rest) := Decimal.takeDigits rest
    if digits.isEmpty then none
    else
      let size : Int := Decimal.valueOfDigits 10 digits
      some (some (if negative then -size else size), rest)
  | cs => some (none, cs)

/-- A number. A whole part of several digits does not start with zero. -/
def readNumber? (cs : List Char) : Option (Json × List Char) := do
  let (negative, cs) :=
    match cs with
    | '-' :: rest => (true, rest)
    | cs => (false, cs)
  let (units, cs) := Decimal.takeDigits cs
  if units.isEmpty ∨ (units.head? = some 0 ∧ 1 < units.length) then none
  else
    let (fraction, cs) ←
      match cs with
      | '.' :: rest =>
        let (digits, rest) := Decimal.takeDigits rest
        if digits.isEmpty then none else some (some digits, rest)
      | cs => some (none, cs)
    let (exponent, cs) ← readExponent? cs
    let size := Decimal.valueOfDigits 10 units
    if fraction.isNone ∧ exponent.isNone ∧ ¬(negative ∧ size = 0) then
      pure (.whole (if negative then -size else size), cs)
    else
      pure (.real (.ofParts negative units (fraction.getD []) (exponent.getD 0)), cs)

mutual

/-- A value; the first argument bounds the number of values and items. -/
def readValue : Nat → List Char → Option (Json × List Char)
  | 0, _ => none
  | bound + 1, cs =>
    match skipBlanks cs with
    | 'n' :: rest => (dropWord? "ull" rest).map fun rest => (.null, rest)
    | 't' :: rest => (dropWord? "rue" rest).map fun rest => (.bool true, rest)
    | 'f' :: rest => (dropWord? "alse" rest).map fun rest => (.bool false, rest)
    | '"' :: rest => (readText (rest.length + 1) [] rest).map fun (s, rest) => (ofText s, rest)
    | '[' :: rest =>
      match skipBlanks rest with
      | ']' :: rest => some (.list [], rest)
      | rest => (readItems bound [] rest).map fun (items, rest) => (.list items, rest)
    | '\x7b' :: rest =>
      match skipBlanks rest with
      | '\x7d' :: rest => some (.object [], rest)
      | rest => (readMembers bound [] rest).map fun (members, rest) => (ofMembers members, rest)
    | cs => readNumber? cs

/-- The items of a list up to its closing bracket, behind the ones already read. -/
def readItems : Nat → List Json → List Char → Option (List Json × List Char)
  | 0, _, _ => none
  | bound + 1, done, cs =>
    match readValue bound cs with
    | some (item, rest) =>
      match skipBlanks rest with
      | ',' :: rest => readItems bound (item :: done) rest
      | ']' :: rest => some ((item :: done).reverse, rest)
      | _ => none
    | none => none

/-- The members of an object up to its closing brace, behind the ones already read. -/
def readMembers : Nat → List (Option String × Json) → List Char →
    Option (List (Option String × Json) × List Char)
  | 0, _, _ => none
  | bound + 1, done, cs =>
    match skipBlanks cs with
    | '"' :: rest =>
      match readText (rest.length + 1) [] rest with
      | some (name, rest) =>
        match skipBlanks rest with
        | ':' :: rest =>
          match readValue bound rest with
          | some (value, rest) =>
            match skipBlanks rest with
            | ',' :: rest => readMembers bound ((name, value) :: done) rest
            | '\x7d' :: rest => some (((name, value) :: done).reverse, rest)
            | _ => none
          | none => none
        | _ => none
      | none => none
    | _ => none

end

/-- The value that a text consists of, if it is one value and nothing else. -/
def parse? (source : String) : Option Json :=
  let cs := source.toList
  match readValue (2 * cs.length + 2) cs with
  | some (value, rest) => if (skipBlanks rest).isEmpty then some value else none
  | none => none

end DemandTransport.Json
