/-!
# Comma-separated records

A text is cut into records at line ends and into fields at commas. A field that starts with a double
quote ends at the next single one; between its quotes commas and line ends are ordinary characters
and two quotes stand for one. Empty lines are no records.
-/

namespace DemandTransport.Csv

/-- Where a reader stands in a record. -/
inductive Place where
  /-- At the start of a line. -/
  | line
  /-- At the start of a field. -/
  | field
  /-- Inside a field without quotes, or behind the closing quote of one. -/
  | plain
  /-- Inside a quoted field. -/
  | quoted
  /-- Behind a quote inside a quoted field. -/
  | quote
  deriving DecidableEq, Repr

/-- A record in the making: its finished fields and the characters of the current one, each in
reverse order. -/
structure Draft where
  /-- The fields read so far. -/
  fields : List String := []
  /-- The characters of the current field. -/
  chars : List Char := []

/-- Finish the current field. -/
def Draft.endField (d : Draft) : Draft := ⟨String.ofList d.chars.reverse :: d.fields, []⟩

/-- Finish the record. -/
def Draft.endRecord (d : Draft) : List String := d.endField.fields.reverse

/-- Whether a character ends a line. -/
def isLineEnd (c : Char) : Bool := c == '\n' || c == '\r'

/-- The records of a text from a place in a record on. The last record needs no line end. -/
def recordsFrom : Place → Draft → List Char → List (List String)
  | .line, _, [] => []
  | _, d, [] => [d.endRecord]
  | .quoted, d, c :: cs =>
    if c = '"' then recordsFrom .quote d cs
    else recordsFrom .quoted { d with chars := c :: d.chars } cs
  | place, d, c :: cs =>
    if place = .quote ∧ c = '"' then recordsFrom .quoted { d with chars := c :: d.chars } cs
    else if (place = .line ∨ place = .field) ∧ c = '"' then recordsFrom .quoted d cs
    else if c = ',' then recordsFrom .field d.endField cs
    else if isLineEnd c then
      if place = .line then recordsFrom .line d cs
      else d.endRecord :: recordsFrom .line {} cs
    else recordsFrom .plain { d with chars := c :: d.chars } cs

/-- The records of a text; a byte order mark in front of them is skipped. -/
def records (source : String) : List (List String) :=
  match source.toList with
  | '\ufeff' :: cs => recordsFrom .line {} cs
  | cs => recordsFrom .line {} cs

end DemandTransport.Csv
