import DemandTransport.Decimal.Read
import DemandTransport.Text.Csv

/-!
# Tables

The first record of a comma-separated text names its columns; every other record is a row with as
many fields. The columns of a table are found by name in any order, and columns that the table does
not know are passed over. Fields are converted from left to right, and the first one that cannot be
is reported.
-/

namespace DemandTransport.Table

/-- What the fields of a column hold. -/
inductive CellKind where
  /-- A count of at most `limit`. -/
  | count (limit : Nat)
  /-- A binary64 number. -/
  | double
  /-- A binary32 number. -/
  | single
  /-- Any text. -/
  | text
  deriving DecidableEq, Repr

/-- The values of the fields of a column. -/
abbrev CellKind.Value : CellKind → Type
  | .count _ => Nat
  | .double => Float
  | .single => Float32
  | .text => String

/-- Why a field cannot be converted. -/
inductive CellFault where
  | invalidDigit
  | tooLarge
  | emptyCount
  | invalidNumber
  | emptyNumber
  deriving DecidableEq, Repr

/-- The wording of a conversion fault. -/
def CellFault.message : CellFault → String
  | .invalidDigit => "invalid digit found in string"
  | .tooLarge => "number too large to fit in target type"
  | .emptyCount => "cannot parse integer from empty string"
  | .invalidNumber => "invalid float literal"
  | .emptyNumber => "cannot parse float from empty string"

/-- What is wrong with a table. -/
inductive TableFault where
  /-- A field of a record cannot be converted. -/
  | cell (record field : Nat) (fault : CellFault)
  /-- A column that a record needs does not exist. -/
  | missing (record : Nat) (column : String)
  /-- Two columns have one name. -/
  | duplicate (record : Nat) (column : String)
  /-- A record has more or fewer fields than there are columns. -/
  | ragged (record fields columns : Nat)
  deriving DecidableEq, Repr

/-- The wording of a table fault. -/
def TableFault.message : TableFault → String
  | .cell record field fault =>
    "CSV deserialize error: record " ++ Decimal.ofNat record ++ ": field " ++
      Decimal.ofNat field ++ ": " ++ fault.message
  | .missing record column =>
    "CSV deserialize error: record " ++ Decimal.ofNat record ++ ": missing field `" ++ column ++ "`"
  | .duplicate record column =>
    "CSV deserialize error: record " ++ Decimal.ofNat record ++ ": duplicate field `" ++
      column ++ "`"
  | .ragged record fields columns =>
    "CSV error: record " ++ Decimal.ofNat record ++ ": found record with " ++
      Decimal.ofNat fields ++ " fields, but the previous record has " ++
      Decimal.ofNat columns ++ " fields"

/-! ## Fields -/

/-- Add digits to a number one by one, as long as they are digits and the number stays in range. -/
def countDigits (base limit : Nat) : Nat → List Char → Except CellFault Nat
  | value, [] => .ok value
  | value, c :: cs =>
    match Decimal.digitValue? base c with
    | some digit =>
      if value * base + digit ≤ limit then countDigits base limit (value * base + digit) cs
      else .error .tooLarge
    | none => .error .invalidDigit

/-- A count in a base, with or without a plus sign. -/
def countIn (base limit : Nat) (cs : List Char) : Except CellFault Nat :=
  match cs with
  | [] => .error .emptyCount
  | ['+'] => .error .invalidDigit
  | '+' :: cs => countDigits base limit 0 cs
  | cs => countDigits base limit 0 cs

/-- A count in decimal digits, or in hexadecimal ones behind `0x`. -/
def readCount (limit : Nat) (field : String) : Except CellFault Nat :=
  match field.toList with
  | '0' :: 'x' :: cs => countIn 16 limit cs
  | cs => countIn 10 limit cs

/-- A number as it was written, which need not be a number at all. -/
inductive Measure where
  | undefined
  | infinite (negative : Bool)
  | numeral (value : Decimal.Numeral)
  deriving DecidableEq, Repr

/-- The binary64 value of a measure. -/
def Measure.toFloat : Measure → Float
  | .undefined => 0.0 / 0.0
  | .infinite negative => if negative then -1.0 / 0.0 else 1.0 / 0.0
  | .numeral n => n.toFloat

/-- The binary32 value of a measure. -/
def Measure.toFloat32 : Measure → Float32
  | .undefined => 0.0 / 0.0
  | .infinite negative => if negative then -1.0 / 0.0 else 1.0 / 0.0
  | .numeral n => n.toFloat32

/-- The exponent at the end of a number: nothing, or a mark and at least one digit. -/
def readExponent? (cs : List Char) : Option Int :=
  match cs with
  | [] => some 0
  | mark :: cs =>
    if mark = 'e' ∨ mark = 'E' then
      let (negative, cs) :=
        match cs with
        | '+' :: cs => (false, cs)
        | '-' :: cs => (true, cs)
        | cs => (false, cs)
      let (digits, rest) := Decimal.takeDigits cs
      let size : Int := Decimal.valueOfDigits 10 digits
      if digits.isEmpty ∨ !rest.isEmpty then none else some (if negative then -size else size)
    else none

/-- A number without its sign: a word for no number or an infinite one in any case of letters, or
digits with a point at any place of them and an exponent. -/
def readUnsigned? (negative : Bool) (cs : List Char) : Option Measure :=
  let word := String.ofList (cs.map Char.toLower)
  if word == "nan" then some .undefined
  else if word == "inf" || word == "infinity" then some (.infinite negative)
  else
    let (whole, cs) := Decimal.takeDigits cs
    let (fraction, cs) :=
      match cs with
      | '.' :: cs => Decimal.takeDigits cs
      | cs => ([], cs)
    if whole.isEmpty ∧ fraction.isEmpty then none
    else (readExponent? cs).map fun exponent => .numeral (.ofParts negative whole fraction exponent)

/-- A number with or without a sign. -/
def readMeasure (field : String) : Except CellFault Measure :=
  let read :=
    match field.toList with
    | '-' :: cs => readUnsigned? true cs
    | '+' :: cs => readUnsigned? false cs
    | cs => readUnsigned? false cs
  if field.isEmpty then .error .emptyNumber
  else
    match read with
    | some m => .ok m
    | none => .error .invalidNumber

/-- Convert a field. -/
def CellKind.read : (kind : CellKind) → String → Except CellFault kind.Value
  | .count limit, field => readCount limit field
  | .double, field => (readMeasure field).map Measure.toFloat
  | .single, field => (readMeasure field).map Measure.toFloat32
  | .text, field => .ok field

/-! ## Rows -/

/-- A column that a table knows. -/
structure Column where
  /-- Its name. -/
  name : String
  /-- What its fields hold. -/
  kind : CellKind
  /-- Whether a field may be empty and the column may be missing. -/
  optional : Bool
  deriving DecidableEq, Repr

/-- A column whose fields all have to be there. -/
abbrev required (name : String) (kind : CellKind) : Column := ⟨name, kind, false⟩

/-- A column that may be missing and whose fields may be empty. -/
abbrev possible (name : String) (kind : CellKind) : Column := ⟨name, kind, true⟩

/-- What a row holds in a column. -/
abbrev Column.Value (column : Column) : Type :=
  match column.optional with
  | true => Option column.kind.Value
  | false => column.kind.Value

/-- What a row holds in each of a list of columns. -/
abbrev Row : List Column → Type
  | [] => Unit
  | column :: columns => column.Value × Row columns

/-- Convert a field of a column; an empty one may stand for nothing. -/
def Column.read (column : Column) (field : String) : Except CellFault column.Value :=
  match column with
  | ⟨_, kind, false⟩ => kind.read field
  | ⟨_, kind, true⟩ => if field.isEmpty then .ok none else (kind.read field).map some

/-- The first fault of the fields of a record from left to right, if one has any. -/
def firstFault? (columns : List Column) (record : Nat) :
    Nat → List String → List (String × String) → Option TableFault
  | _, _, [] => none
  | i, seen, (name, field) :: rest =>
    match columns.find? (·.name == name) with
    | none => firstFault? columns record (i + 1) seen rest
    | some column =>
      if name ∈ seen then some (.duplicate record name)
      else
        match column.read field with
        | .ok _ => firstFault? columns record (i + 1) (name :: seen) rest
        | .error fault => some (.cell record i fault)

/-- What a record holds in a column. -/
def pick (record : Nat) (fields : List (String × String)) (column : Column) :
    Except TableFault column.Value :=
  match fields.findIdx? (·.1 == column.name), fields.lookup column.name with
  | some i, some field => (column.read field).mapError (.cell record i)
  | _, _ =>
    match column with
    | ⟨name, _, false⟩ => .error (.missing record name)
    | ⟨_, _, true⟩ => .ok none

/-- What a record holds in each of a list of columns. -/
def pickAll (record : Nat) (fields : List (String × String)) :
    (columns : List Column) → Except TableFault (Row columns)
  | [] => .ok ()
  | column :: columns => do
    let value ← pick record fields column
    let values ← pickAll record fields columns
    return (value, values)

/-- The row that a record makes under a header. -/
def row (columns : List Column) (header : List String) (record : Nat) (fields : List String) :
    Except TableFault (Row columns) :=
  if fields.length = header.length then
    match firstFault? columns record 0 [] (header.zip fields) with
    | some fault => .error fault
    | none => pickAll record (header.zip fields) columns
  else .error (.ragged record fields.length header.length)

/-- The rows of a table, each of them converted or with its fault. -/
def rows (columns : List Column) (source : String) : List (Except TableFault (Row columns)) :=
  match Csv.records source with
  | [] => []
  | header :: records =>
    records.zipIdx.map fun (fields, i) => row columns header (i + 1) fields

end DemandTransport.Table
