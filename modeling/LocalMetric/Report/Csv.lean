import LocalMetric.Fault
import LocalMetric.Json.Basic
/-!
# Tables of text

Records of fields, one on a line, the fields separated by commas. A field is put in quotes if it
holds a comma, a quote or the end of a line, and quotes inside are doubled. A record that consists
of a single empty field is quoted too, since it would otherwise look like no record at all.
-/
namespace LocalMetric.Csv

def needsQuotes (field : List Char) : Bool :=
  field.any fun c => c = ',' || c = '"' || c = '\r' || c = '\n'

def quotedField (field : List Char) : List Char :=
  ['"'] ++ field.flatMap (fun c => if c = '"' then ['"', '"'] else [c]) ++ ['"']

def fieldText (field : List Char) : List Char :=
  if needsQuotes field then quotedField field else field

def recordText : List (List Char) → List Char
  | [[]] => ['"', '"', '\r', '\n']
  | fields => [','].intercalate (fields.map fieldText) ++ ['\r', '\n']

def text (records : List (List String)) : String :=
  String.ofList (records.flatMap fun record => recordText (record.map String.toList))

variable {α : Type} [Numeral α]

/-- A value as a field: nothing for null, else its text. -/
def cell : Json α → String
  | .null => ""
  | value => value.display

/-- The cells of a row under the given columns, empty where the row has no value. -/
def rowCells (columns : List String) (row : List (String × Json α)) : Checked α (List String) :=
  match row.find? fun (name, _) => !columns.contains name with
  | some (name, _) => .error (.unexpectedColumn name)
  | none => .ok (columns.map fun column => ((findEntry column row).map cell).getD "")

/-- The text of a table whose columns are those of its first row; nothing is written without
rows. -/
def tableText? (rows : List (List (String × Json α))) : Checked α (Option String) :=
  match rows with
  | [] => .ok none
  | first :: _ => do
    let columns := first.map (·.1)
    return some (text (columns :: (← rows.mapM (rowCells columns))))

end LocalMetric.Csv
