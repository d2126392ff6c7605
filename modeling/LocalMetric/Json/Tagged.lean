import LocalMetric.Json.Payload
import LocalMetric.Linear.EntryType
/-!
# Tagged values

How the values that runs write down are themselves stated as JSON. Values that JSON has stand for
themselves; any other one is an object with the name of its kind under `t` and its content under
`v`. A dictionary is a list of pairs of tagged values.
-/
namespace LocalMetric.Tagged

/-- A value without parts, given the name of its kind and its content. -/
def atom (kind : String) (content : Json Float) : Checked Float (Atom Float) :=
  match kind with
  | "path" => do return .path (.ofText (← Json.stated content.string?))
  | "float" => do return .num (← content.readNumber)
  | "int" => do return .int (← content.readInteger)
  | "assoc" =>
    if content.string? = some Kind.localPca.name then .ok .localPca
    else .error (.unknownName content.display)
  | "state" => do return .readiness (← Readiness.ofName content.display)
  | "npint" => do return .cell (.int (← EntryType.integerEntry .long content))
  | "npfloat" => do return .cell (.num (← DataArray.entryNumber content))
  | "npfloat32" => do
    return .cell (.halved (Decimal.narrowed .single (← DataArray.entryNumber content)))
  | "npbool" => .ok (.cell (.flag content.isTrue))
  | _ => .error .wrongParameters

def kindOf (fields : List (String × Json Float)) : String :=
  ((findEntry "t" fields).bind Json.string?).getD ""

/-- The type of the entries of an array that stands in the place of a single one. -/
def cellType? (kind : String) : Option EntryType :=
  match kind with
  | "npint" => some (.integer .long)
  | "npfloat" => some (.number .double)
  | "npfloat32" => some (.number .single)
  | "npbool" => some .flag
  | _ => none

/-- The type of entries that the fields of an object name. -/
def entryTypeOf (fields : List (String × Json Float)) : Checked Float EntryType :=
  match findEntry "dtype" fields with
  | none => .ok (.number .double)
  | some name => Json.stated (name.string?.bind EntryType.ofName?)

mutual

/-- Reads a tagged value of any depth. -/
def readValue : Json Float → Checked Float (Payload Float)
  | .null => .ok (.atom .null)
  | .bool b => .ok (.atom (.bool b))
  | .int n => .ok (.atom (.int n))
  | .num x => .ok (.atom (.num x))
  | .str s => .ok (.atom (.text s))
  | .arr items => do return .list (← readItems items)
  | .obj fields => readContent (kindOf fields) (entryTypeOf fields) fields

def readItems : List (Json Float) → Checked Float (List (Payload Float))
  | [] => .ok []
  | item :: items => do
    let first ← readValue item
    return first :: (← readItems items)

def readContent (kind : String) (entryType : Checked Float EntryType) :
    List (String × Json Float) → Checked Float (Payload Float)
  | [] => .error .wrongParameters
  | (name, value) :: fields =>
    if name = "v" then readKind kind entryType value else readContent kind entryType fields

def readKind (kind : String) (entryType : Checked Float EntryType) :
    Json Float → Checked Float (Payload Float)
  | .arr items =>
    match kind with
    | "tuple" => do return .tuple (← readItems items)
    | "dict" => do return .ofEntries (← readEntries items)
    | "ndarray" => do return .array (← (← entryType).read (Json.arr items).withNumbers)
    | _ =>
      match cellType? kind with
      | some entryType => do return .array (← entryType.read (Json.arr items))
      | none => .atom <$> atom kind (.arr items)
  | value =>
    match kind with
    | "ndarray" => do return .array (← (← entryType).read value.withNumbers)
    | _ => .atom <$> atom kind value

/-- Reads the entries of a dictionary. Both parts of an entry are read before the key is looked
at. -/
def readEntries : List (Json Float) → Checked Float (List (Key Float × Payload Float))
  | [] => .ok []
  | entry :: entries => do
    let first ← readEntry entry
    return first :: (← readEntries entries)

def readEntry : Json Float → Checked Float (Key Float × Payload Float)
  | .arr [key, value] => do
    let key ← readValue key
    let value ← readValue value
    match key.key? with
    | some key => return (key, value)
    | none => throw .keyNotFixed
  | .arr _ => .error .shapeMismatch
  | _ => .error .wrongParameters

end

def read (v : Json Float) : Checked Float (Payload Float) := do
  let value ← readValue v
  if value.depth ≤ Payload.depthLimit then return value else throw .nestedTooDeep

end LocalMetric.Tagged
