import LocalMetric.Json.Conversion
import LocalMetric.Linear.IntegerWidth
import LocalMetric.Linear.Tensor
/-!
# Arrays of data

Arrays as files hold them: whole numbers, truth values, numbers or texts. Values that fit none of
these are kept as they are. Points are read from arrays as numbers, and class labels as the classes
of equal entries.
-/
namespace LocalMetric

/-- An array of data of one kind. -/
inductive DataArray (α : Type) where
  | ints (values : Tensor Int)
  | flags (values : Tensor Bool)
  | numbers (values : Tensor α)
  | texts (values : Tensor String)
  /-- Values of several kinds, or of none of the others. -/
  | objects (values : Tensor (Json α))

mutual

def Json.toNested {α : Type} : Json α → Nested (Json α)
  | .arr items => .node (Json.toNestedItems items)
  | value => .leaf value

/-- The values in the nested lists that are the items of a list. -/
def Json.toNestedItems {α : Type} : List (Json α) → List (Nested (Json α))
  | [] => []
  | item :: items => Json.toNested item :: Json.toNestedItems items

end

mutual

def Json.ofNested {α β : Type} (entry : β → Json α) : Nested β → Json α
  | .leaf x => entry x
  | .node items => .arr (Json.ofNestedItems entry items)

def Json.ofNestedItems {α β : Type} (entry : β → Json α) : List (Nested β) → List (Json α)
  | [] => []
  | item :: items => Json.ofNested entry item :: Json.ofNestedItems entry items

end

namespace DataArray

variable {α : Type}

def shape : DataArray α → List Nat
  | ints values => values.shape
  | flags values => values.shape
  | numbers values => values.shape
  | texts values => values.shape
  | objects values => values.shape

/-- An array as nested lists; an array without axes is its entry. -/
def toJson : DataArray α → Json α
  | ints values => Json.ofNested Json.int values.toNested
  | flags values => Json.ofNested Json.bool values.toNested
  | numbers values => Json.ofNested Json.num values.toNested
  | texts values => Json.ofNested Json.str values.toNested
  | objects values => Json.ofNested id values.toNested

def isText : Json α → Bool
  | .str _ => true
  | _ => false

/-- Whether a value is a number that is not an integer. -/
def isNumber : Json α → Bool
  | .num _ => true
  | _ => false

def isInteger (w : IntegerWidth) : Json α → Bool
  | .int n => w.contains n
  | _ => false

/-- Whether a value is an integer that only the widest type without negative ones has. -/
def isLarge (v : Json α) : Bool := isInteger .unsignedLong v && !isInteger .long v

def isFlag : Json α → Bool
  | .bool _ => true
  | _ => false

/-- A text without zeros at its end, which only fill it up to the width of an entry. -/
def fixedText (s : String) : String :=
  String.ofList ((s.toList.reverse.dropWhile (· = '\x00')).reverse)

variable [Scalar α] [Numeral α]

/-- The array of the kind that holds all entries of an array: texts if there is any, else numbers,
else whole numbers, else truth values. Whole numbers of which some are large and others are not are
numbers, too. An empty array holds numbers. -/
def ofEntries (t : Tensor (Json α)) : DataArray α :=
  let entries := t.toList
  let long := entries.any (isInteger .long)
  let large := entries.any isLarge
  if entries.any fun v => !(isText v || isNumber v || isFlag v || isInteger .long v || isLarge v)
  then .objects t
  else if entries.any isText then .texts (t.map fun v => fixedText v.display)
  else if entries.isEmpty || entries.any isNumber || long && large then
    .numbers (t.map fun v => v.number?.getD 0)
  else if long || large then .ints (t.map fun v => v.integer?.getD 0)
  else .flags (t.map Json.isTrue)

def ofJson (v : Json α) : Checked α (DataArray α) := do
  return ofEntries (← Tensor.ofNested v.toNested)

/-- The number that a value is as an entry of an array; null is not comparable to any number. -/
def entryNumber : Json α → Checked α α
  | .null => .ok (0 / 0)
  | v => v.readNumber

/-- The entries as numbers. A truth value counts as zero or one, and a text is read. -/
def toNumbers : DataArray α → Checked α (Tensor α)
  | ints values => .ok (values.map Scalar.ofInt)
  | flags values => .ok (values.map fun b => if b then 1 else 0)
  | numbers values => .ok values
  | texts values => values.mapChecked fun s => entryNumber (.str s)
  | objects values => values.mapChecked entryNumber

def numbersOfJson (v : Json α) : Checked α (Tensor α) := do
  (← Tensor.ofNested v.toNested).mapChecked entryNumber

/-- Whether two numbers are equal, of whichever kind they are. -/
def sameNumber (x y : Json α) : Bool :=
  match x.equalInteger?, y.equalInteger? with
  | some m, some n => m == n
  | none, none => match x.number?, y.number? with
    | some a, some b => a == b
    | _, _ => false
  | _, _ => false

/-- The number of each entry's class, which is the place of the first entry equal to it. -/
def firstPlaces {β : Type} (same : β → β → Bool) (entries : List β) : List Int :=
  entries.map fun x => Int.ofNat (entries.findIdx (same · x))

/-- The classes of values of several kinds. They have to be comparable, which only numbers are. -/
def objectClasses (entries : List (Json α)) : Checked α (List Int) :=
  if entries.any fun v => isNumber v && !sameNumber v v then .error .unusableLabels
  else if 1 < entries.length && entries.any fun v => v.number?.isNone then
    .error .incomparableLabels
  else .ok (firstPlaces (fun x y => entries.length == 1 || sameNumber x y) entries)

/-- The classes of a row of labels. Numbers that are not finite are refused as labels. -/
def classes (labels : DataArray α) : Checked α (List Int) :=
  if labels.shape.length ≠ 1 then .error .unusableLabels
  else match labels with
    | ints values => .ok (firstPlaces (· == ·) values.toList)
    | flags values => .ok (firstPlaces (· == ·) values.toList)
    | texts values => .ok (firstPlaces (· == ·) values.toList)
    | numbers values =>
      if values.toList.all Scalar.isFinite then .ok (firstPlaces (· == ·) values.toList)
      else .error .unusableLabels
    | objects values => objectClasses values.toList

end DataArray

end LocalMetric
