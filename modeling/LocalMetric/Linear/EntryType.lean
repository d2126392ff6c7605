import LocalMetric.Linear.DataArray
/-!
# Types of entries

An array may be asked to hold entries of a stated type. Integers have to fit into their type;
numbers that are cut off to integers only have to fit into the widest one.
-/
namespace LocalMetric

/-- What an array is asked to hold. -/
inductive EntryType where
  | integer (width : IntegerWidth)
  | flag
  | number (format : Decimal.BinaryFormat)
  | text
  | object

namespace EntryType

open Decimal.BinaryFormat (half single double)

/-- The types under their names, long ones and short ones. -/
def named : List (String × EntryType) := [
  ("int8", .integer ⟨true, 8⟩), ("int16", .integer ⟨true, 16⟩), ("int32", .integer ⟨true, 32⟩),
  ("int64", .integer .long), ("int", .integer .long),
  ("uint8", .integer ⟨false, 8⟩), ("uint16", .integer ⟨false, 16⟩),
  ("uint32", .integer ⟨false, 32⟩), ("uint64", .integer .unsignedLong),
  ("uint", .integer .unsignedLong), ("bool", .flag),
  ("float16", .number half), ("float32", .number single), ("float64", .number double),
  ("half", .number half), ("single", .number single), ("double", .number double),
  ("float", .number double), ("str", .text), ("object", .object),
  ("i1", .integer ⟨true, 8⟩), ("i2", .integer ⟨true, 16⟩), ("i4", .integer ⟨true, 32⟩),
  ("i8", .integer .long), ("u1", .integer ⟨false, 8⟩), ("u2", .integer ⟨false, 16⟩),
  ("u4", .integer ⟨false, 32⟩), ("u8", .integer .unsignedLong), ("b1", .flag),
  ("f2", .number half), ("f4", .number single), ("f8", .number double), ("U", .text),
  ("O", .object)]

/-- The type with a name, which may start with a mark of the order of the bytes. -/
def ofName? (name : String) : Option EntryType :=
  match name.toList with
  | c :: rest =>
    findEntry (if ['<', '>', '=', '|'].contains c then String.ofList rest else name) named
  | [] => none

section

variable {α : Type} [Scalar α] [Numeral α]

/-- Whether an integer that is left of another number can be stored in a type at all. -/
def accepts (w : IntegerWidth) (n : Int) : Bool :=
  IntegerWidth.long.contains n ||
    (!w.signed && decide (32 ≤ w.bits) && IntegerWidth.unsignedLong.contains n)

/-- The integer of a type that a value becomes. An integer that does not fit is refused; of other
numbers the last bits of what is left without the fraction are kept. -/
def integerEntry (w : IntegerWidth) (v : Json α) : Checked α Int :=
  match v.integer? with
  | some n => if w.contains n then .ok n else .error .numberTooLarge
  | none => do
    let n ← v.readInteger
    if accepts w n then return w.wrap n else throw .numberTooLarge

end

/-- The array with entries of a type that nested lists describe. -/
def read (t : EntryType) (v : Json Float) : Checked Float (DataArray Float) := do
  let entries ← Tensor.ofNested v.toNested
  match t with
  | integer w => return .ints (← entries.mapChecked (integerEntry w))
  | flag => return .flags (entries.map Json.isTrue)
  | number f =>
    return .numbers ((← entries.mapChecked DataArray.entryNumber).map (Decimal.narrowed f))
  | text => return .texts (entries.map fun v => DataArray.fixedText v.display)
  | object => return .objects entries

end EntryType

end LocalMetric
