import LocalMetric.Decimal.Reading
import LocalMetric.Linear.DataArray
/-!
# Array files

An array in a file: a mark, the version of the format, a header that tells the type of the entries,
their order and the shape, and then the entries, each in a fixed number of bytes.
-/
namespace LocalMetric.ArrayFile

/-! ## Bytes -/

/-- The bytes of a number, the least significant one first. -/
def littleEndian : (width n : Nat) → List UInt8
  | 0, _ => []
  | width + 1, n => UInt8.ofNat (n % 256) :: littleEndian width (n / 256)

def ofLittleEndian : List UInt8 → Nat
  | [] => 0
  | b :: bs => b.toNat + 256 * ofLittleEndian bs

/-! ## Headers -/

/-- The bytes that every array file starts with. -/
def mark : List UInt8 := [0x93, 0x4e, 0x55, 0x4d, 0x50, 0x59]

/-- What a header tells. -/
structure Header where
  /-- The type of the entries: their byte order, their kind and their width. -/
  entryType : String
  /-- Whether the first axis runs fastest. -/
  firstFastest : Bool
  shape : List Nat

def Header.text (h : Header) : String :=
  "\x7b'descr': '" ++ h.entryType ++ "', 'fortran_order': " ++
    (if h.firstFastest then "True" else "False") ++ ", 'shape': " ++ Text.shapeText h.shape ++
    ", \x7d"

/-- The header padded with blanks, so that the entries start at a multiple of sixty-four bytes, with
the end of a line. -/
def Header.padded (h : Header) : List Char :=
  let cs := h.text.toList
  let blanks := (64 - (cs.length + 11) % 64) % 64
  cs ++ List.replicate blanks ' ' ++ ['\n']

/-- The text behind the first occurrence of a name in quotes, a colon and blanks. -/
def behind? (name text : String) : Option String :=
  match text.splitOn ("'" ++ name ++ "':") with
  | _ :: rest :: _ => some rest.trimAsciiStart.toString
  | _ => none

/-- The numbers in a text that starts with parentheses around them. -/
def shape? (text : String) : Option (List Nat) := do
  guard (text.startsWith "(")
  let inside := ((text.drop 1).toString.splitOn ")").headD ""
  let parts := ((inside.splitOn ",").map fun part => part.trimAscii.toString).filter (· ≠ "")
  parts.mapM String.toNat?

def Header.read? (text : String) : Option Header := do
  let entryType ← ((← behind? "descr" text).splitOn "'")[1]?
  let order ← behind? "fortran_order" text
  let shape ← shape? (← behind? "shape" text)
  return { entryType, firstFastest := order.startsWith "True", shape }

/-! ## Files -/

/-- The bytes of an array of doubles. -/
def encode (t : Tensor Float) : ByteArray :=
  let header := Header.padded { entryType := "<f8", firstFastest := false, shape := t.shape }
  let entries := t.toList.flatMap fun x => littleEndian 8 x.toBits.toNat
  ⟨(mark ++ [1, 0] ++ littleEndian 2 header.length ++
    header.map (fun (c : Char) => UInt8.ofNat c.toNat) ++ entries).toArray⟩

def slice (bytes : ByteArray) (start count : Nat) : List UInt8 :=
  (bytes.extract start (start + count)).toList

def header? (bytes : ByteArray) : Option (Header × Nat) := do
  guard (slice bytes 0 6 = mark)
  let width := if slice bytes 6 1 = [1] then 2 else 4
  let length := ofLittleEndian (slice bytes 8 width)
  let text := String.ofList ((slice bytes (8 + width) length).map fun b => Char.ofNat b.toNat)
  return (← Header.read? text, 8 + width + length)

/-- A binary number of a format in a number of bytes. -/
def floatOf (f : Decimal.BinaryFormat) (bits : Nat) : Float :=
  Float.ofBits (UInt64.ofNat (Decimal.BinaryFormat.double.encode (f.decode bits)))

/-- The text that four bytes for each of its characters stand for, without the zeros at its end. -/
def textOf (codes : List Nat) : String :=
  DataArray.fixedText (String.ofList (codes.map Char.ofNat))

/-- Reads an array of integers, truth values, binary numbers or texts. -/
def decode? (bytes : ByteArray) : Option (DataArray Float) := do
  let (h, start) ← header? bytes
  let order ← h.entryType.toList[0]?
  let kind ← h.entryType.toList[1]?
  let width ← (h.entryType.drop 2).toString.toNat?
  let size := if kind = 'U' then 4 * width else width
  guard (start + size * h.shape.foldr (· * ·) 1 ≤ bytes.size)
  -- the number in a row of bytes
  let number (place count : Nat) : Nat :=
    let bs := slice bytes place count
    ofLittleEndian (if order = '>' then bs.reverse else bs)
  let array {β : Type} (entry : Nat → β) : Tensor β :=
    Tensor.ofEntries h.shape h.firstFastest fun i => entry (start + size * i)
  match kind, width with
  | 'f', 8 => return .numbers (array fun p => Float.ofBits (UInt64.ofNat (number p 8)))
  | 'f', 4 => return .numbers (array fun p => floatOf .single (number p 4))
  | 'f', 2 => return .numbers (array fun p => floatOf .half (number p 2))
  | 'i', _ => return .ints (array fun p => IntegerWidth.wrap ⟨true, 8 * width⟩ (number p width))
  | 'u', _ => return .ints (array fun p => Int.ofNat (number p width))
  | 'b', 1 => return .flags (array fun p => number p 1 ≠ 0)
  | 'U', _ => return .texts (array fun p =>
      textOf ((List.range width).map fun i => number (p + 4 * i) 4))
  | _, _ => none

end LocalMetric.ArrayFile
