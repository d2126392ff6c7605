import LocalMetric.Associations
import LocalMetric.Json.Basic
import LocalMetric.Linear.DataArray
import LocalMetric.Path
/-!
# Values that runs write down

A run writes down more kinds of values than a JSON file can hold. The normal form of a value is
JSON: paths and names become strings, arrays become nested lists, and the keys of a dictionary
become strings.
-/
namespace LocalMetric

/-- A single entry taken out of an array, of a fixed width. -/
inductive Cell (α : Type) where
  | int (value : Int)
  | num (value : α)
  /-- A number of half the precision. -/
  | halved (value : α)
  | flag (value : Bool)

/-- A value without parts. -/
inductive Atom (α : Type) where
  | null
  | bool (value : Bool)
  | int (value : Int)
  | num (value : α)
  | text (value : String)
  | path (value : Path)
  /-- The kind of the outcomes of the local analysis. -/
  | localPca
  | readiness (value : Readiness)
  | cell (value : Cell α)

/-- A key of a dictionary: a value without parts, or a row of keys. -/
inductive Key (α : Type) where
  | atom (value : Atom α)
  | tuple (items : List (Key α))

/-- A value that a run writes down. -/
inductive Payload (α : Type) where
  | atom (value : Atom α)
  | array (values : DataArray α)
  | list (items : List (Payload α))
  | tuple (items : List (Payload α))
  | dict (entries : List (Key α × Payload α))

namespace Cell

variable {α : Type}

def toJson : Cell α → Json α
  | int n => .int n
  | num x => .num x
  | halved x => .num x
  | flag b => .bool b

/-- The text of an entry, with the name of its type. -/
def literal [Numeral α] : Cell α → String
  | int n => s!"np.int64({n})"
  | num x => s!"np.float64({Numeral.exact x})"
  | halved x => s!"np.float32({Numeral.exactHalved x})"
  | flag b => if b then "np.True_" else "np.False_"

end Cell

namespace Atom

variable {α : Type}

def toJson : Atom α → Json α
  | null => .null
  | bool b => .bool b
  | int n => .int n
  | num x => .num x
  | text s => .str s
  | path p => .str p.text
  | localPca => .str Kind.localPca.name
  | readiness r => .str r.name
  | cell c => c.toJson

def readinessText : Readiness → String
  | .unset => "PreprocessingState.UNSET"
  | .computing => "PreprocessingState.COMPUTING"
  | .ready => "PreprocessingState.READY"

/-- The text of the kind of the outcomes of the local analysis that stands as a key. -/
def localPcaText : String := "AssociationID.LOCAL_PCA"

def keyText [Numeral α] : Atom α → String
  | null => "None"
  | bool b | cell (.flag b) => if b then "True" else "False"
  | int n | cell (.int n) => toString n
  | num x | cell (.num x) => Numeral.exact x
  | cell (.halved x) => Numeral.exactHalved x
  | text s => s
  | path p => p.text
  | localPca => localPcaText
  | readiness r => readinessText r

/-- The text of a value inside a key that is a row: strings are quoted, and names come with what
they stand for. -/
def literal [Numeral α] : Atom α → String
  | text s => Text.quoted s
  | path p => "PosixPath(" ++ Text.quoted p.text ++ ")"
  | localPca => "<" ++ localPcaText ++ ": " ++ Text.quoted Kind.localPca.name ++ ">"
  | readiness r => "<" ++ readinessText r ++ ": " ++ Text.quoted r.name ++ ">"
  | cell c => c.literal
  | value => value.keyText

/-- What equal keys have in common: the integer or the number they are, a text, or themselves. -/
inductive Identity (α : Type) where
  | null
  | int (value : Int)
  | num (value : α)
  | text (value : String)
  | path (value : Path)
  | readiness (value : Readiness)

/-- A number as a key: whole numbers are integers. -/
def numberIdentity [Numeral α] (x : α) : Identity α :=
  match Numeral.integer? x with
  | some n => .int n
  | none => .num x

/-- What a key shares with the keys equal to it. Truth values count as zero and one. -/
def identity [Numeral α] : Atom α → Identity α
  | null => .null
  | bool b | cell (.flag b) => .int (if b then 1 else 0)
  | int n | cell (.int n) => .int n
  | num x | cell (.num x) | cell (.halved x) => numberIdentity x
  | text s => .text s
  | path p => .path p
  | localPca => .text Kind.localPca.name
  | readiness r => .readiness r

def Identity.agrees [BEq α] : Identity α → Identity α → Bool
  | .null, .null => true
  | .int m, .int n => m == n
  | .num x, .num y => x == y
  | .text s, .text t => s == t
  | .path p, .path q => decide (p = q)
  | .readiness r, .readiness s => decide (r = s)
  | _, _ => false

/-- Keys are equal if they stand for the same thing, such as `1`, `1.0` and true. -/
instance [Numeral α] [BEq α] : BEq (Atom α) where
  beq a b := a.identity.agrees b.identity

end Atom

namespace Key

variable {α : Type} [Numeral α]

mutual

def literal : Key α → String
  | atom value => value.literal
  | tuple items => Text.rowText (literals items)

def literals : List (Key α) → List String
  | [] => []
  | item :: items => literal item :: literals items

end

def text : Key α → String
  | atom value => value.keyText
  | tuple items => literal (tuple items)

mutual

/-- Whether two keys are equal; rows are if they agree item by item. -/
def agrees [BEq α] : Key α → Key α → Bool
  | atom a, atom b => a == b
  | tuple xs, tuple ys => agreeAll xs ys
  | _, _ => false

def agreeAll [BEq α] : List (Key α) → List (Key α) → Bool
  | [], [] => true
  | x :: xs, y :: ys => agrees x y && agreeAll xs ys
  | _, _ => false

end

instance [BEq α] : BEq (Key α) := ⟨agrees⟩

end Key

namespace Payload

variable {α : Type}

mutual

/-- The key that a value may be: it must not hold anything that may change. -/
def key? : Payload α → Option (Key α)
  | atom value => some (.atom value)
  | tuple items => (keys? items).map .tuple
  | _ => none

def keys? : List (Payload α) → Option (List (Key α))
  | [] => some []
  | item :: items => (key? item).bind fun k => (keys? items).map (k :: ·)

end

mutual

/-- How many lists, rows and dictionaries are inside each other. -/
def depth : Payload α → Nat
  | atom _ => 0
  | array _ => 0
  | list items => itemsDepth items + 1
  | tuple items => itemsDepth items + 1
  | dict entries => entriesDepth entries + 1

def itemsDepth : List (Payload α) → Nat
  | [] => 0
  | item :: items => max (depth item) (itemsDepth items)

def entriesDepth : List (Key α × Payload α) → Nat
  | [] => 0
  | (_, value) :: entries => max (depth value) (entriesDepth entries)

end

/-- How deep a tagged value that is read may be. -/
def depthLimit : Nat := 490

variable [Numeral α]

/-- A dictionary whose entries came one after the other. A key equal to an earlier one gives the
entry a new value and leaves the earlier key. -/
def ofEntries [BEq α] (entries : List (Key α × Payload α)) : Payload α :=
  .dict (mergeEntries entries)

mutual

/-- The normal form of a value. Of entries whose keys have one text, the last value stands in the
place of the first. -/
def toJson : Payload α → Json α
  | atom value => value.toJson
  | array values => values.toJson
  | list items => .arr (itemsToJson items)
  | tuple items => .arr (itemsToJson items)
  | dict entries => .obj (mergeEntries (entriesToJson entries))

def itemsToJson : List (Payload α) → List (Json α)
  | [] => []
  | item :: items => toJson item :: itemsToJson items

/-- The entries of a dictionary with their keys as texts. -/
def entriesToJson : List (Key α × Payload α) → List (String × Json α)
  | [] => []
  | (key, value) :: entries => (key.text, toJson value) :: entriesToJson entries

end

mutual

/-- A JSON value as a value to be written down. -/
def ofJson : Json α → Payload α
  | .null => .atom .null
  | .bool b => .atom (.bool b)
  | .int n => .atom (.int n)
  | .num x => .atom (.num x)
  | .str s => .atom (.text s)
  | .arr items => .list (ofJsonItems items)
  | .obj fields => .dict (ofJsonFields fields)

def ofJsonItems : List (Json α) → List (Payload α)
  | [] => []
  | item :: items => ofJson item :: ofJsonItems items

def ofJsonFields : List (String × Json α) → List (Key α × Payload α)
  | [] => []
  | (name, value) :: fields => (.atom (.text name), ofJson value) :: ofJsonFields fields

end

end Payload

end LocalMetric
