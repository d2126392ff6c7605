import LocalMetric.Fault
import LocalMetric.Linear.Mat
/-!
# Arrays of any shape

An array knows its shape only when the program runs. Its entries are nested vectors, so an array of
two axes holds a matrix as it stands.
-/
namespace LocalMetric

/-- The entries of an array with the given lengths of its axes. -/
@[reducible] def Entries (α : Type) : List Nat → Type
  | [] => α
  | n :: shape => Vector (Entries α shape) n

/-- An array of any shape. -/
structure Tensor (α : Type) where
  shape : List Nat
  entries : Entries α shape

/-- Values in nested lists, as they are written down. -/
inductive Nested (α : Type) where
  | leaf (value : α)
  | node (items : List (Nested α))

namespace Entries

variable {α β : Type}

/-- All entries, the last axis running fastest. -/
def toList : (shape : List Nat) → Entries α shape → List α
  | [], x => [x]
  | _ :: shape, xs => (Vector.toList xs).flatMap (toList shape)

def map (f : α → β) : (shape : List Nat) → Entries α shape → Entries β shape
  | [], x => f x
  | _ :: shape, xs => Vector.map (map f shape) xs

/-- Applies a function that may refuse to every entry. -/
def mapChecked {γ : Type} (f : α → Checked γ β) :
    (shape : List Nat) → Entries α shape → Checked γ (Entries β shape)
  | [], x => f x
  | _ :: shape, xs => Vector.mapM (mapChecked f shape) xs

/-- Entries laid out one after the other: those of an axis are a stride apart. -/
def ofLayout (entry : Nat → α) : (shape strides : List Nat) → Nat → Entries α shape
  | [], _, offset => entry offset
  | n :: shape, strides, offset =>
    (Vector.ofFn fun i : Fin n => ofLayout entry shape strides.tail (offset + i * strides.headD 0) :
      Vector (Entries α shape) n)

def toNested : (shape : List Nat) → Entries α shape → Nested α
  | [], x => .leaf x
  | _ :: shape, xs => .node ((Vector.toList xs).map (toNested shape))

end Entries

namespace Tensor

variable {α β : Type}

def toList (t : Tensor α) : List α := t.entries.toList t.shape

def size (t : Tensor α) : Nat := t.shape.foldr (· * ·) 1

def rank (t : Tensor α) : Nat := t.shape.length

def map (f : α → β) (t : Tensor α) : Tensor β := ⟨t.shape, t.entries.map f t.shape⟩

def mapChecked {γ : Type} (f : α → Checked γ β) (t : Tensor α) : Checked γ (Tensor β) :=
  (t.entries.mapChecked f t.shape).map fun entries => ⟨t.shape, entries⟩

def toNested (t : Tensor α) : Nested α := t.entries.toNested t.shape

/-- The strides of entries that follow each other with the last axis running fastest. -/
def rowStrides : List Nat → List Nat
  | [] => []
  | _ :: shape => shape.foldr (· * ·) 1 :: rowStrides shape

/-- The strides of entries that follow each other with the first axis running fastest, which starts
with the given stride. -/
def columnStrides (stride : Nat) : List Nat → List Nat
  | [] => []
  | n :: shape => stride :: columnStrides (stride * n) shape

/-- An array of entries that follow each other, with the last axis running fastest or the first
one. -/
def ofEntries (shape : List Nat) (firstFastest : Bool) (entry : Nat → α) : Tensor α :=
  ⟨shape, Entries.ofLayout entry shape
    (if firstFastest then columnStrides 1 shape else rowStrides shape) 0⟩

def scalar (x : α) : Tensor α := ⟨[], x⟩

def ofList (xs : List α) : Tensor α := ⟨[xs.length], (⟨xs.toArray, by simp⟩ : Vector α xs.length)⟩

def ofMat {m n : Nat} (a : Mat α m n) : Tensor α := ⟨[m, n], a⟩

/-- Arrays of one shape, put side by side along a new first axis. -/
def stack (shape : List Nat) (ts : List (Tensor α)) : Option (Tensor α) :=
  (ts.mapM fun t => if h : t.shape = shape then some (h ▸ t.entries) else none).map fun items =>
    ⟨items.length :: shape, (⟨items.toArray, by simp⟩ : Vector (Entries α shape) items.length)⟩

mutual

/-- The array that nested lists describe, if at each depth all lists are equally long. -/
def ofNested? : Nested α → Option (Tensor α)
  | .leaf x => some (scalar x)
  | .node items => (ofItems? items).bind fun ts =>
    stack (match ts with | [] => [] | t :: _ => t.shape) ts

def ofItems? : List (Nested α) → Option (List (Tensor α))
  | [] => some []
  | item :: items => (ofNested? item).bind fun t => (ofItems? items).map (t :: ·)

end

/-- How many axes an array may have. -/
def axisLimit : Nat := 64

def ofNested {γ : Type} (values : Nested α) : Checked γ (Tensor α) :=
  match ofNested? values with
  | some t => if t.rank ≤ axisLimit then .ok t else .error .shapeMismatch
  | none => .error .shapeMismatch

/-- The items along the first axis before a position, if there is such an axis. -/
def firstItems? (d : Nat) : Tensor α → Option (Tensor α)
  | ⟨n :: shape, items⟩ => some ⟨min d n :: shape, Vector.take items d⟩
  | ⟨[], _⟩ => none

/-- The items along the second axis before a position, if there is such an axis. -/
def firstColumns? (d : Nat) : Tensor α → Option (Tensor α)
  | ⟨m :: n :: shape, rows⟩ =>
    some ⟨m :: min d n :: shape, Vector.map (fun row => Vector.take row d) rows⟩
  | _ => none

/-- The items along the second axis from a position on, if there is such an axis. -/
def otherColumns? (d : Nat) : Tensor α → Option (Tensor α)
  | ⟨m :: n :: shape, rows⟩ =>
    some ⟨m :: (n - d) :: shape, Vector.map (fun row => Vector.drop row d) rows⟩
  | _ => none

/-- The matrix of an array of two axes of the given lengths. -/
def asMat? (m n : Nat) : Tensor α → Option (Mat α m n)
  | ⟨[k, l], a⟩ => if h : k = m ∧ l = n then some (h.1 ▸ h.2 ▸ a) else none
  | _ => none

end Tensor

end LocalMetric
