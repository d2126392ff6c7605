import LocalMetric.Linear.Tensor
/-!
# Arrays of different shapes

Axes are compared from the last one. An axis of a single item stands for one of any length, and a
missing axis for one of a single item. Two arrays whose axes agree in this sense are combined entry
by entry. In a product the last two axes are those of matrices, and the axes before them agree in
the same sense. Positions of an entry are listed from its last axis to its first.
-/
namespace LocalMetric

variable {α : Type}

namespace Entries

/-- The entries that a function of their positions gives; the positions along the axes outside are
listed already. -/
def ofPositions (f : List Nat → α) : (shape : List Nat) → (outside : List Nat) → Entries α shape
  | [], outside => f outside
  | n :: shape, outside =>
    (Vector.ofFn fun i : Fin n => ofPositions f shape (i.val :: outside) :
      Vector (Entries α shape) n)

/-- The entry at positions listed from the first axis on, if all of them are taken. -/
def entry? : (shape : List Nat) → Entries α shape → List Nat → Option α
  | [], x, _ => some x
  | n :: shape, xs, i :: positions =>
    ((Vector.toList xs)[if n = 1 then 0 else i]?).bind fun x => entry? shape x positions
  | _ :: _, _, [] => none

end Entries

/-- Axes, listed from the last one, for which the axes of both lists stand. -/
def commonAxes? : List Nat → List Nat → Option (List Nat)
  | [], ns => some ns
  | ms, [] => some ms
  | m :: ms, n :: ns =>
    if m = n ∨ n = 1 then (commonAxes? ms ns).map (m :: ·)
    else if m = 1 then (commonAxes? ms ns).map (n :: ·)
    else none

namespace Tensor

/-- The array with axes listed from the last one whose entries are given by their positions. -/
def ofPositions (axes : List Nat) (f : List Nat → α) : Tensor α :=
  ⟨axes.reverse, Entries.ofPositions f axes.reverse []⟩

/-- The array with its axes in reverse order. -/
def transpose [Scalar α] (t : Tensor α) : Tensor α :=
  ofPositions t.shape fun positions => (t.entries.entry? t.shape positions).getD 0

variable [Scalar α]

/-- The entry at positions, of which those before the first axis do not matter. -/
def entry (t : Tensor α) (positions : List Nat) : α :=
  (t.entries.entry? t.shape (positions.take t.rank).reverse).getD 0

/-- Combines the entries of two arrays, if their axes agree. -/
def combine? (f : α → α → α) (s t : Tensor α) : Option (Tensor α) :=
  (commonAxes? s.shape.reverse t.shape.reverse).map fun axes =>
    ofPositions axes fun positions => f (s.entry positions) (t.entry positions)

/-- The product of two arrays: sums of products of entries along the last axis of the first array
and the second last of the second one. An array of one axis is a row on the left and a column on the
right, and the product has no axis for it. -/
def product? (s t : Tensor α) : Option (Tensor α) :=
  match s.shape.reverse, t.shape.reverse with
  | k :: rows, [l] =>
    if k = l then some <| ofPositions rows fun positions =>
      sum fun x : Fin k => s.entry (x.val :: positions) * t.entry [x.val]
    else none
  | [k], n :: l :: others =>
    if k = l then some <| ofPositions (n :: others) fun positions =>
      sum fun x : Fin k => s.entry [x.val] *
        t.entry (positions.take 1 ++ x.val :: positions.drop 1)
    else none
  | k :: m :: ms, n :: l :: ns =>
    if k = l then (commonAxes? ms ns).map fun others =>
      ofPositions (n :: m :: others) fun positions =>
        sum fun x : Fin k => s.entry (x.val :: positions.drop 1) *
          t.entry (positions.take 1 ++ x.val :: positions.drop 2)
    else none
  | _, _ => none

/-- The only entry of an array, if it has no other. -/
def single? (t : Tensor α) : Option α :=
  match t.toList with
  | [x] => some x
  | _ => none

end Tensor

end LocalMetric
