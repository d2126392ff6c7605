import LocalMetric.Linear.Broadcast
/-!
# Weight matrices

A weight matrix adds up the squares of a displacement's components along given directions, the first
ones with the strong weight and the others with the weak one.
-/
namespace LocalMetric

variable {α : Type} [Scalar α] {m n : Nat}

/-- How many of `n` items the bound `d` takes from the front; a negative bound counts from the
end. -/
def frontCount (n : Nat) (d : Int) : Nat := if d < 0 then (n + d).toNat else min d.toNat n

/-- The weight of each direction. -/
def directionWeight (n : Nat) (d : Int) (strong weak : α) (j : Fin n) : α :=
  if j.val < frontCount n d then strong else weak

/-- The matrix of the weighted sum of squares along the columns of `v`. -/
def weightMatrix (v : Mat α m n) (d : Int) (strong weak : α) : Mat α m m :=
  Mat.symmetricPart <| Mat.ofFn fun r c =>
    sum fun j => v.entry r j * directionWeight n d strong weak j * v.entry c j

/-- The weight matrix along the columns in an array. An array of more axes has its directions along
the second axis, and what stands for the matrix is an array, too. -/
def weightArray (v : Tensor α) (d : Int) (strong weak : α) : Checked α (Tensor α) :=
  match v with
  | ⟨[_, _], columns⟩ => .ok (.ofMat (weightMatrix columns d strong weak))
  | ⟨_ :: n :: _, _⟩ =>
    let weights := Tensor.ofList (List.ofFn (directionWeight n d strong weak))
    let sums := do
      let form ← (← Tensor.combine? (· * ·) v weights).product? v.transpose
      Tensor.combine? (fun x y => 0.5 * (x + y)) form form.transpose
    match sums with
    | some values => .ok values
    | none => .error .shapeMismatch
  | _ => .error .missingAxis

end LocalMetric
