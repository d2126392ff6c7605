import LocalMetric.Linear.Broadcast
/-!
# Weighted lengths and distances

A weight matrix gives a displacement a length. Each of two points measures the displacement between
them with its own matrix, and their distance is the larger of the two lengths, so it is symmetric.
-/
namespace LocalMetric

variable {α : Type} [Scalar α] {n : Nat}

/-- The length with a given square. A form that rounding has pushed below zero, or that is not
comparable, gives zero. -/
def formLength (value : α) : α := if 0 < value then Scalar.sqrt value else 0

def weightedLength (delta : Vector α n) (weights : Mat α n n) : α :=
  formLength (weights.quadraticForm delta)

/-- The larger of the lengths of the displacement under the matrices of both points. -/
def weightedDistance (p q : Vector α n) (weightsP weightsQ : Mat α n n) : α :=
  let delta := difference p q
  Scalar.larger (weightedLength delta weightsP) (weightedLength delta weightsQ)

/-- The value of a quadratic form whose displacement or matrix is an array of another shape, if the
products exist and leave a single value. -/
def formOf (delta weights : Tensor α) : Checked α α :=
  match (delta.product? weights).bind (·.product? delta) with
  | none => .error .shapeMismatch
  | some values =>
    match values.single? with
    | some value => .ok value
    | none => .error .notSingle

/-- The length of a displacement under the matrix in an array. -/
def lengthOf (delta weights : Tensor α) : Checked α α :=
  match delta with
  | ⟨[n], x⟩ =>
    match weights.asMat? n n with
    | some a => .ok (weightedLength x a)
    | none => (formOf delta weights).map formLength
  | _ => (formOf delta weights).map formLength

/-- The distance between the points in two arrays under the matrices in two others. -/
def distanceOf (p q weightsP weightsQ : Tensor α) : Checked α α := do
  match Tensor.combine? (· - ·) p q with
  | none => throw .shapeMismatch
  | some delta => return Scalar.larger (← lengthOf delta weightsP) (← lengthOf delta weightsQ)

end LocalMetric
