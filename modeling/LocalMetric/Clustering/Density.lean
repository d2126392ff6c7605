import LocalMetric.Linear.Mat
/-!
# Density clustering

A point is a core point if enough points of its row, itself included, lie within a radius. Clusters
grow from core points, in the order of their rows: a cluster takes every free point that a chain of
its core points reaches. Points that no cluster takes are noise.
-/
namespace LocalMetric.Density

variable {α : Type} [Scalar α] {n : Nat}

def noise : Int := -1

def nearness (d : Mat α n n) (radius : α) : Mat Bool n n :=
  d.map fun row => row.map fun x => decide (x ≤ radius)

def corePoints (near : Mat Bool n n) (minimum : Nat) : Vector Bool n :=
  near.map fun row => decide (minimum ≤ row.toList.count true)

/-- Adds to the taken points every free point within the radius of a taken core point. -/
def spread (near : Mat Bool n n) (core free taken : Vector Bool n) : Vector Bool n :=
  Vector.ofFn fun j => taken.get j ||
    (free.get j && (List.finRange n).any fun i => taken.get i && core.get i && near.entry i j)

/-- Spreads until nothing is added, at most the given number of times. -/
def flood (near : Mat Bool n n) (core free : Vector Bool n) : Nat → Vector Bool n → Vector Bool n
  | 0, taken => taken
  | rounds + 1, taken =>
    let next := spread near core free taken
    if next = taken then taken else flood near core free rounds next

/-- The labels given so far, and the label of the next cluster. -/
structure Growth (n : Nat) where
  labels : Vector Int n
  next : Nat

/-- Grows a cluster from a core point that is still free. -/
def grow (near : Mat Bool n n) (core : Vector Bool n) (g : Growth n) (seed : Fin n) : Growth n :=
  if core.get seed && g.labels.get seed == noise then
    let free := g.labels.map (· == noise)
    let start := Vector.ofFn fun j : Fin n => decide (j = seed)
    let taken := flood near core free n start
    ⟨Vector.ofFn fun j => if taken.get j then g.next else g.labels.get j, g.next + 1⟩
  else g

/-- The cluster of each point. -/
def labels (d : Mat α n n) (radius : α) (minimum : Nat) : Vector Int n :=
  let near := nearness d radius
  let core := corePoints near minimum
  ((List.finRange n).foldl (grow near core) ⟨Vector.replicate n noise, 0⟩).labels

end LocalMetric.Density
