import LocalMetric.Proofs.Preparations
/-!
# Analyses by structural recursion

Points are sorted by their distance and eigenvalues by their size with a recursion on the lengths of
lists, which does not unfold. The same lists come out of a structural recursion on a bound for the
length, so an analysis of the points within a radius can be followed down to its numbers.
-/
namespace LocalMetric

section Sorting

variable {β : Type} (le : β → β → Bool)

/-- Merges two lists that have at most so many items together. -/
def mergeWithin : ℕ → List β → List β → List β
  | 0, _, _ => []
  | _ + 1, [], ys => ys
  | _ + 1, xs, [] => xs
  | bound + 1, x :: xs, y :: ys =>
    if le x y then x :: mergeWithin bound xs (y :: ys) else y :: mergeWithin bound (x :: xs) ys

def sortWithin : ℕ → List β → List β
  | 0, _ => []
  | _ + 1, [] => []
  | _ + 1, [x] => [x]
  | bound + 1, x :: y :: rest =>
    let items := x :: y :: rest
    let half := (items.length + 1) / 2
    mergeWithin le items.length (sortWithin bound (items.take half))
      (sortWithin bound (items.drop half))

theorem merge_eq_mergeWithin {bound : ℕ} {xs ys : List β} (short : xs.length + ys.length ≤ bound) :
    xs.merge ys le = mergeWithin le bound xs ys := by
  fun_induction mergeWithin le bound xs ys with
  | case1 xs ys =>
      obtain ⟨rfl, rfl⟩ : xs = [] ∧ ys = [] := by
        simpa [← List.length_eq_zero_iff] using short
      exact List.nil_merge []
  | case2 bound ys => exact List.nil_merge ys
  | case3 bound xs => exact List.merge_right xs
  | case4 bound x xs y ys first ih =>
      rw [List.cons_merge_cons_pos le _ _ first, ih (by simp only [List.length_cons] at short ⊢; omega)]
  | case5 bound x xs y ys second ih =>
      rw [List.cons_merge_cons_neg le _ _ second, ih (by simp only [List.length_cons] at short ⊢; omega)]

theorem mergeSort_eq_sortWithin {bound : ℕ} {xs : List β} (short : xs.length ≤ bound) :
    xs.mergeSort le = sortWithin le bound xs := by
  induction bound generalizing xs with
  | zero =>
      obtain rfl := List.length_eq_zero_iff.mp (Nat.le_zero.mp short)
      exact List.mergeSort_nil
  | succ bound ih =>
      match xs with
      | [] => exact List.mergeSort_nil
      | [x] => exact List.mergeSort_singleton x
      | x :: y :: rest =>
        simp only [List.length_cons] at short
        have front : ((x :: y :: rest).take (((x :: y :: rest).length + 1) / 2)).length ≤ bound := by
          simp only [List.length_take, List.length_cons]
          omega
        have back : ((x :: y :: rest).drop (((x :: y :: rest).length + 1) / 2)).length ≤ bound := by
          simp only [List.length_drop, List.length_cons]
          omega
        rw [sortWithin, ← ih front, ← ih back, ← merge_eq_mergeWithin, List.mergeSort,
          List.MergeSort.Internal.splitInTwo_fst, List.MergeSort.Internal.splitInTwo_snd]
        rw [List.length_mergeSort, List.length_mergeSort, ← List.length_append, List.take_append_drop]

end Sorting

section Analyses

variable {α : Type} [Scalar α]

def descendingIndices {n : ℕ} (x : Vector α n) : List (Fin n) :=
  (sortWithin (fun i j => decide (x.get i ≤ x.get j)) n (List.finRange n)).reverse

theorem descendingOrder_eq {n : ℕ} (x : Vector α n) :
    ∃ length, descendingOrder x = ⟨(descendingIndices x).toArray, length⟩ := by
  have same : (descendingOrder x).toArray = (descendingIndices x).toArray :=
    congrArg (fun indices : List (Fin n) => indices.reverse.toArray)
      (mergeSort_eq_sortWithin _ List.length_finRange.le)
  exact ⟨same ▸ (descendingOrder x).size_toArray, Vector.toArray_inj.mp same⟩

theorem length_descendingIndices {n : ℕ} (x : Vector α n) :
    (descendingIndices x).toArray.size = n := by
  obtain ⟨length, _⟩ := descendingOrder_eq x
  exact length

def eigenpairsWithin {n : ℕ} (solver : Solver α) (a : Mat α n n) : Eigenpairs α n :=
  let (values, vectors) := solver.solve a.ofLowerTriangle
  let order : Vector (Fin n) n := ⟨(descendingIndices values).toArray, length_descendingIndices values⟩
  ⟨order.map values.get, vectors.map fun row => order.map row.get⟩

theorem sortedEigenpairs_eq {n : ℕ} (solver : Solver α) (a : Mat α n n) :
    sortedEigenpairs solver a = eigenpairsWithin solver a := by
  obtain ⟨length, same⟩ := descendingOrder_eq (solver.solve a.ofLowerTriangle).1
  unfold sortedEigenpairs
  dsimp only
  rw [same]
  rfl

def PointSet.nearby (s : PointSet α) (i : Fin s.size) (radius : α) : List (Fin s.size) :=
  let d := s.squaredDistances i
  (sortWithin (fun a b => decide (d.get a ≤ d.get b)) s.size (List.finRange s.size)).filter
    fun j => decide (d.get j ≤ radius * radius)

theorem PointSet.within_eq_nearby (s : PointSet α) (i : Fin s.size) {radius : α}
    (nonneg : ¬radius < 0) :
    s.within (s.ids.get i) radius = .ok ((s.nearby i radius).map s.ids.get) := by
  rw [within, if_neg nonneg, row_get]
  change Except.ok (((s.byDistance i).filter _).map _) = _
  rw [byDistance, mergeSort_eq_sortWithin _ List.length_finRange.le]
  rfl

def Neighborhood.analysed (hood : Neighborhood α) (solver : Solver α) (config : Config α) :
    Checked α (LocalPca α) := do
  let pairs := eigenpairsWithin solver (hood.scatter config.center)
  let eigenvalues := clampEigenvalues config.tolerance pairs.values.toList
  let d ← selectDimension config.threshold eigenvalues
  LocalPca.make eigenvalues ⟨hood.dim, hood.dim, pairs.vectors⟩
    (weightMatrix pairs.vectors d config.strong config.weak) d hood.count

theorem LocalPca.ofNeighborhood_eq (solver : Solver α) (config : Config α) (hood : Neighborhood α) :
    ofNeighborhood solver config hood = hood.analysed solver config := by
  unfold ofNeighborhood
  dsimp only
  rw [sortedEigenpairs_eq]
  rfl

def PointSet.analysed (s : PointSet α) (solver : Solver α) (config : Config α) (radius : α)
    (i : Fin s.size) : Checked α (LocalPca α) := do
  let points ← s.stacked ((s.nearby i radius).map s.ids.get)
  let hood ← Neighborhood.ofTensors ⟨[s.dim], s.vectors.get i⟩ points
  hood.analysed solver config

theorem Preprocessor.compute_eq_analysed {p : Preprocessor α} {radius : α}
    (made : Provider.within radius = .ok p.provider) (s : PointSet α) (i : Fin s.size) :
    p.compute s (s.ids.get i) = s.analysed p.solver p.config radius i := by
  rw [Provider.within] at made
  split at made
  · cases made
  rename_i nonneg
  have chosen : p.provider.points s (s.ids.get i) = s.stacked ((s.nearby i radius).map s.ids.get) := by
    rw [← Except.ok.inj made]
    change s.within (s.ids.get i) radius >>= s.stacked = _
    rw [s.within_eq_nearby i nonneg]
    rfl
  rw [compute, chosen, s.vector_get]
  simp only [PointSet.analysed, LocalPca.compute, ← LocalPca.ofNeighborhood_eq]
  rfl

end Analyses

end LocalMetric
