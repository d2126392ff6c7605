import LocalMetric.Proofs.Neighbors
import LocalMetric.Proofs.ScatterMatrices
/-!
# Similar point sets

A similarity turns or mirrors points, enlarges them by a positive scale and moves them. Every stage of
the analysis follows along: distances are enlarged by the scale, so the same neighbors are found, the
deviations are turned and enlarged, and the scatter matrix is turned and enlarged by the square of the
scale.
-/
namespace LocalMetric

open Matrix

/-- A map of points that keeps the ratios of their distances. -/
structure Similarity (n : ℕ) where
  scale : ℝ
  turn : Matrix (Fin n) (Fin n) ℝ
  shift : Fin n → ℝ
  scale_pos : 0 < scale
  orthogonal : turnᵀ * turn = 1

namespace Similarity

variable {m n : ℕ}

noncomputable def apply (f : Similarity n) (x : Vector ℝ n) : Vector ℝ n :=
  Vector.ofFn (f.scale • f.turn *ᵥ x.get + f.shift)

theorem get_apply (f : Similarity n) (x : Vector ℝ n) :
    (f.apply x).get = f.scale • f.turn *ᵥ x.get + f.shift := by
  funext i
  exact get_ofFn _ i

theorem get_difference_apply (f : Similarity n) (x y : Vector ℝ n) :
    (difference (f.apply x) (f.apply y)).get = f.scale • f.turn *ᵥ (difference x y).get := by
  rw [get_difference_eq, get_difference_eq, get_apply, get_apply, mulVec_sub, smul_sub,
    add_sub_add_right_eq_sub]

theorem dotProduct_turn (f : Similarity n) (x y : Fin n → ℝ) :
    f.turn *ᵥ x ⬝ᵥ f.turn *ᵥ y = x ⬝ᵥ y := by
  rw [dotProduct_mulVec, ← mulVec_transpose, mulVec_mulVec, f.orthogonal, one_mulVec]

theorem sq_scale_pos (f : Similarity n) : 0 < f.scale ^ 2 := pow_pos f.scale_pos 2

theorem squaredNorm_difference_apply (f : Similarity n) (x y : Vector ℝ n) :
    squaredNorm (difference (f.apply x) (f.apply y)) =
      f.scale ^ 2 * squaredNorm (difference x y) := by
  rw [squaredNorm_eq, get_difference_apply, smul_dotProduct, dotProduct_smul, dotProduct_turn,
    squaredNorm_eq, smul_eq_mul, smul_eq_mul, ← mul_assoc, sq]

end Similarity

section Sets

variable {s : PointSet ℝ}

namespace PointSet

noncomputable abbrev image (s : PointSet ℝ) (f : Similarity s.dim) : PointSet ℝ where
  size := s.size
  dim := s.dim
  vectors := s.vectors.map f.apply
  ids := s.ids
  nonempty := s.nonempty
  ids_nodup := s.ids_nodup
  vectors_finite := Mat.allFinite_real _

variable (f : Similarity s.dim)

theorem row_image (id : Int) : (s.image f).row id = s.row id := by
  have rows : (s.image f).rowOf? id = s.rowOf? id := rfl
  unfold row
  rw [rows]
  cases s.rowOf? id with
  | none => rfl
  | some i => rfl

theorem get_image (i : Fin s.size) :
    (s.image f).vectors.get i = f.apply (s.vectors.get i) :=
  get_map _ _ i

theorem vector_image (id : Int) : (s.image f).vector id = (s.vector id).map f.apply := by
  unfold vector
  rw [row_image]
  cases s.row id with
  | error fault => rfl
  | ok i => exact congrArg Except.ok (get_image f i)

theorem rows_image {ids : List Int} {vectors : List (Vector ℝ s.dim)}
    (found : s.rows ids = .ok vectors) :
    (s.image f).rows ids = .ok (vectors.map f.apply) := by
  have related := Checked.mapM_ok_iff.mp found
  refine Checked.mapM_ok_iff.mpr (List.forall₂_map_right_iff.mpr ?_)
  exact related.imp fun id x here => by rw [vector_image, here]; rfl

theorem get_squaredDistances_image (i j : Fin s.size) :
    ((s.image f).squaredDistances i).get j = f.scale ^ 2 * (s.squaredDistances i).get j := by
  rw [get_squaredDistances, get_squaredDistances, get_image, get_image]
  exact f.squaredNorm_difference_apply _ _

/-- The order of the distances is the same, and rows at equal distances stay at equal distances. -/
theorem byDistance_image (i : Fin s.size) : (s.image f).byDistance i = s.byDistance i := by
  have compared (a b : Fin s.size) :
      decide (((s.image f).squaredDistances i).get a ≤ ((s.image f).squaredDistances i).get b) =
        decide ((s.squaredDistances i).get a ≤ (s.squaredDistances i).get b) := by
    rw [get_squaredDistances_image, get_squaredDistances_image]
    exact decide_eq_decide.mpr (mul_le_mul_iff_right₀ f.sq_scale_pos)
  unfold byDistance
  simp only [compared]

theorem nearest_image (id k : Int) : (s.image f).nearest id k = s.nearest id k := by
  unfold nearest
  simp only [row_image, byDistance_image]

theorem nearestStated_image (id : Int) (k : Quantity ℝ) :
    (s.image f).nearestStated id k = s.nearestStated id k := by
  unfold nearestStated
  simp only [row_image, nearest_image]

theorem within_image (id : Int) {radius : ℝ} (nonneg : 0 ≤ radius) :
    (s.image f).within id (f.scale * radius) = s.within id radius := by
  have near (i j : Fin s.size) : decide (((s.image f).squaredDistances i).get j ≤
      f.scale * radius * (f.scale * radius)) =
        decide ((s.squaredDistances i).get j ≤ radius * radius) := by
    rw [get_squaredDistances_image, mul_mul_mul_comm, ← sq]
    exact decide_eq_decide.mpr (mul_le_mul_iff_right₀ f.sq_scale_pos)
  unfold within
  rw [if_neg (not_lt.mpr (mul_nonneg f.scale_pos.le nonneg)), if_neg (not_lt.mpr nonneg)]
  simp only [row_image, byDistance_image, near]

end PointSet

namespace Reach

/-- As many nearest points, or all points in a radius that is enlarged by a scale. -/
noncomputable def scaled (scale : ℝ) : Reach ℝ → Reach ℝ
  | nearest count => nearest count
  | within radius => within (scale * radius)

/-- The points that are found around a point are those that were found before. -/
theorem ids_image {reach : Reach ℝ} {provider : Provider ℝ}
    (made : reach.provider = .ok provider) (f : Similarity s.dim) (id : Int) :
    (reach.scaled f.scale).ids (s.image f) id = reach.ids s id := by
  cases reach with
  | nearest count => exact PointSet.nearestStated_image f id _
  | within radius => exact PointSet.within_image f id (nonneg_of_made made)

end Reach

end Sets

section Neighborhoods

variable {m n : ℕ}

noncomputable def Mat.image (points : Mat ℝ m n) (f : Similarity n) : Mat ℝ m n :=
  points.map f.apply

/-- A similarity is a linear map with a shift. -/
theorem Similarity.apply_eq_affine (f : Similarity n) : f.apply = affine (f.scale • f.turn) f.shift := by
  funext x
  apply get_injective
  rw [get_apply, get_affine, smul_mulVec]

variable (anchor : Vector ℝ n) (points : Mat ℝ m n) (filled : 0 < m ∧ 0 < n) (f : Similarity n)

/-- The scatter matrix is turned and enlarged by the square of the scale. -/
theorem Neighborhood.toMatrix_scatter_image (center : Center) :
    ((ofRows (f.apply anchor) (points.image f) filled).scatter center).toMatrix =
      f.scale ^ 2 • (f.turn * ((ofRows anchor points filled).scatter center).toMatrix * f.turnᵀ) := by
  rw [Mat.image, f.apply_eq_affine, toMatrix_scatter_affine _ _ anchor points filled filled.2]
  simp only [transpose_smul, Matrix.mul_smul, Matrix.smul_mul, smul_smul, sq]

/-- Standard providers choose similar neighborhoods in similar point sets. -/
theorem Reach.exists_neighborhoods {s : PointSet ℝ} {reach : Reach ℝ} {provider other : Provider ℝ}
    (made : reach.provider = .ok provider) (whole : reach.Whole) (f : Similarity s.dim)
    (made' : (reach.scaled f.scale).provider = .ok other) {id : Int}
    (member : id ∈ s.ids.toList) :
    ∃ (m : ℕ) (anchor : Vector ℝ s.dim) (points : Mat ℝ m s.dim) (filled : 0 < m ∧ 0 < s.dim),
      provider.neighborhood s id = .ok (.ofRows anchor points filled) ∧
      other.neighborhood (s.image f) id = .ok (.ofRows (f.apply anchor) (points.image f) filled) := by
  obtain ⟨ids, found, around⟩ := exists_ids made whole member
  obtain ⟨m, points, positive, stacked⟩ := around.exists_rows
  obtain ⟨anchor, known⟩ := PointSet.exists_vector member
  have known' : (s.image f).vector id = .ok (f.apply anchor) := by
    rw [PointSet.vector_image, known]
    rfl
  have stacked' : (s.image f).rows ids = .ok (points.image f).toList := by
    rw [PointSet.rows_image f stacked, Mat.image, Vector.toList_map]
  refine ⟨m, anchor, points, ⟨positive, s.nonempty.2⟩, ?_, ?_⟩
  · exact Provider.neighborhood_of_rows (chosen_eq made found) known positive stacked
  · have found' := (ids_image made f id).trans found
    exact Provider.neighborhood_of_rows (chosen_eq made' found') known' positive stacked'

end Neighborhoods

end LocalMetric
