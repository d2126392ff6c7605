import LocalMetric.Proofs.Analyses
/-!
# Scatter matrices

Each entry of a scatter matrix is a mean over the points, so it does not see their order, nor that all
of them are repeated equally often. A linear map of the points and the anchor acts on it from both
sides. About the anchor it is the scatter matrix about the centroid and the square of the displacement
between the two, so it is never the smaller one.
-/
namespace LocalMetric

open Matrix

section Means

variable {k m n : ℕ}

noncomputable def Mat.mean (points : Mat ℝ m n) (f : Vector ℝ n → ℝ) : ℝ :=
  (∑ i, f (points.get i)) / m

/-- The points of a matrix, each of them a number of times, in any order. -/
def Mat.Repeats (points : Mat ℝ m n) (times : ℕ) (rows : Mat ℝ k n) : Prop :=
  rows.toList.Perm (points.toList.flatMap (List.replicate times))

/-- A sum over the rows of a matrix is a sum over the list of its rows. -/
theorem sum_rows (points : Mat ℝ m n) (f : Vector ℝ n → ℝ) :
    ∑ i, f (points.get i) = (points.toList.map f).sum := by
  rw [toList_eq_ofFn, List.map_ofFn, List.sum_ofFn]
  rfl

theorem sum_map_flatMap_replicate {β : Type} (f : β → ℝ) (times : ℕ) (xs : List β) :
    ((xs.flatMap (List.replicate times)).map f).sum = times * (xs.map f).sum := by
  induction xs with
  | nil => exact (mul_zero _).symm
  | cons x xs ih =>
      rw [List.flatMap_cons, List.map_append, List.sum_append, ih, List.map_replicate,
        List.sum_replicate, nsmul_eq_mul, List.map_cons, List.sum_cons, mul_add]

theorem Mat.repeats_one_iff {points : Mat ℝ m n} {rows : Mat ℝ k n} :
    points.Repeats 1 rows ↔ rows.toList.Perm points.toList := by
  rw [Repeats]
  exact iff_of_eq (congrArg _ (List.flatMap_singleton' _))

namespace Mat.Repeats

variable {points : Mat ℝ m n} {times : ℕ} {rows : Mat ℝ k n}

theorem count_eq (repeats : points.Repeats times rows) : k = times * m := by
  have lengths := repeats.length_eq
  rw [Vector.length_toList, List.length_flatMap] at lengths
  simpa [mul_comm] using lengths

theorem mean_eq (repeats : points.Repeats times rows) (positive : 0 < times) (f : Vector ℝ n → ℝ) :
    rows.mean f = points.mean f := by
  have factor : (times : ℝ) ≠ 0 := Nat.cast_ne_zero.mpr positive.ne'
  have total : ∑ i, f (rows.get i) = times * ∑ i, f (points.get i) := by
    rw [sum_rows, sum_rows, (repeats.map f).sum_eq, sum_map_flatMap_replicate]
  rw [mean, mean, total, repeats.count_eq, Nat.cast_mul, mul_div_mul_left _ _ factor]

end Mat.Repeats

end Means

section Entries

namespace Neighborhood

theorem entry_deviations (s : Neighborhood ℝ) (center : Center) (i : Fin s.count) (j : Fin s.dim) :
    (s.deviations center).entry i j = (s.points.get i).get j - (s.origin center).get j := by
  rw [Mat.entry, deviations, get_map, get_difference]

theorem get_centroid (s : Neighborhood ℝ) (j : Fin s.dim) :
    s.centroid.get j = s.points.mean fun x => x.get j := by
  rw [centroid, get_ofFn, sum_eq]
  rfl

theorem entry_scatter (s : Neighborhood ℝ) (center : Center) (r c : Fin s.dim) :
    (s.scatter center).entry r c = s.points.mean fun x =>
      (x.get r - (s.origin center).get r) * (x.get c - (s.origin center).get c) := by
  have entry := congrFun (congrFun (s.toMatrix_scatter center) r) c
  rw [Mat.toMatrix_apply, Matrix.smul_apply, Matrix.mul_apply, smul_eq_mul, ← div_eq_inv_mul] at entry
  rw [entry, Mat.mean]
  refine congrArg (· / (s.count : ℝ)) (Finset.sum_congr rfl fun i _ => ?_)
  rw [transpose_apply, Mat.toMatrix_apply, Mat.toMatrix_apply, entry_deviations, entry_deviations]

end Neighborhood

end Entries

section Repetition

variable {k m n times : ℕ} {anchor : Vector ℝ n} {points : Mat ℝ m n} {rows : Mat ℝ k n}

namespace Neighborhood

theorem origin_of_repeats (nonempty : 0 < m ∧ 0 < n) (nonempty' : 0 < k ∧ 0 < n)
    (positive : 0 < times) (repeats : points.Repeats times rows) (center : Center) :
    (ofRows anchor rows nonempty').origin center = (ofRows anchor points nonempty).origin center := by
  cases center with
  | anchor => rfl
  | centroid =>
      apply get_injective
      funext j
      have mean := repeats.mean_eq positive fun x => x.get j
      have centroid := get_centroid (ofRows anchor points nonempty) j
      exact (get_centroid (ofRows anchor rows nonempty') j).trans (mean.trans centroid.symm)

/-- Neither the order of the points nor a common number of repetitions shows in the scatter matrix. -/
theorem scatter_of_repeats (nonempty : 0 < m ∧ 0 < n) (nonempty' : 0 < k ∧ 0 < n)
    (positive : 0 < times) (repeats : points.Repeats times rows) (center : Center) :
    (ofRows anchor rows nonempty').scatter center = (ofRows anchor points nonempty).scatter center := by
  apply Mat.toMatrix_injective
  ext r c
  rw [Mat.toMatrix_apply, Mat.toMatrix_apply, entry_scatter, entry_scatter,
    origin_of_repeats nonempty nonempty' positive repeats]
  exact repeats.mean_eq positive _

end Neighborhood

end Repetition

section Images

variable {k m n : ℕ}

noncomputable def affine (map : Matrix (Fin k) (Fin n) ℝ) (shift : Fin k → ℝ) (x : Vector ℝ n) :
    Vector ℝ k :=
  Vector.ofFn (map *ᵥ x.get + shift)

variable (map : Matrix (Fin k) (Fin n) ℝ) (shift : Fin k → ℝ)

theorem get_affine (x : Vector ℝ n) : (affine map shift x).get = map *ᵥ x.get + shift := by
  funext i
  exact get_ofFn _ i

theorem get_difference_affine (x y : Vector ℝ n) :
    (difference (affine map shift x) (affine map shift y)).get = map *ᵥ (difference x y).get := by
  rw [get_difference_eq, get_difference_eq, get_affine, get_affine, mulVec_sub,
    add_sub_add_right_eq_sub]

variable (anchor : Vector ℝ n) (points : Mat ℝ m n) (nonempty : 0 < m ∧ 0 < n) (filled : 0 < k)

namespace Neighborhood

theorem get_centroid_eq_smul (s : Neighborhood ℝ) :
    s.centroid.get = (s.count : ℝ)⁻¹ • ∑ i, (s.points.get i).get := by
  funext j
  rw [get_centroid, Mat.mean, div_eq_inv_mul, Pi.smul_apply, Finset.sum_apply, smul_eq_mul]

theorem row_deviations (s : Neighborhood ℝ) (center : Center) (i : Fin s.count) :
    (s.deviations center).toMatrix i = (difference (s.points.get i) (s.origin center)).get :=
  congrArg Vector.get (get_map (difference · (s.origin center)) s.points i)

/-- The center of the images is the image of the center. -/
theorem origin_affine (center : Center) :
    (ofRows (affine map shift anchor) (points.map (affine map shift)) ⟨nonempty.1, filled⟩).origin
      center = affine map shift ((ofRows anchor points nonempty).origin center) := by
  cases center with
  | anchor => rfl
  | centroid =>
      have count : (m : ℝ) ≠ 0 := Nat.cast_ne_zero.mpr nonempty.1.ne'
      have total : ∑ i, ((points.map (affine map shift)).get i).get =
          map *ᵥ ∑ i, (points.get i).get + (m : ℝ) • shift := by
        simp only [get_map, get_affine]
        rw [Finset.sum_add_distrib, Finset.sum_const, Finset.card_univ, Fintype.card_fin,
          mulVec_sum, Nat.cast_smul_eq_nsmul]
      apply get_injective
      calc (ofRows (affine map shift anchor) (points.map (affine map shift))
              ⟨nonempty.1, filled⟩).centroid.get
          = (m : ℝ)⁻¹ • ∑ i, ((points.map (affine map shift)).get i).get := get_centroid_eq_smul _
        _ = map *ᵥ ((m : ℝ)⁻¹ • ∑ i, (points.get i).get) + shift := by
            rw [total, smul_add, inv_smul_smul₀ count, mulVec_smul]
        _ = (affine map shift (ofRows anchor points nonempty).centroid).get := by
            rw [get_affine, get_centroid_eq_smul]

theorem toMatrix_deviations_affine (center : Center) :
    ((ofRows (affine map shift anchor) (points.map (affine map shift)) ⟨nonempty.1, filled⟩).deviations
      center).toMatrix = ((ofRows anchor points nonempty).deviations center).toMatrix * mapᵀ := by
  funext i
  rw [row_deviations, origin_affine map shift anchor points nonempty filled, get_map,
    get_difference_affine, mul_apply_eq_vecMul, vecMul_transpose, row_deviations]

/-- A linear map of the points acts on the scatter matrix from both sides, and a shift not at all. -/
theorem toMatrix_scatter_affine (center : Center) :
    ((ofRows (affine map shift anchor) (points.map (affine map shift)) ⟨nonempty.1, filled⟩).scatter
      center).toMatrix = map * ((ofRows anchor points nonempty).scatter center).toMatrix * mapᵀ := by
  rw [toMatrix_scatter, toMatrix_scatter,
    toMatrix_deviations_affine map shift anchor points nonempty filled]
  simp only [transpose_mul, transpose_transpose, Matrix.mul_smul, Matrix.smul_mul, Matrix.mul_assoc]

end Neighborhood

end Images

section Centers

namespace Neighborhood

variable (s : Neighborhood ℝ)

noncomputable def eccentricity (s : Neighborhood ℝ) : Fin s.dim → ℝ := s.centroid.get - s.anchor.get

theorem deviations_anchor : (s.deviations .anchor).toMatrix =
    (s.deviations .centroid).toMatrix + Matrix.of fun _ => s.eccentricity := by
  ext i j
  rw [Matrix.add_apply, Mat.toMatrix_apply, Mat.toMatrix_apply, entry_deviations, entry_deviations]
  exact (sub_add_sub_cancel _ _ _).symm

/-- The deviations from the centroid add up to nothing, so they and the displacement of the centroid do
not mix. -/
theorem toMatrix_scatter_anchor : (s.scatter .anchor).toMatrix =
    (s.scatter .centroid).toMatrix + vecMulVec s.eccentricity s.eccentricity := by
  have count : (s.count : ℝ) ≠ 0 := Nat.cast_ne_zero.mpr s.nonempty.1.ne'
  have balanced (j : Fin s.dim) : ∑ i, (s.deviations .centroid).toMatrix i j = 0 := by
    have total := congrFun s.sum_row_deviations j
    rwa [Finset.sum_apply] at total
  ext r c
  rw [toMatrix_scatter, toMatrix_scatter, deviations_anchor]
  generalize (s.deviations .centroid).toMatrix = d at balanced
  simp only [Matrix.smul_apply, Matrix.add_apply, Matrix.mul_apply, transpose_apply, of_apply,
    vecMulVec_apply, smul_eq_mul]
  have mixed : ∑ i, (d i r + s.eccentricity r) * (d i c + s.eccentricity c) =
      ∑ i, d i r * d i c + (s.count : ℝ) * (s.eccentricity r * s.eccentricity c) := by
    simp only [add_mul, mul_add, Finset.sum_add_distrib, ← Finset.sum_mul, ← Finset.mul_sum, balanced,
      Finset.sum_const, Finset.card_univ, Fintype.card_fin, nsmul_eq_mul]
    ring
  rw [mixed, mul_add, inv_mul_cancel_left₀ count]

end Neighborhood

end Centers

section Arrays

theorem Tensor.toList_ofMat {α : Type} {m n : ℕ} (a : Mat α m n) :
    (Tensor.ofMat a).toList = a.entries :=
  List.flatMap_congr fun row _ => Tensor.toList_vector row

namespace Neighborhood

variable {s : Neighborhood ℝ} {anchor points : Tensor ℝ}

/-- The arrays that a neighborhood is read from: they have the same entries, and the points are the rows
of an array, or there is a single one. -/
structure ReadFrom (s : Neighborhood ℝ) (anchor points : Tensor ℝ) : Prop where
  shape : points.shape = [s.count, s.dim] ∨ points.shape = [s.dim] ∧ s.count = 1
  entries : points.toList = s.points.entries
  anchor : anchor.toList = s.anchor.toList

theorem readFrom_of_ofTensors (valid : ofTensors anchor points = .ok s) : s.ReadFrom anchor points := by
  obtain ⟨cloud, listed, around⟩ := Checked.bind_ok_iff.mp valid
  obtain ⟨rfl, anchored⟩ := Cloud.of_around around
  have given {m n : ℕ} {rows : Mat ℝ m n} (made : Cloud.ofMat rows = .ok s.toCloud) :
      s.points.entries = rows.entries ∧ s.count = m ∧ s.dim = n := by
    unfold Cloud.ofMat at made
    split at made
    · rw [← Except.ok.inj made]
      exact ⟨rfl, rfl, rfl⟩
    · cases made
  unfold Cloud.ofTensor at listed
  split at listed
  · rename_i dim point
    obtain ⟨entries, one, rfl⟩ := given listed
    have single : Mat.entries (#v[point] : Mat ℝ 1 s.dim) = Vector.toList point :=
      List.append_nil _
    refine ⟨.inr ⟨rfl, one⟩, ?_, anchored.symm⟩
    rw [entries, single]
    exact Tensor.toList_vector point
  · rename_i count dim rows
    obtain ⟨entries, rfl, rfl⟩ := given listed
    refine ⟨.inl rfl, ?_, anchored.symm⟩
    rw [entries]
    exact Tensor.toList_ofMat rows
  · split at listed
    · cases listed
    · cases listed

theorem scatterMatrix_of_ofTensors (valid : ofTensors anchor points = .ok s) (center : Center) :
    scatterMatrix anchor points center.name = .ok ⟨s.dim, s.dim, s.scatter center⟩ :=
  Checked.bind_ok_iff.mpr ⟨s, valid, Checked.bind_ok_iff.mpr ⟨center, Center.ofName_name _, rfl⟩⟩

/-- Any rows with the anchor of a neighborhood are a neighborhood. -/
theorem ofTensors_ofMat (anchored : anchor.toList = s.anchor.toList) {count : ℕ}
    (rows : Mat ℝ count s.dim) (filled : 0 < count) :
    ofTensors anchor (.ofMat rows) = .ok (.ofRows s.anchor rows ⟨filled, s.nonempty.2⟩) :=
  ofTensors_of_toList (.ofRows s.anchor rows ⟨filled, s.nonempty.2⟩) anchored

/-- The scatter matrix about a center: the means of the products of the deviations. The order of the
points and a common number of repetitions do not show in it, and a linear map of the points and the
anchor acts on it from both sides. -/
structure Scatters (s : Neighborhood ℝ) (anchor points : Tensor ℝ) (center : Center)
    (a : Mat ℝ s.dim s.dim) : Prop where
  answered : scatterMatrix anchor points center.name = .ok ⟨s.dim, s.dim, a⟩
  entry : ∀ r c, a.entry r c =
    (∑ i, ((s.points.get i).get r - (s.origin center).get r) *
      ((s.points.get i).get c - (s.origin center).get c)) / s.count
  symmetric : a.toMatrix.IsSymm
  semidefinite : a.toMatrix.PosSemidef
  permuted : ∀ rows : Mat ℝ s.count s.dim, rows.toList.Perm s.points.toList →
    scatterMatrix anchor (.ofMat rows) center.name = .ok ⟨s.dim, s.dim, a⟩
  repeated : ∀ times : ℕ, 0 < times → ∀ rows : Mat ℝ (times * s.count) s.dim,
    s.points.Repeats times rows →
    scatterMatrix anchor (.ofMat rows) center.name = .ok ⟨s.dim, s.dim, a⟩
  mapped : ∀ {k : ℕ}, 0 < k → ∀ (map : Matrix (Fin k) (Fin s.dim) ℝ) (shift : Fin k → ℝ),
    ∃ image : Mat ℝ k k,
      scatterMatrix ⟨[k], affine map shift s.anchor⟩ (.ofMat (s.points.map (affine map shift)))
        center.name = .ok ⟨k, k, image⟩ ∧
      image.toMatrix = map * a.toMatrix * mapᵀ

theorem scatters (valid : ofTensors anchor points = .ok s) (center : Center) :
    s.Scatters anchor points center (s.scatter center) := by
  have anchored := (readFrom_of_ofTensors valid).anchor
  have repeated {times count : ℕ} (positive : 0 < times) (rows : Mat ℝ count s.dim)
      (repeats : s.points.Repeats times rows) :
      scatterMatrix anchor (.ofMat rows) center.name = .ok ⟨s.dim, s.dim, s.scatter center⟩ := by
    have filled : 0 < count := repeats.count_eq ▸ Nat.mul_pos positive s.nonempty.1
    rw [scatterMatrix_of_ofTensors (ofTensors_ofMat anchored rows filled)]
    have same : (ofRows s.anchor rows ⟨filled, s.nonempty.2⟩).scatter center = s.scatter center :=
      scatter_of_repeats s.nonempty ⟨filled, s.nonempty.2⟩ positive repeats center
    exact congrArg (fun a : Mat ℝ s.dim s.dim => (.ok ⟨s.dim, s.dim, a⟩ : Checked ℝ (Grid ℝ))) same
  constructor
  · exact scatterMatrix_of_ofTensors valid center
  · exact s.entry_scatter center
  · exact s.scatter_isSymm center
  · exact s.posSemidef_scatter center
  · intro rows perm
    exact repeated Nat.one_pos rows (Mat.repeats_one_iff.mpr perm)
  · intro times positive rows repeats
    exact repeated positive rows repeats
  · intro k filled map shift
    exact ⟨_, scatterMatrix_of_ofTensors (ofTensors_self (.ofRows _ _ ⟨s.nonempty.1, filled⟩)) center,
      toMatrix_scatter_affine map shift s.anchor s.points s.nonempty filled center⟩

/-- Every neighborhood that passes its checks has a scatter matrix about each center. About the anchor
it is the one about the centroid and the square of the displacement between the two, so it dominates
it. -/
theorem scatter_laws (valid : ofTensors anchor points = .ok s) :
    s.ReadFrom anchor points ∧ (∀ center, s.Scatters anchor points center (s.scatter center)) ∧
    (∀ j, (s.origin .centroid).get j = (∑ i, (s.points.get i).get j) / s.count) ∧
    s.origin .anchor = s.anchor ∧
    (s.scatter .anchor).toMatrix = (s.scatter .centroid).toMatrix +
      vecMulVec (s.centroid.get - s.anchor.get) (s.centroid.get - s.anchor.get) ∧
    ((s.scatter .anchor).toMatrix - (s.scatter .centroid).toMatrix).PosSemidef := by
  have apart := s.toMatrix_scatter_anchor
  refine ⟨readFrom_of_ofTensors valid, scatters valid, s.get_centroid, rfl, apart, ?_⟩
  rw [apart, add_sub_cancel_left]
  simpa only [star_trivial] using posSemidef_vecMulVec_self_star s.eccentricity

noncomputable abbrev triple (x y z : Vector ℝ 2) : Neighborhood ℝ :=
  .ofRows (.replicate 2 0) #v[x, y, z] ⟨Nat.succ_pos 2, Nat.two_pos⟩

theorem get_centroid_triple (x y z : Vector ℝ 2) (j : Fin 2) :
    (triple x y z).centroid.get j = (x.get j + y.get j + z.get j) / 3 := by
  refine ((triple x y z).get_centroid j).trans ?_
  rw [Mat.mean, Fin.sum_univ_three]
  rfl

theorem scatter_laws_triple :
    ofTensors ⟨[2], (.replicate 2 0 : Vector ℝ 2)⟩
      (.ofMat (#v[#v[1, 0], #v[3, 0], #v[2, 3]] : Mat ℝ 3 2)) =
        .ok (triple #v[1, 0] #v[3, 0] #v[2, 3]) ∧
    scatterMatrix ⟨[2], (.replicate 2 0 : Vector ℝ 2)⟩
      (.ofMat (#v[#v[2, 3], #v[2, 3], #v[3, 0], #v[3, 0], #v[1, 0], #v[1, 0]] : Mat ℝ 6 2))
      "centroid" = .ok ⟨2, 2, (triple #v[1, 0] #v[3, 0] #v[2, 3]).scatter .centroid⟩ ∧
    ((triple #v[1, 0] #v[3, 0] #v[2, 3]).scatter .anchor).entry 0 1 =
      ((triple #v[1, 0] #v[3, 0] #v[2, 3]).scatter .centroid).entry 0 1 + 2 := by
  let s : Neighborhood ℝ := triple #v[1, 0] #v[3, 0] #v[2, 3]
  have valid : ofTensors ⟨[2], s.anchor⟩ (.ofMat s.points) = .ok s := s.ofTensors_self
  obtain ⟨_, scatters, _, _, apart, _⟩ := scatter_laws valid
  refine ⟨valid, (scatters .centroid).repeated 2 two_pos _ ?_, ?_⟩
  · exact List.reverse_perm (s.points.toList.flatMap (List.replicate 2))
  · have here := congrFun (congrFun apart (0 : Fin 2)) (1 : Fin 2)
    rw [Matrix.add_apply, vecMulVec_apply, Pi.sub_apply, Pi.sub_apply, get_centroid_triple,
      get_centroid_triple, get_replicate, get_replicate] at here
    norm_num [Vector.get] at here
    exact here

end Neighborhood

end Arrays

end LocalMetric
