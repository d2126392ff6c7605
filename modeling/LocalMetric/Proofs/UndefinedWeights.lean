import LocalMetric.Proofs.Neighbors
import LocalMetric.Proofs.SpecialValues
/-!
# Weights that are not finite

Along an axis the components across it are zero, and zero times a weight that is not finite is
undefined. So a preprocessor that finds its directions along the axes of a plane leaves weight
matrices whose forms are all undefined, and no distance means anything.
-/
namespace LocalMetric

open Extended

section Infinite

variable {n : ℕ}

namespace Extended

theorem zero_mul_mul_of_not_finite {w : Extended} (infinite : ¬Scalar.isFinite w = true) (x : ℝ) :
    real 0 * w * real x = undefined := by
  cases w with
  | real => exact absurd rfl infinite
  | infinite negative =>
      change mul (scale 0 negative) (real x) = undefined
      rw [scale, if_pos rfl]
      rfl
  | undefined => rfl

theorem mul_mul_zero_of_not_finite {w : Extended} (infinite : ¬Scalar.isFinite w = true) :
    real 1 * w * real 0 = undefined := by
  cases w with
  | real => exact absurd rfl infinite
  | infinite negative =>
      change mul (scale 1 negative) (real 0) = undefined
      rw [scale, if_neg one_ne_zero]
      exact if_pos rfl
  | undefined => rfl

theorem undefined_add (x : Extended) : undefined + x = undefined := rfl

theorem add_undefined (x : Extended) : x + undefined = undefined := by
  cases x <;> rfl

theorem mul_undefined (x : Extended) : x * undefined = undefined := by
  cases x <;> rfl

theorem undefined_mul (x : Extended) : undefined * x = undefined := rfl

/-- One undefined term leaves a sum undefined. -/
theorem sum_undefined {f : Fin n → Extended} {j : Fin n} (term : f j = undefined) :
    sum f = undefined := by
  induction n with
  | zero => exact j.elim0
  | succ n ih =>
      rw [sum, Fin.foldl_succ_last]
      cases j using Fin.lastCases with
      | last => rw [term, add_undefined]
      | cast j =>
          have before : Fin.foldl n (fun total i => total + f i.castSucc) 0 = undefined :=
            ih (f := fun i => f i.castSucc) term
          rw [before, undefined_add]

end Extended

/-- One undefined entry leaves a form undefined. -/
theorem Mat.quadraticForm_undefined {w : Mat Extended n n} {i j : Fin n}
    (entry : w.entry i j = undefined) (x : Vector Extended n) :
    w.quadraticForm x = undefined := by
  apply sum_undefined (j := j)
  rw [sum_undefined (j := i), undefined_mul]
  rw [entry, mul_undefined]

theorem Database.Site.blurred_of_undefined {a b : Site Extended n} {i j k l : Fin n}
    (atA : a.weights.entry i j = undefined) (atB : b.weights.entry k l = undefined)
    (distinct : ∃ k, (a.vector.get k == b.vector.get k) = false) : a.Blurred b := by
  have unordered : ¬(0 : Extended) < undefined := id
  have unordered' : ¬undefined < (0 : Extended) := id
  have length {a b : Site Extended n} {i j : Fin n} (entry : a.weights.entry i j = undefined) :
      a.lengthTo b = undefined := by
    rw [lengthTo, Mat.quadraticForm_undefined entry, Scalar.nonNegative, if_neg unordered']
    rfl
  have zero : weightedDistance a.vector b.vector a.weights b.weights = real 0 := by
    rw [weightedDistance, weightedLength, weightedLength, Mat.quadraticForm_undefined atA,
      Mat.quadraticForm_undefined atB, formLength, if_neg unordered]
    exact (larger_real 0 0).trans (congrArg real (by rw [Scalar.larger_eq_max, max_self]))
  refine ⟨?_, ?_, ?_, distinct⟩
  · have larger : Scalar.largerOrNaN undefined undefined = undefined := by
      have differs : ¬(undefined == undefined) = true := fun equal => (beq_iff.mp equal).2 rfl
      rw [Scalar.largerOrNaN, if_neg differs]
    rw [length atA, length atB, larger, isUndefined_undefined]
  · rw [zero]
    exact real_beq_real.mpr rfl
  · rw [zero, isUndefined_real]

/-- Along the axes of the plane a weight that is not finite is met with a factor of zero. -/
theorem entry_weightMatrix_undefined {v : Mat ℝ 2 2}
    (axes : ∀ j, ∃ axis, ∀ i, v.entry i j = if i = axis then 1 else 0) {d : Int}
    {strong weak : Extended} {j : Fin 2}
    (infinite : ¬Scalar.isFinite (directionWeight 2 d strong weak j) = true) :
    (weightMatrix v.lift d strong weak).entry 0 1 = undefined := by
  have apart : (1 : Fin 2) ≠ 0 := by decide
  have term : v.lift.entry 0 j * directionWeight 2 d strong weak j * v.lift.entry 1 j =
      undefined := by
    obtain ⟨axis, along⟩ := axes j
    rw [Mat.entry_lift, Mat.entry_lift, along, along]
    obtain rfl | rfl : axis = 0 ∨ axis = 1 := by omega
    · rw [if_pos rfl, if_neg apart]
      exact mul_mul_zero_of_not_finite infinite
    · rw [if_pos rfl, if_neg apart.symm]
      exact zero_mul_mul_of_not_finite infinite 1
  rw [weightMatrix, Mat.symmetricPart, Mat.entry_ofFn, Mat.entry_ofFn, sum_undefined term,
    undefined_add, mul_undefined]

end Infinite

section Plane

open Classical in
/-- An exact solver that answers a matrix of zeros with the axes. -/
noncomputable def Solver.axial : Solver ℝ where
  solve a := if a.toMatrix = 0 then (Vector.ofFn 0, Mat.identity) else Solver.spectral.solve a

theorem Solver.solve_axial {n : ℕ} {a : Mat ℝ n n} (flat : a.toMatrix = 0) :
    axial.solve a = (Vector.ofFn 0, Mat.identity) :=
  if_pos flat

theorem Solver.axial_exact : Solver.axial.Exact := by
  intro n a symmetric
  by_cases flat : a.toMatrix = 0
  · have values : (Vector.ofFn 0 : Vector ℝ n).get = 0 := funext fun i => get_ofFn _ i
    have axes : (Mat.identity : Mat ℝ n n).toMatrix = 1 := by
      ext i j
      rw [Mat.identity, Mat.toMatrix_ofFn, Matrix.of_apply, Matrix.one_apply]
    refine ⟨⟨?_, ?_⟩, ?_⟩
    · rw [solve_axial flat, axes, Matrix.transpose_one, Matrix.mul_one]
    · rw [solve_axial flat, flat, axes, values, Matrix.mul_one, Matrix.one_mul]
      exact Matrix.diagonal_zero.symm
    · rw [solve_axial flat, values]
      exact monotone_const
  · have answer : axial.solve a = spectral.solve a := if_neg flat
    have resolves := spectral_exact a symmetric
    exact ⟨by rw [answer]; exact resolves.pairs, by rw [answer]; exact resolves.ascending⟩

def Preprocessor.solitary {α : Type} [Scalar α] (solver : Solver α) (config : Config α) :
    Preprocessor α :=
  { surveying solver config with provider := ⟨fun s id => s.stacked [id], .null, none⟩ }

noncomputable abbrev Neighborhood.lone {n : ℕ} (x : Vector ℝ n) (positive : 0 < n) :
    Neighborhood ℝ :=
  .ofRows x #v[x] ⟨Nat.one_pos, positive⟩

theorem Neighborhood.toMatrix_scatter_lone {n : ℕ} (x : Vector ℝ n) (positive : 0 < n)
    (center : Center) : ((lone x positive).scatter center).toMatrix = 0 := by
  cases center with
  | centroid => exact toMatrix_scatter_of_alone rfl
  | anchor =>
      have nothing : ((lone x positive).deviations .anchor).toMatrix = 0 := by
        ext i j
        have row : ((lone x positive).deviations .anchor).get i = difference x x := by
          cases Fin.fin_one_eq_zero i
          exact get_map _ _ 0
        rw [Mat.toMatrix_apply, Mat.entry, row, get_difference, sub_self]
        rfl
      rw [toMatrix_scatter, nothing, Matrix.mul_zero, smul_zero]

theorem clampAt_zero (bound : Extended) : clampAt bound (real 0) = real 0 := by
  unfold clampAt Scalar.nonNegative
  split
  · rfl
  · exact if_neg (lt_irrefl (0 : ℝ))

theorem selectDimension_zeros (t : ℝ) : selectDimension (real t) [real 0, real 0] = .ok 1 := by
  have small : (1e-12 : Extended) = real 1e-12 := rfl
  have target : real t * real 0 - 1e-12 * real 0 = real 0 := by
    rw [small, real_mul_real, real_mul_real, real_sub_real, mul_zero, mul_zero, sub_zero]
  have first : (0 : Extended) + real 0 = real 0 := congrArg real (zero_add 0)
  have second : real 0 + real 0 = real 0 := congrArg real (zero_add 0)
  have reached : decide (real 0 ≤ real 0) = true := decide_eq_true (real_le_real.mpr le_rfl)
  simp only [selectDimension, runningSums, first, second, List.getLast?_cons_cons,
    List.getLast?_singleton, target, List.findIdx?_cons, reached, if_true, Option.getD_some]

theorem Preprocessor.neighborhood_solitary (solver : Solver Extended) (config : Config Extended)
    {s : PointSet ℝ} {id : Int} {x : Vector ℝ s.dim} (found : s.vector id = .ok x) :
    (solitary solver config).provider.neighborhood s.lift id =
      .ok (Neighborhood.lone x s.nonempty.2).lift := by
  have known := PointSet.vector_lift found
  have listed : List.Forall₂ (fun i v => s.lift.vector i = .ok v) [id] [liftVector x] :=
    .cons known .nil
  have rows : s.lift.rows [id] = .ok (Mat.lift #v[x]).toList := by
    rw [Mat.lift, Vector.toList_map]
    exact Checked.mapM_ok_iff.mpr listed
  refine Checked.bind_ok_iff.mpr ⟨_, PointSet.stacked_of_rows rows, ?_⟩
  refine Checked.bind_ok_iff.mpr ⟨_, known, ?_⟩
  exact Neighborhood.ofTensors_self (Neighborhood.lone x s.nonempty.2).lift

theorem Config.Accepted.exists_threshold {c : Config Extended} (accepted : c.Accepted) :
    ∃ share : ℝ, c.threshold = real share := by
  obtain ⟨⟨positive, below⟩, _⟩ := Config.accepted_iff_checks.mp accepted
  cases known : c.threshold with
  | real share => exact ⟨share, rfl⟩
  | infinite negative =>
      rw [known] at positive below
      have first : negative = false := positive
      rcases below with second | same
      · have second : negative = true := second
        rw [first] at second
        cases second
      · cases same.1
  | undefined =>
      rw [known] at positive
      exact positive.elim

/-- A point alone has no scatter in any direction, and its directions are those of the axes. -/
theorem Neighborhood.pairs_lone {n : ℕ} (x : Vector ℝ n) (positive : 0 < n) (center : Center)
    (j : Fin n) : ((lone x positive).pairs .axial center).values.get j = 0 ∧
      ∃ axis, ∀ i, ((lone x positive).pairs .axial center).vectors.entry i j =
        if i = axis then 1 else 0 := by
  have answer : Solver.axial.solve ((lone x positive).scatter center).ofLowerTriangle =
      (Vector.ofFn 0, Mat.identity) := by
    rw [Mat.ofLowerTriangle_eq _ ((lone x positive).scatter_isSymm center),
      Solver.solve_axial (toMatrix_scatter_lone x positive center)]
  refine ⟨?_, (descendingOrder (Vector.ofFn (0 : Fin n → ℝ))).get j, fun i => ?_⟩
  · rw [pairs, get_sortedEigenpairs, answer, get_ofFn]
    rfl
  · rw [pairs, entry_sortedEigenpairs, answer, Mat.identity, Mat.entry_ofFn]

section Lone

variable {x : Vector ℝ 2} {c : Config Extended} {r : LocalPca Extended}

/-- Without scatter one direction explains everything. -/
theorem Neighborhood.Analyzed.dimension_lone
    (analyzed : (Neighborhood.lone x Nat.two_pos).lift.Analyzed Solver.axial.lift c r)
    (accepted : c.Accepted) : r.correlationDimension = 1 := by
  obtain ⟨share, known⟩ := accepted.exists_threshold
  have zero (j : Fin 2) := (pairs_lone x Nat.two_pos c.center j).1
  have selected := analyzed.selected
  rw [analyzed.eigenvalues, pairs_lift _ (fun a _ => Solver.axial.solve_lift a), toList_eq_ofFn,
    List.ofFn_succ, List.ofFn_succ, List.ofFn_zero, get_liftVector, get_liftVector, zero, zero,
    clampEigenvalues, List.map_cons, List.map_cons, List.map_nil, clampAt_zero, known,
    selectDimension_zeros] at selected
  exact (Except.ok.inj selected).symm

theorem Neighborhood.Analyzed.exists_undefined
    (analyzed : (Neighborhood.lone x Nat.two_pos).lift.Analyzed Solver.axial.lift c r)
    (accepted : c.Accepted) (infinite : ¬c.FiniteWeights) :
    ∃ w, Database.fitted 2 r = .ok w ∧ w.entry 0 1 = undefined := by
  have axes (j : Fin 2) := (pairs_lone x Nat.two_pos c.center j).2
  have weights := analyzed.weights
  rw [pairs_lift _ (fun a _ => Solver.axial.solve_lift a), analyzed.dimension_lone accepted] at weights
  refine ⟨_, weights, ?_⟩
  rcases not_and_or.mp infinite with strong | weak
  · exact entry_weightMatrix_undefined axes (j := 0) strong
  · exact entry_weightMatrix_undefined axes (j := 1) weak

end Lone

end Plane

namespace Session

noncomputable abbrev diagonalPair : PointSet ℝ :=
  .ofPair (Vector.ofFn 0) (Vector.ofFn 1) Nat.two_pos

/-- Two points of the plane, each of which is its own neighborhood. -/
noncomputable def plane (config : Config Extended) : Session Extended :=
  single diagonalPair.lift (.solitary Solver.axial.lift config) false

theorem binding_plane (config : Config Extended) : (plane config).Binding config 0 0
    { points := diagonalPair.lift } := by
  let points := diagonalPair
  let p : Preprocessor Extended := .solitary Solver.axial.lift config
  have found : (plane config).databases[0]? = some { points := points.lift } := rfl
  have known : (plane config).metrics[0]? = some ⟨p, false, 0, none⟩ := rfl
  have fresh : Preprocessor.Thorough ({ points := points.lift } : Database Extended) false :=
    .inr rfl
  have hoods : ∀ id ∈ points.ids.toList,
      ∃ hood, p.provider.neighborhood points.lift id = .ok hood := by
    intro id member
    obtain ⟨x, vector⟩ := PointSet.exists_vector member
    exact ⟨_, Preprocessor.neighborhood_solitary _ _ vector⟩
  obtain ⟨count, run⟩ := (Preprocessor.exists_run_ok_iff fresh).mpr hoods
  refine ⟨found, ⟨_, known, rfl, Solver.axial_exact.lift, .inr ⟨nofun, fun _ _ _ stored => ?_⟩⟩, ?_⟩
  · cases stored
  · rw [bind_answer found known, run]
    rfl

theorem plane_fails {config : Config Extended} (accepted : config.Accepted)
    (infinite : ¬config.FiniteWeights) :
    ¬((plane config).bind 0 0).2.AgreesOnUndefined 0 [1, 2] ∧
    ¬((plane config).bind 0 0).2.Separates 0
      diagonalPair.lift := by
  let points := diagonalPair
  let p : Preprocessor Extended := .solitary Solver.axial.lift config
  have found : (plane config).databases[0]? = some { points := points.lift } := rfl
  have known : (plane config).metrics[0]? = some ⟨p, false, 0, none⟩ := rfl
  have fresh : Preprocessor.Thorough ({ points := points.lift } : Database Extended) false :=
    .inr rfl
  obtain ⟨count, run⟩ := exists_run_of_bind known found (binding_plane config).answered
  have prepared := Preprocessor.preparedBy_of_run fresh run
  have after := getElem?_bind_self found known
  have bound := bound_after_bind found known
  have kept := p.run_points { points := points.lift } false
  generalize (p.run { points := points.lift } false).2 = new at prepared after kept
  obtain ⟨newPoints, associations⟩ := new
  cases kept
  have site (i : Fin 2) : ∃ a : Database.Site Extended 2,
      Database.Sited ⟨points.lift, associations⟩ (points.ids.get i) a ∧
      a.vector = points.lift.vectors.get i ∧ a.weights.entry 0 1 = undefined := by
    have vector := points.vector_get i
    obtain ⟨hood, r, chosen, _, analyzed, stored⟩ :=
      prepared.exists_analyzed (points.get_mem_ids i)
    obtain rfl : (Neighborhood.lone _ Nat.two_pos).lift = hood := Except.ok.inj
      ((Preprocessor.neighborhood_solitary Solver.axial.lift config vector).symm.trans chosen)
    obtain ⟨w, fits, entry⟩ := analyzed.exists_undefined accepted infinite
    exact ⟨⟨points.lift.vectors.get i, w⟩, ⟨⟨r, stored, fits⟩, points.lift.vector_get i⟩, rfl, entry⟩
  obtain ⟨a, atFirst, first, entryA⟩ := site 0
  obtain ⟨b, atSecond, second, entryB⟩ := site 1
  have blurred : a.Blurred b := by
    refine Database.Site.blurred_of_undefined entryA entryB ⟨0, ?_⟩
    rw [first, second, Mat.get_lift, Mat.get_lift, get_liftVector, get_liftVector,
      Bool.eq_false_iff]
    exact fun equal => zero_ne_one (real_beq_real.mp equal)
  have apart : (0 : Fin 2) ≠ 1 := by decide
  exact fails_of_blurred bound after apart atFirst atSecond blurred

/-- For settings that are accepted, each of the two promises holds after every answered binding
exactly if both weights are finite. This is so for exact numbers with infinities and a value that is no
number. Doubles may also be at no distance because a small square underflows. -/
theorem special_values_iff {config : Config Extended} (accepted : config.Accepted) :
    ((∀ (s : Session Extended) (m d : ℕ) (db : Database Extended), s.Binding config m d db →
      (s.bind m d).2.AgreesOnUndefined m db.ids) ↔ config.FiniteWeights) ∧
    ((∀ (s : Session Extended) (m d : ℕ) (db : Database Extended), s.Binding config m d db →
      (s.bind m d).2.Separates m db.points) ↔ config.FiniteWeights) := by
  refine ⟨⟨fun agrees => ?_, fun finite s m d db binding => ?_⟩,
    ⟨fun separates => ?_, fun finite s m d db binding => ?_⟩⟩
  · by_contra infinite
    exact (plane_fails accepted infinite).1 (agrees _ 0 0 _ (binding_plane config))
  · exact (binding.keeps accepted finite).1
  · by_contra infinite
    exact (plane_fails accepted infinite).2 (separates _ 0 0 _ (binding_plane config))
  · exact (binding.keeps accepted finite).2

/-- Accepted settings of finite weights, with a tolerance that is no number. -/
noncomputable def vague : Config Extended := { Config.usual.lift with tolerance := undefined }

noncomputable def boundless : Config Extended :=
  { Config.usual.lift with weak := infinite false, center := .anchor }

theorem special_values_iff_plane :
    (((plane vague).bind 0 0).1 = .ok () ∧
      ((plane vague).bind 0 0).2.AgreesOnUndefined 0 [1, 2] ∧
      ((plane vague).bind 0 0).2.Separates 0
        diagonalPair.lift) ∧
    ¬(∀ (s : Session Extended) (m d : ℕ) (db : Database Extended), s.Binding boundless m d db →
      (s.bind m d).2.AgreesOnUndefined m db.ids) ∧
    ¬∀ (s : Session Extended) (m d : ℕ) (db : Database Extended), s.Binding boundless m d db →
      (s.bind m d).2.Separates m db.points := by
  have usual := Config.accepted_iff_checks.mp Config.usual_accepted.lift
  obtain ⟨share, positive, ordered, tolerance⟩ := usual
  have vaguely : vague.Accepted := Config.accepted_iff_checks.mpr ⟨share, positive, ordered, id⟩
  have boundlessly : boundless.Accepted :=
    Config.accepted_iff_checks.mpr ⟨share, positive, nofun, tolerance⟩
  have infinite : ¬boundless.FiniteWeights := fun finite => nomatch finite.2
  obtain ⟨agrees, separates⟩ := special_values_iff vaguely
  obtain ⟨disagrees, blurs⟩ := special_values_iff boundlessly
  have binding := binding_plane vague
  exact ⟨⟨binding.answered, agrees.mpr ⟨rfl, rfl⟩ _ 0 0 _ binding,
    separates.mpr ⟨rfl, rfl⟩ _ 0 0 _ binding⟩, infinite ∘ disagrees.mp, infinite ∘ blurs.mp⟩

end Session

section Doubles

variable {α : Type} [Scalar α]

/-- On a line there is nothing to rotate. -/
theorem vectors_sortedEigenpairs_rotations (a : Mat α 1 1) :
    (sortedEigenpairs .rotations a).vectors = Mat.identity := by
  have basis : (Solver.rotations.solve a.ofLowerTriangle).2 = (Mat.identity : Mat α 1 1) := rfl
  apply Mat.eq_of_entry
  intro i j
  have only : (descendingOrder (Solver.rotations.solve a.ofLowerTriangle).1).get j = j :=
    Subsingleton.elim _ _
  rw [entry_sortedEigenpairs, basis, only]

theorem Neighborhood.Analyzed.weights_on_line {s : Neighborhood α} {config : Config α}
    {r : LocalPca α} (analyzed : s.Analyzed .rotations config r) (line : s.dim = 1) :
    Database.fitted 1 r = .ok (weightMatrix Mat.identity 1 config.strong config.weak) := by
  have one : r.correlationDimension = 1 :=
    le_antisymm (line ▸ analyzed.inside) r.one_le_dimension
  have weights := analyzed.weights
  obtain ⟨⟨count, dim, points, nonempty⟩, anchor, anchor_finite, points_finite⟩ := s
  cases line
  rw [one, Neighborhood.pairs, vectors_sortedEigenpairs_rotations] at weights
  exact weights

/-- Settings whose strong weight is no number. -/
def Config.unweighted : Config Float := ⟨0.85, 0.0 / 0.0, 100.0, .centroid, 1e-10⟩

/-- The preprocessor that is made of such settings and a nearest-neighbor provider. -/
def Preprocessor.unweighted : Preprocessor Float :=
  { surveying .rotations .unweighted with provider := Provider.nearest.provider none }

/-- Around every point some are nearest, whatever comparisons of distances say. -/
theorem Provider.exists_neighborhood_nearest (s : PointSet α) (id : Int)
    (member : id ∈ s.ids.toList) :
    ∃ hood, (Provider.nearest.provider none).neighborhood s id = .ok hood := by
  obtain ⟨i, found⟩ := PointSet.exists_row member
  have nonempty := s.nonempty
  have positive : 0 < min (3 * s.dim : Int) s.size := by omega
  have chosen : (Provider.nearest.provider none).points s id = s.stacked
      (((s.byDistance i).take (min (min (3 * s.dim : Int) s.size) s.size).toNat).map s.ids.get) := by
    have made : (Reach.nearest none : Reach α).provider = .ok (Provider.nearest.provider none) := rfl
    exact Reach.chosen_eq made (PointSet.nearestStated_of_whole found rfl positive)
  refine Provider.exists_neighborhood chosen (List.ne_nil_of_length_pos ?_) ?_ member
  · rw [List.length_map, List.length_take, (PointSet.byDistance_perm i).length_eq,
      List.length_finRange]
    omega
  · intro known there
    obtain ⟨row, _, rfl⟩ := List.mem_map.mp there
    exact s.get_mem_ids row

/-- A strong weight that is no number is accepted, the binding is answered, and both promises are
broken. -/
theorem special_values_fail_pair :
    Config.unweighted.Accepted ∧
    ((Session.single .pair .unweighted false).bind 0 0).1 = .ok () ∧
    ¬((Session.single .pair .unweighted false).bind 0 0).2.AgreesOnUndefined 0
      PointSet.pair.ids.toList ∧
    ¬((Session.single .pair .unweighted false).bind 0 0).2.Separates 0 .pair := by
  let p : Preprocessor Float := .unweighted
  have found : (Session.single .pair p false).databases[0]? = some { points := .pair } := rfl
  have known : (Session.single .pair p false).metrics[0]? = some ⟨p, false, 0, none⟩ := rfl
  have fresh : Preprocessor.Thorough ({ points := .pair } : Database Float) false := .inr rfl
  obtain ⟨count, run⟩ := (Preprocessor.exists_run_ok_iff (p := p) fresh).mpr
    (Provider.exists_neighborhood_nearest PointSet.pair)
  have accepted : Config.unweighted.Accepted :=
    ⟨⟨0.85, 0.0 / 0.0, 100.0, "centroid", 1e-10⟩, rfl⟩
  refine ⟨accepted, ?_, ?_⟩
  · rw [Session.bind_answer found known, run]
    rfl
  have prepared := Preprocessor.preparedBy_of_run fresh run
  have after := Session.getElem?_bind_self found known
  have kept := p.run_points { points := .pair } false
  generalize (p.run { points := .pair } false).2 = new at prepared after kept
  obtain ⟨newPoints, associations⟩ := new
  cases kept
  let weights : Mat Float 1 1 := weightMatrix Mat.identity 1 (0.0 / 0.0) 100.0
  have site (i : Fin 2) : Database.Sited ⟨.pair, associations⟩ (PointSet.pair.ids.get i)
      ⟨PointSet.pair.vectors.get i, weights⟩ := by
    obtain ⟨hood, r, _, line, analyzed, stored⟩ :=
      prepared.exists_analyzed (PointSet.pair.get_mem_ids i)
    exact ⟨⟨r, stored, analyzed.weights_on_line line⟩, PointSet.pair.vector_get i⟩
  have blurred : Database.Site.Blurred ⟨PointSet.pair.vectors.get (0 : Fin 2), weights⟩
      ⟨PointSet.pair.vectors.get (1 : Fin 2), weights⟩ := by
    refine ⟨?_, ?_, ?_, (0 : Fin 1), ?_⟩
    · decide +kernel
    · decide +kernel
    · decide +kernel
    · decide +kernel
  have apart : (0 : Fin 2) ≠ 1 := by decide
  exact Session.fails_of_blurred (Session.bound_after_bind found known) after apart (site 0) (site 1)
    blurred

end Doubles

end LocalMetric
