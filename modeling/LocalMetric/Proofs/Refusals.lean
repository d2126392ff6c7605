import LocalMetric.Proofs.ExtendedReals
import LocalMetric.Proofs.Preparations
import LocalMetric.Proofs.ScatterMatrices
/-!
# What the local analysis refuses

An anchor and the points around it may be arrays of any shape. Four tests are made in a fixed order: on
the number of entries of the points, on their axes, on the number of entries of the anchor and on the
entries of both. The scatter matrix and the analysis are refused by the first test that fails and by
nothing else, but for the name of the center.
-/
namespace LocalMetric

variable {α : Type}

section Arrays

namespace Tensor

def lastAxis (t : Tensor α) : ℕ := t.shape.getLastD 0

variable [Scalar α]

def Finite (t : Tensor α) : Prop := ∀ x ∈ t.toList, Scalar.isFinite x = true

instance (t : Tensor α) : Decidable t.Finite := List.decidableBAll _ _

end Tensor

theorem Mat.allFinite_iff [Scalar α] {m n : ℕ} {a : Mat α m n} :
    a.allFinite = true ↔ ∀ x ∈ a.entries, Scalar.isFinite x = true := by
  simp only [allFinite, entries, Vector.all_eq_true_iff_forall_mem, List.mem_flatMap,
    Vector.mem_toList_iff, forall_exists_index, and_imp]
  exact ⟨fun finite x row member => finite row member x, fun finite row member x => finite x row member⟩

end Arrays

section Clouds

namespace Cloud

theorem ofMat_cases {m n : ℕ} (rows : Mat α m n) :
    (m * n = 0 ∧ ofMat rows = .error .emptyNeighborhood) ∨
    (m * n ≠ 0 ∧ ∃ cloud, ofMat rows = .ok cloud ∧ cloud.dim = n ∧
      cloud.points.entries = rows.entries) := by
  by_cases filled : 0 < m ∧ 0 < n
  · exact .inr ⟨(Nat.mul_pos filled.1 filled.2).ne', _, dif_pos filled, rfl, rfl⟩
  · refine .inl ⟨?_, dif_neg filled⟩
    rw [Nat.mul_eq_zero]
    omega

/-- The points in an array: it has entries and one or two axes, or it is refused for the first of these
that it lacks. -/
theorem ofTensor_cases (points : Tensor α) :
    (points.size = 0 ∧ ofTensor points = .error .emptyNeighborhood) ∨
    (points.size ≠ 0 ∧ (points.rank ≠ 1 ∧ points.rank ≠ 2) ∧
      ofTensor points = .error (.neighborhoodRank points.shape)) ∨
    (points.size ≠ 0 ∧ ¬(points.rank ≠ 1 ∧ points.rank ≠ 2) ∧ ∃ cloud,
      ofTensor points = .ok cloud ∧ cloud.dim = points.lastAxis ∧
      cloud.points.entries = points.toList) := by
  have other {shape : List ℕ} (entries : Entries α shape) (rank : shape.length ≠ 1 ∧ shape.length ≠ 2)
      (judged : ofTensor ⟨shape, entries⟩ = if Tensor.size ⟨shape, entries⟩ = 0 then
        .error .emptyNeighborhood else .error (.neighborhoodRank shape)) :
      (Tensor.size ⟨shape, entries⟩ = 0 ∧ ofTensor ⟨shape, entries⟩ = .error .emptyNeighborhood) ∨
      (Tensor.size ⟨shape, entries⟩ ≠ 0 ∧ (shape.length ≠ 1 ∧ shape.length ≠ 2) ∧
        ofTensor ⟨shape, entries⟩ = .error (.neighborhoodRank shape)) := by
    by_cases empty : Tensor.size ⟨shape, entries⟩ = 0
    · rw [if_pos empty] at judged
      exact .inl ⟨empty, judged⟩
    · rw [if_neg empty] at judged
      exact .inr ⟨empty, rank, judged⟩
  obtain ⟨_ | ⟨m, _ | ⟨n, _ | ⟨k, shape⟩⟩⟩, entries⟩ := points
  · rcases other entries ⟨Nat.zero_ne_one, by decide⟩ rfl with empty | rank
    · exact .inl empty
    · exact .inr (.inl rank)
  · have single : Mat.entries (#v[entries] : Mat α 1 m) = Tensor.toList ⟨[m], entries⟩ :=
      (List.append_nil _).trans (Tensor.toList_vector entries).symm
    have size : Tensor.size ⟨[m], entries⟩ = 1 * m := (Nat.mul_one m).trans (Nat.one_mul m).symm
    rw [size, ← single]
    rcases ofMat_cases (#v[entries] : Mat α 1 m) with empty | ⟨filled, cloud⟩
    · exact .inl empty
    · exact .inr (.inr ⟨filled, fun rank => rank.1 rfl, cloud⟩)
  · have size : Tensor.size ⟨[m, n], entries⟩ = m * n := congrArg (m * ·) (Nat.mul_one n)
    have listed : Tensor.toList ⟨[m, n], entries⟩ = Mat.entries entries := Tensor.toList_ofMat entries
    rw [size, listed]
    rcases ofMat_cases entries with empty | ⟨filled, cloud⟩
    · exact .inl empty
    · exact .inr (.inr ⟨filled, fun rank => rank.2 rfl, cloud⟩)
  · rcases other entries ⟨by simp, by simp⟩ rfl with empty | rank
    · exact .inl empty
    · exact .inr (.inl rank)

variable [Scalar α]

theorem around_cases (cloud : Cloud α) (anchor : List α) :
    (anchor.length ≠ cloud.dim ∧
      cloud.around anchor = .error (.anchorMismatch anchor.length cloud.dim)) ∨
    (anchor.length = cloud.dim ∧ ¬(cloud.points.allFinite = true ∧ anchor.all Scalar.isFinite = true) ∧
      cloud.around anchor = .error .neighborhoodNotFinite) ∨
    (anchor.length = cloud.dim ∧ (cloud.points.allFinite = true ∧ anchor.all Scalar.isFinite = true) ∧
      ∃ s, cloud.around anchor = .ok s ∧ s.dim = cloud.dim) := by
  unfold around
  by_cases fits : anchor.length = cloud.dim
  · rw [dif_pos fits]
    by_cases finite : cloud.points.allFinite = true ∧ anchor.all Scalar.isFinite = true
    · exact .inr (.inr ⟨fits, finite, _, dif_pos (by simpa using finite), rfl⟩)
    · exact .inr (.inl ⟨fits, finite, dif_neg (by simpa using finite)⟩)
  · exact .inl ⟨fits, dif_neg fits⟩

end Cloud

end Clouds

section Objections

variable [Scalar α] {anchor points : Tensor α}

namespace Neighborhood

/-- What an anchor and the points around it are refused for, if they are: the first of four tests that
fails. -/
def objection? (anchor points : Tensor α) : Option (Fault α) :=
  if points.size = 0 then some .emptyNeighborhood
  else if points.rank ≠ 1 ∧ points.rank ≠ 2 then some (.neighborhoodRank points.shape)
  else if anchor.size ≠ points.lastAxis then some (.anchorMismatch anchor.size points.lastAxis)
  else if ¬(points.Finite ∧ anchor.Finite) then some .neighborhoodNotFinite
  else none

/-- Arrays that fit together are refused for their entries only. -/
theorem objection?_of_fits (entries : points.size ≠ 0) (rank : points.rank = 1 ∨ points.rank = 2)
    (fits : anchor.size = points.lastAxis) : objection? anchor points =
      if ¬(points.Finite ∧ anchor.Finite) then some .neighborhoodNotFinite else none := by
  rw [objection?, if_neg entries, if_neg (by omega), if_neg (not_not.mpr fits)]

theorem ofTensors_cases (anchor points : Tensor α) :
    (∃ fault, objection? anchor points = some fault ∧ ofTensors anchor points = .error fault) ∨
    (objection? anchor points = none ∧ ∃ s, ofTensors anchor points = .ok s ∧
      s.dim = points.lastAxis) := by
  rcases Cloud.ofTensor_cases points with ⟨empty, refused⟩ | ⟨filled, rank, refused⟩ |
    ⟨filled, rank, cloud, listed, dim, entries⟩
  · exact .inl ⟨_, if_pos empty, Checked.bind_error_iff.mpr (.inl refused)⟩
  · refine .inl ⟨_, ?_, Checked.bind_error_iff.mpr (.inl refused)⟩
    rw [objection?, if_neg filled, if_pos rank]
  · have around : ofTensors anchor points = cloud.around anchor.toList :=
      congrArg (· >>= fun cloud : Cloud α => cloud.around anchor.toList) listed
    have finite : points.Finite ∧ anchor.Finite ↔
        cloud.points.allFinite = true ∧ anchor.toList.all Scalar.isFinite = true := by
      rw [Mat.allFinite_iff, entries, List.all_eq_true]
      exact Iff.rfl
    rw [around, objection?, if_neg filled, if_neg rank, ← dim, ← anchor.length_toList]
    rcases cloud.around_cases anchor.toList with ⟨differs, refused⟩ | ⟨fits, undefined, refused⟩ |
      ⟨fits, defined, s, answered, same⟩
    · rw [if_pos differs]
      exact .inl ⟨_, rfl, refused⟩
    · rw [if_neg (not_not.mpr fits), if_pos (undefined ∘ finite.mp)]
      exact .inl ⟨_, rfl, refused⟩
    · rw [if_neg (not_not.mpr fits), if_neg (not_not.mpr (finite.mpr defined))]
      exact .inr ⟨rfl, s, answered, same⟩

theorem ofTensors_error_iff {fault : Fault α} :
    ofTensors anchor points = .error fault ↔ objection? anchor points = some fault := by
  rcases ofTensors_cases anchor points with ⟨first, objected, refused⟩ | ⟨fits, s, answered, _⟩
  · rw [objected, refused, Except.error.injEq, Option.some.injEq]
  · rw [fits, answered]
    exact iff_of_false nofun nofun

theorem exists_of_no_objection (fits : objection? anchor points = none) :
    ∃ s, ofTensors anchor points = .ok s ∧ s.dim = points.lastAxis := by
  rcases ofTensors_cases anchor points with ⟨fault, objected, _⟩ | ⟨_, answered⟩
  · rw [fits] at objected
    cases objected
  · exact answered

end Neighborhood

open Neighborhood

/-- The analysis refuses nothing but what is objected to. -/
theorem LocalPca.compute_error_iff {solver : Solver α} {config : Config α} {fault : Fault α} :
    compute solver config anchor points = .error fault ↔ objection? anchor points = some fault := by
  rw [← ofTensors_error_iff, compute, Checked.bind_error_iff]
  refine or_iff_left ?_
  rintro ⟨s, _, refused⟩
  obtain ⟨r, answered, _⟩ := exists_analyzed solver config s
  rw [refused] at answered
  cases answered

omit [Scalar α] in
theorem Center.ofName_cases (name : String) :
    (∃ center : Center, center.name = name ∧ Center.ofName (α := α) name = .ok center) ∨
    ((name ≠ "centroid" ∧ name ≠ "anchor") ∧
      Center.ofName (α := α) name = .error (.unknownCenter name)) := by
  unfold ofName
  by_cases first : name = Center.centroid.name
  · exact .inl ⟨.centroid, first.symm, if_pos first⟩
  by_cases second : name = Center.anchor.name
  · exact .inl ⟨.anchor, second.symm, (if_neg first).trans (if_pos second)⟩
  · exact .inr ⟨⟨first, second⟩, (if_neg first).trans (if_neg second)⟩

omit [Scalar α] in
theorem Center.ofName_error_iff {name : String} {fault : Fault α} :
    Center.ofName name = .error fault ↔
      (name ≠ "centroid" ∧ name ≠ "anchor") ∧ fault = .unknownCenter name := by
  rcases ofName_cases (α := α) name with ⟨center, rfl, answered⟩ | ⟨unknown, refused⟩
  · rw [answered]
    refine iff_of_false nofun ?_
    cases center with
    | centroid => exact fun unknown => unknown.1.1 rfl
    | anchor => exact fun unknown => unknown.1.2 rfl
  · rw [refused, Except.error.injEq, eq_comm]
    exact (and_iff_right unknown).symm

/-- A scatter matrix is refused like an analysis, or because no center has the name. -/
theorem scatterMatrix_error_iff {center : String} {fault : Fault α} :
    scatterMatrix anchor points center = .error fault ↔ objection? anchor points = some fault ∨
      objection? anchor points = none ∧ (center ≠ "centroid" ∧ center ≠ "anchor") ∧
        fault = .unknownCenter center := by
  rw [← ofTensors_error_iff, scatterMatrix, Checked.bind_error_iff]
  refine or_congr_right ?_
  have unnamed (s : Neighborhood α) : (do
      return (⟨s.dim, s.dim, s.scatter (← Center.ofName center)⟩ : Grid α)) = .error fault ↔
        (center ≠ "centroid" ∧ center ≠ "anchor") ∧ fault = .unknownCenter center := by
    rw [Checked.bind_error_iff, Center.ofName_error_iff]
    exact or_iff_left fun ⟨_, _, refused⟩ => nomatch refused
  rcases ofTensors_cases anchor points with ⟨first, objected, refused⟩ | ⟨fits, s, read, _⟩
  · rw [objected, refused]
    exact iff_of_false nofun nofun
  · rw [and_iff_right fits, ← unnamed s, read]
    constructor
    · rintro ⟨_, same, failed⟩
      cases same
      exact failed
    · exact fun failed => ⟨s, rfl, failed⟩

/-- A vector stands for a single point. -/
theorem Neighborhood.ofTensors_vector (anchor : Tensor α) {n : ℕ} (x : Vector α n) :
    ofTensors anchor ⟨[n], x⟩ = ofTensors anchor (.ofMat #v[x]) := rfl

end Objections

section Mirrors

variable [Scalar α] (commutes : ∀ x y : α, x + y = y + x)

include commutes

theorem Mat.entry_symmetricPart_comm {n : ℕ} (a : Mat α n n) (i j : Fin n) :
    a.symmetricPart.entry i j = a.symmetricPart.entry j i := by
  rw [symmetricPart, entry_ofFn, entry_ofFn, commutes]

theorem LocalPca.exists_mirrored {anchor points : Tensor α} {s : Neighborhood α}
    (read : Neighborhood.ofTensors anchor points = .ok s) (solver : Solver α) (config : Config α) :
    ∃ r, compute solver config anchor points = .ok r ∧ r.dim = s.dim ∧
      ∀ i j, r.weights.entry i j = r.weights.entry j i := by
  obtain ⟨d, one_le, inside, _, answered⟩ := exists_ofNeighborhood solver config s
  refine ⟨_, Checked.bind_ok_iff.mpr ⟨s, read, answered⟩, rfl, fun i j => ?_⟩
  exact Mat.entry_symmetricPart_comm commutes _ i j

end Mirrors

section Verdicts

variable [Scalar α]

open Neighborhood

/-- How an anchor and the points around it are judged, whatever their shapes: the analysis and the
scatter matrix object to the same, the scatter matrix also to a center of another name, and what is not
objected to has a symmetric matrix of as many rows as the last axis is long. -/
structure Judged (anchor points : Tensor α) : Prop where
  told : ∀ [Numeral α], (objection? anchor points).map Fault.message =
    if points.size = 0 then some "Neighborhood is empty"
    else if points.rank ≠ 1 ∧ points.rank ≠ 2 then
      some s!"Neighborhood must be a 2-D array, got shape={Text.shapeText points.shape}"
    else if anchor.size ≠ points.lastAxis then
      some s!"Anchor dimensionality ({anchor.size}) does not match neighborhood ({points.lastAxis})"
    else if ¬(points.Finite ∧ anchor.Finite) then
      some "Neighborhood or anchor contains NaN or infinite values"
    else none
  analysis : ∀ solver config fault, LocalPca.compute solver config anchor points = .error fault ↔
    objection? anchor points = some fault
  scatter : ∀ center fault, scatterMatrix anchor points center = .error fault ↔
    objection? anchor points = some fault ∨ objection? anchor points = none ∧
      (center ≠ "centroid" ∧ center ≠ "anchor") ∧ fault = .unknownCenter center
  scattered : objection? anchor points = none → ∀ center, center = "centroid" ∨ center = "anchor" →
    ∃ a : Mat α points.lastAxis points.lastAxis, scatterMatrix anchor points center = .ok ⟨_, _, a⟩ ∧
      ∀ i j, a.entry i j = a.entry j i
  analysed : objection? anchor points = none → ∀ solver config, ∃ r,
    LocalPca.compute solver config anchor points = .ok r ∧ r.dim = points.lastAxis ∧
      ∀ i j, r.weights.entry i j = r.weights.entry j i

theorem judged (commutes : ∀ x y : α, x + y = y + x) (anchor points : Tensor α) :
    Judged anchor points := by
  constructor
  · intro _
    unfold objection?
    split
    · rfl
    split
    · rfl
    split
    · rfl
    split
    · rfl
    · rfl
  · exact fun _ _ _ => LocalPca.compute_error_iff
  · exact fun _ _ => scatterMatrix_error_iff
  · intro fits center named
    obtain ⟨s, read, dim⟩ := exists_of_no_objection fits
    obtain ⟨known, _, answered⟩ | ⟨unknown, _⟩ := Center.ofName_cases (α := α) center
    · rw [← dim]
      refine ⟨s.scatter known, ?_, Mat.entry_symmetricPart_comm commutes _⟩
      exact Checked.bind_ok_iff.mpr ⟨s, read, Checked.bind_ok_iff.mpr ⟨known, answered, rfl⟩⟩
    · exact absurd named (not_or.mpr unknown)
  · intro fits solver config
    obtain ⟨s, read, dim⟩ := exists_of_no_objection fits
    rw [← dim]
    exact LocalPca.exists_mirrored commutes read solver config

theorem Preprocessor.compute_of_points {p : Preprocessor α} {s : PointSet α} {id : Int}
    {x : Vector α s.dim} {points : Tensor α} (known : s.vector id = .ok x)
    (found : p.provider.points s id = .ok points) :
    p.compute s id = LocalPca.compute p.solver p.config ⟨[s.dim], x⟩ points := by
  rw [compute, found, known]
  rfl

theorem PointSet.finite_of_vector {s : PointSet α} {id : Int} {x : Vector α s.dim}
    (known : s.vector id = .ok x) : Tensor.Finite ⟨[s.dim], x⟩ := by
  intro y member
  rw [Tensor.toList_vector, Vector.mem_toList_iff] at member
  exact Vector.all_eq_true_iff_forall_mem.mp (vector_finite known) y member

/-- Every anchor and every array of points are judged by the four tests, and a vector like the one row
that it is. What a preprocessor refuses with the points of a provider at hand, it refuses by the same
tests; the anchor is finite then. -/
theorem refusals_classified (commutes : ∀ x y : α, x + y = y + x) :
    (∀ anchor points : Tensor α, Judged anchor points) ∧
    (∀ (anchor : Tensor α) {n : ℕ} (x : Vector α n),
      (∀ center, scatterMatrix anchor ⟨[n], x⟩ center =
        scatterMatrix anchor (.ofMat #v[x]) center) ∧
      ∀ solver config, LocalPca.compute solver config anchor ⟨[n], x⟩ =
        LocalPca.compute solver config anchor (.ofMat #v[x])) ∧
    ∀ (p : Preprocessor α) (s : PointSet α) (id : Int) (x : Vector α s.dim) (points : Tensor α),
      s.vector id = .ok x → p.provider.points s id = .ok points →
      Tensor.Finite ⟨[s.dim], x⟩ ∧ ∀ fault, p.compute s id = .error fault ↔
        objection? ⟨[s.dim], x⟩ points = some fault := by
  refine ⟨judged commutes, ?_, ?_⟩
  · intro anchor n x
    refine ⟨fun center => ?_, fun solver config => ?_⟩
    · rw [scatterMatrix, ofTensors_vector, scatterMatrix]
    · rw [LocalPca.compute, ofTensors_vector, LocalPca.compute]
  · intro p s id x points known found
    refine ⟨PointSet.finite_of_vector known, fun fault => ?_⟩
    rw [Preprocessor.compute_of_points known found]
    exact LocalPca.compute_error_iff

theorem Extended.add_commutes (x y : Extended) : x + y = y + x := by
  cases x with
  | real x =>
      cases y with
      | real y => rw [real_add_real, real_add_real, add_comm]
      | infinite => rfl
      | undefined => rfl
  | infinite first =>
      cases y with
      | real => rfl
      | infinite second => cases first <;> cases second <;> rfl
      | undefined => rfl
  | undefined =>
      cases y with
      | real => rfl
      | infinite => rfl
      | undefined => rfl

noncomputable def Preprocessor.presenting (points : Tensor Extended) : Preprocessor Extended :=
  { surveying Solver.spectral.lift Config.usual.lift with
    provider := ⟨fun _ _ => .ok points, .null, none⟩ }

noncomputable def Tensor.remote : Tensor Extended :=
  .ofMat (#v[#v[.real 0, .infinite true]] : Mat Extended 1 2)

theorem refusals_classified_remote :
    (Preprocessor.presenting .remote).compute (PointSet.ofPair #v[3, 4] #v[0, 0] Nat.two_pos).lift 1 =
      .error .neighborhoodNotFinite ∧
    scatterMatrix ⟨[2], liftVector #v[3, 4]⟩ .remote "median" = .error .neighborhoodNotFinite ∧
    scatterMatrix ⟨[2], liftVector #v[3, 4]⟩ ⟨[2], liftVector #v[3, 4]⟩ "median" =
      .error (.unknownCenter "median") := by
  let s : PointSet ℝ := .ofPair #v[3, 4] #v[0, 0] Nat.two_pos
  have known : s.lift.vector 1 = .ok (liftVector #v[3, 4]) :=
    PointSet.vector_lift (s.vector_get (0 : Fin 2))
  obtain ⟨judged, _, prepared⟩ := refusals_classified Extended.add_commutes
  obtain ⟨finite, refused⟩ := prepared (.presenting .remote) s.lift 1 _ .remote known rfl
  have remote : objection? ⟨[2], liftVector #v[3, 4]⟩ .remote = some .neighborhoodNotFinite := by
    have infinite : Extended.infinite true ∈ Tensor.remote.toList :=
      List.mem_cons_of_mem _ List.mem_cons_self
    have unbounded : ¬Tensor.remote.Finite := fun finite => nomatch finite _ infinite
    refine (objection?_of_fits ?_ (.inr rfl) rfl).trans (if_pos fun all => unbounded all.1)
    exact Nat.succ_ne_zero 1
  have fits : objection? (⟨[2], liftVector #v[3, 4]⟩ : Tensor Extended) ⟨[2], liftVector #v[3, 4]⟩ =
      none := by
    refine (objection?_of_fits ?_ (.inl rfl) rfl).trans (if_neg (not_not.mpr ⟨finite, finite⟩))
    exact Nat.succ_ne_zero 1
  refine ⟨(refused _).mpr remote, ((judged _ _).scatter _ _).mpr (.inl remote), ?_⟩
  exact ((judged _ _).scatter _ _).mpr (.inr ⟨fits, ⟨by decide, by decide⟩, rfl⟩)

end Verdicts

end LocalMetric
