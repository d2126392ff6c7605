import LocalMetric.Proofs.Checked
import LocalMetric.Report.Csv
import LocalMetric.Report.Points
/-!
# Reports that can be written

Points that all have an outcome are summarized. If the dimensions of the outcomes are positive and at
most that of the points, they can be counted, and the table of the points is written.
-/
namespace LocalMetric

variable {α : Type}

section Points

variable [Scalar α] {db : Database α} {dim : ℕ}

theorem exists_summarizePoints (outcomes : ∀ id ∈ db.ids, ∃ r, db.outcome id = .ok r ∧
      1 ≤ r.correlationDimension ∧ r.correlationDimension ≤ dim) (names : List String) :
    ∃ rows, summarizePoints db names = .ok rows ∧
      ∀ row ∈ rows, 1 ≤ row.correlationDimension ∧ row.correlationDimension ≤ dim := by
  have each (point : String × Int) (member : point ∈ names.zip db.ids) : ∃ row, (do
        let r ← db.outcome point.2
        return ⟨point.2, point.1, r.correlationDimension, r.neighborhoodSize,
          r.explainedVarianceRatio⟩ : Checked α (PointSummary α)) = .ok row ∧
      1 ≤ row.correlationDimension ∧ row.correlationDimension ≤ dim := by
    obtain ⟨r, stored, inside⟩ := outcomes point.2 (List.of_mem_zip member).2
    exact ⟨_, Checked.bind_ok_iff.mpr ⟨r, stored, rfl⟩, inside⟩
  obtain ⟨rows, related⟩ := Checked.exists_forall₂_of_forall each
  refine ⟨rows, Checked.mapM_ok_iff.mpr (related.imp fun _ _ here => here.1), fun row member => ?_⟩
  obtain ⟨_, _, _, inside⟩ := Checked.exists_mem_zip related.flip member
  exact inside

structure PointSummary.Shows (db : Database α) (point : String × Int) (row : PointSummary α) : Prop where
  name : row.name = point.1
  id : row.id = point.2
  outcome : ∃ r, db.outcome point.2 = .ok r ∧ row.correlationDimension = r.correlationDimension

theorem shows_of_summarizePoints {names : List String} {rows : List (PointSummary α)}
    (summarized : summarizePoints db names = .ok rows) :
    List.Forall₂ (PointSummary.Shows db) (names.zip db.ids) rows := by
  refine (Checked.mapM_ok_iff.mp summarized).imp fun point row answered => ?_
  obtain ⟨r, stored, made⟩ := Checked.bind_ok_iff.mp answered
  cases made
  exact ⟨rfl, rfl, r, stored, rfl⟩

/-- With a name for each point there is a row for each one, in order. -/
theorem columns_of_summarizePoints {names : List String} {rows : List (PointSummary α)}
    (summarized : summarizePoints db names = .ok rows) (length : names.length = db.ids.length) :
    rows.map PointSummary.name = names ∧ rows.map PointSummary.id = db.ids := by
  have shows := shows_of_summarizePoints summarized
  constructor
  · rw [← Checked.map_eq_of_forall₂ shows fun _ _ here => here.name.symm]
    exact List.map_fst_zip (Nat.le_of_eq length)
  · rw [← Checked.map_eq_of_forall₂ shows fun _ _ here => here.id.symm]
    exact List.map_snd_zip (Nat.le_of_eq length.symm)

end Points

section Counts

theorem foldl_max_of_le {bound : Int} {dims : List Int} (below : ∀ d ∈ dims, d ≤ bound) :
    dims.foldl max bound = bound := by
  induction dims with
  | nil => rfl
  | cons d dims ih =>
      rw [List.foldl_cons, Int.max_eq_left (below d List.mem_cons_self)]
      exact ih fun e member => below e (List.mem_cons_of_mem d member)

/-- Dimensions from one to that of the points are never refused to be counted, as long as there is
room for the counts. -/
theorem summarizeStated_of_inside [Scalar α] {dims : List Int} {dim : ℕ}
    (inside : ∀ d ∈ dims, 1 ≤ d ∧ d ≤ dim) (room : (dim : Int) + 1 < affordableCounts) :
    (summarizeStated dims dim : Checked α (DimensionSummary α)) = .ok (.ofDimensions dims dim) := by
  have afford : affordableCounts = 134217728 := rfl
  have address : addressableCounts = 1152921504606846976 := rfl
  have top : dims.foldl max (dim : Int) = dim := foldl_max_of_le fun d member => (inside d member).2
  have fit (d : Int) (bounds : 0 ≤ d ∧ d ≤ dim + 1) : IntegerWidth.long.contains d = true := by
    have least : IntegerWidth.long.least = -9223372036854775808 := rfl
    have count : IntegerWidth.long.count = 18446744073709551616 := rfl
    refine decide_eq_true ?_
    omega
  have wide : (((dim : Int) + 1) :: dims).all IntegerWidth.long.contains = true := by
    refine List.all_eq_true.mpr fun d member => fit d ?_
    rcases List.mem_cons.mp member with rfl | member
    · omega
    · have := inside d member
      omega
  have nonneg : (dims.any (· < 0) || decide ((dim : Int) + 1 < 0)) = false := by
    refine Bool.or_eq_false_iff.mpr ⟨List.any_eq_false.mpr fun d member => ?_, decide_eq_false ?_⟩
    · have := inside d member
      rw [decide_eq_true_iff]
      omega
    · omega
  simp only [summarizeStated, top, wide, nonneg, Bool.not_true, Bool.false_eq_true, if_false]
  rw [if_neg (by omega), if_neg (by omega)]

end Counts

section Tables

variable [Numeral α]

namespace PointSummary

def columns : List String :=
  ["point_id", "point_name", "correlation_dimension", "neighborhood_size",
    "explained_variance_ratio"]

def cells (s : PointSummary α) : List String :=
  [toString s.id, s.name, toString s.correlationDimension, toString s.neighborhoodSize,
    Numeral.exact s.explainedVarianceRatio]

theorem rowCells_fields [Scalar α] (s : PointSummary α) :
    Csv.rowCells columns s.fields = .ok s.cells := rfl

/-- The table of points, if there are any, has one row for each of them. -/
theorem tableText_fields [Scalar α] {rows : List (PointSummary α)} (filled : rows ≠ []) :
    Csv.tableText? (rows.map fields) = .ok (some (Csv.text (columns :: rows.map cells))) := by
  obtain ⟨first, rest, rfl⟩ := List.exists_cons_of_ne_nil filled
  refine Checked.bind_ok_iff.mpr ⟨(first :: rest).map cells, Checked.mapM_ok_iff.mpr ?_, rfl⟩
  rw [List.forall₂_map_left_iff, List.forall₂_map_right_iff, List.forall₂_same]
  exact fun row _ => rowCells_fields row

theorem exists_tableText_fields [Scalar α] (rows : List (PointSummary α)) :
    ∃ text, Csv.tableText? (rows.map fields) = .ok text := by
  cases rows with
  | nil => exact ⟨none, rfl⟩
  | cons first rest => exact ⟨_, tableText_fields (List.cons_ne_nil _ _)⟩

end PointSummary

end Tables

end LocalMetric
