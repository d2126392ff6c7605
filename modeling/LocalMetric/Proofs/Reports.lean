import Mathlib.Tactic.FinCases
import LocalMetric.Proofs.AllOrNothing
import LocalMetric.Proofs.Ascending
import LocalMetric.Proofs.DensityClusterings
import LocalMetric.Proofs.PointTables
import LocalMetric.Proofs.Refusals
import LocalMetric.Proofs.ReportTexts
import LocalMetric.Proofs.StructuralAnalyses
import LocalMetric.Proofs.Tallies
/-!
# What reports say

A report puts together what was counted in different places: the rows of the features, the names of the
points, the outcomes of the analysis, the distances that were measured and the labels of each clustering.
All of these are as many as there are points, and what is said of the best clusterings is what their own
entries say. That is so of what is read back from the files of a run.
-/
namespace LocalMetric

variable {α β : Type}

namespace Json

/-- What stands below a value under names, one inside the other. -/
def at? : List String → Json α → Option (Json α)
  | [], v => some v
  | name :: names, v => (v.get? name).bind (at? names)

theorem at?_congr {v w : Json α} {name : String} (same : v.get? name = w.get? name)
    (names : List String) : v.at? (name :: names) = w.at? (name :: names) := by
  rw [at?, at?, same]

theorem at?_pair {v inner : Json α} {first : String} (known : v.get? first = some inner)
    (second : String) : v.at? [first, second] = inner.get? second := by
  simp only [at?, known, Option.bind_some, Option.bind_fun_some]

/-- Two values have the same fields with these names. -/
def Shares (names : List String) (v w : Json α) : Prop :=
  ∀ name ∈ names, ∃ value, v.get? name = some value ∧ w.get? name = some value

namespace Shares

variable {name : String} {names : List String} {v w value : Json α}

theorem nil (v w : Json α) : Shares [] v w := nofun

theorem cons (here : v.get? name = some value) (there : w.get? name = some value)
    (rest : Shares names v w) : Shares (name :: names) v w :=
  List.forall_mem_cons.mpr ⟨⟨value, here, there⟩, rest⟩

end Shares

end Json

/-- The features are a matrix with these numbers of rows and columns. -/
def FeatureFiles.HasShape (files : FeatureFiles α) (n dim : ℕ) : Prop :=
  ∃ features, files.features = some (.ok features) ∧ features.shape = [n, dim]

def ExternalScores.names : List String :=
  ["adjusted_rand", "normalized_mutual_info", "homogeneity", "v_measure"]

/-- What a report says about the clusterings of some points. There is an entry for each radius, in
order, with a label for each point, and what is said about the best ones is what entries say. -/
structure Cluster.Lists (n : ℕ) (radii : List α) (report : Json α) (entries : List (Json α)) : Prop where
  listed : report.get? "algorithm_results" = some (.arr entries)
  tried : entries.map (Json.get? "eps") = radii.map fun x => some (.num x)
  labelled : ∀ entry ∈ entries, ∃ labels : List Int,
    entry.get? "labels_pred" = some (.arr (labels.map .int)) ∧ labels.length = n
  winner : report.get? "unsupervised_selection" = some .null ∨
    ∃ best, report.at? ["unsupervised_selection", "winner"] = some best ∧
      ∃ entry ∈ entries, best.Shares ["algorithm", "variant", "selection_value"] entry
  agreement : ∀ best, report.at? ["offline_eval", "best_partition_model_by_ari"] = some best →
    best = .null ∨ ∃ entry ∈ entries, ∃ scores,
      entry.get? "partition_offline_metrics" = some scores ∧
        best.Shares ["algorithm", "variant"] entry ∧ best.Shares ExternalScores.names scores

section Entries

variable [Scalar α] [Numeral α]

namespace Selection

theorem winner_cases (variants : List (Variant α)) :
    winner (variants.map Variant.candidate) = .null ∨
      ∃ best, (winner (variants.map Variant.candidate)).get? "winner" = some best ∧
        ∃ v ∈ variants, best.Shares ["algorithm", "variant", "selection_value"] v.toJson := by
  rw [winner]
  cases chosen : firstBest Candidate.selectionValue (variants.map Variant.candidate) with
  | none => exact .inl rfl
  | some best =>
      obtain ⟨v, member, rfl⟩ := List.mem_map.mp (mem_of_firstBest chosen).1
      exact .inr ⟨_, rfl, v, member, .cons rfl rfl (.cons rfl rfl (.cons rfl rfl (.nil _ _)))⟩

theorem bestAgreement_cases {variants : List (Variant α)} {best : Json α}
    (shown : (bestAgreement (variants.map Variant.candidate)).get?
      "best_partition_model_by_ari" = some best) :
    best = .null ∨ ∃ v ∈ variants, ∃ scores, v.toJson.get? "partition_offline_metrics" = some scores ∧
      best.Shares ["algorithm", "variant"] v.toJson ∧ best.Shares ExternalScores.names scores := by
  rw [bestAgreement] at shown
  cases chosen : firstBest adjustedRand (variants.map Variant.candidate) with
  | none =>
      rw [chosen] at shown
      exact .inl (Option.some.inj shown).symm
  | some candidate =>
      rw [chosen] at shown
      obtain ⟨member, x, valued⟩ := mem_of_firstBest chosen
      obtain ⟨v, known, rfl⟩ := List.mem_map.mp member
      obtain rfl := Option.some.inj shown
      cases scored : v.external with
      | none =>
          simp only [adjustedRand, Variant.candidate, scored] at valued
          cases valued
      | some scores =>
          simp only [Variant.candidate, scored]
          refine .inr ⟨v, known, .obj scores.fields, ?_, ?_, ?_⟩
          · rw [Variant.toJson, scored]
            rfl
          · exact .cons rfl rfl (.cons rfl rfl (.nil _ _))
          · exact .cons rfl rfl (.cons rfl rfl (.cons rfl rfl (.cons rfl rfl (.nil _ _))))

end Selection

theorem Cluster.lists_report (r : Request α) {f : Findings α} {distances : Tensor α} {n : ℕ}
    {d : Mat α n n} {minimum : Int} {radii : List α}
    (answers : List.Forall₂ (Variant.Answers distances d minimum) radii f.variants) :
    Lists n radii (report r f) (f.variants.map Variant.toJson) where
  listed := rfl
  tried := by
    rw [Variant.radii_eq_map answers, List.map_map, List.map_map]
    rfl
  labelled entry member := by
    obtain ⟨v, known, rfl⟩ := List.mem_map.mp member
    obtain ⟨_, _, answer⟩ := Checked.exists_mem_zip answers.flip known
    refine ⟨v.labels, rfl, ?_⟩
    rw [answer.labels_eq, Vector.length_toList]
  winner := by
    rcases Selection.winner_cases f.variants with empty | ⟨best, shown, v, known, shares⟩
    · exact .inl (congrArg some empty)
    · exact .inr ⟨best, (Json.at?_pair rfl _).trans shown, v.toJson, List.mem_map_of_mem known, shares⟩
  agreement best shown := by
    rw [Json.at?_pair rfl] at shown
    cases evaluated : r.evaluate with
    | false =>
        rw [evaluated] at shown
        cases shown
    | true =>
        rw [evaluated] at shown
        rcases Selection.bestAgreement_cases shown with empty | ⟨v, known, scores, found, shares⟩
        · exact .inl empty
        · exact .inr ⟨v.toJson, List.mem_map_of_mem known, scores, found, shares⟩

end Entries

section Rows

theorem FeatureBundle.Rows.tallies {bundle : FeatureBundle Float} {s : PointSet Float}
    {rows : List (PointSummary Float)} (complete : bundle.Rows rows) (points : bundle.points = .ok s) :
    Tallies bundle.rows bundle.columns (summarizeDimensions rows s.dim).toJson := by
  rw [← complete.length_eq, (numbered_of_points points).2.1]
  exact tallies_of_rows (complete.ne_nil points) complete.inside

/-- In the table of points each row starts with the position of the point and its name. -/
theorem FeatureBundle.Rows.take_cells [Numeral α] {bundle : FeatureBundle α}
    {rows : List (PointSummary α)} (complete : bundle.Rows rows) :
    (rows.map PointSummary.cells).map (List.take 2) =
      bundle.names.mapIdx fun i name => [toString i, name] := by
  rw [← complete.names, List.map_map]
  refine List.ext_getElem (by simp) fun i inside _ => ?_
  rw [List.length_map] at inside
  have numbered : (rows[i]).id = Int.ofNat i := by
    have same := List.getElem_of_eq complete.ids (by rwa [List.length_map] : i < _)
    simpa only [List.getElem_map, PointSet.rowNumbers, List.getElem_range] using same
  simp only [List.getElem_map, List.getElem_mapIdx, Function.comp_apply, PointSummary.cells, numbered]
  rfl

end Rows

section Consistency

/-- The report of a clustering run is about one number of points throughout. -/
structure Cluster.Consistent (n dim : ℕ) (given : List Float) (report : Json Float) : Prop where
  samples : report.at? ["data_info", "n_samples"] = some (.int n)
  names : ∃ names, report.at? ["data_info", "point_names"] = some (.arr names) ∧ names.length = n
  dimensions : ∃ summary, report.get? "correlation_dimensions" = some summary ∧ Tallies n dim summary
  distances : report.get? "distance_computations" = some (.int (n * (n - 1) / 2 : ℕ))
  results : ∃ entries, Lists n (Selection.usableRadii given) report entries
  radii : Selection.Tries given (Selection.usableRadii given)

/-- So are the report of a preprocessing run and the table that goes with it. -/
structure Preprocess.Consistent (n dim : ℕ) (names : List String) (report : Json Float)
    (records : List (List String)) : Prop where
  computed : report.get? "n_computed" = some (.int n)
  dimensions : ∃ summary, report.get? "correlation_dimensions" = some summary ∧ Tallies n dim summary
  length : names.length = n
  records : records.map (List.take 2) = names.mapIdx fun i name => [toString i, name]

/-- Two reports say the same except perhaps about the preprocessor. -/
def SaysSame (v w : Json Float) : Prop := ∀ name, name ≠ "preprocessor" → v.get? name = w.get? name

theorem Cluster.Lists.congr {n : ℕ} {radii : List Float} {v w : Json Float} {entries : List (Json Float)}
    (same : SaysSame w v) (lists : Lists n radii v entries) : Lists n radii w entries where
  listed := (same _ (by decide)).trans lists.listed
  tried := lists.tried
  labelled := lists.labelled
  winner := by
    rw [same _ (by decide), Json.at?_congr (same _ (by decide))]
    exact lists.winner
  agreement := by
    rw [Json.at?_congr (same _ (by decide))]
    exact lists.agreement

theorem Cluster.Consistent.congr {n dim : ℕ} {given : List Float} {v w : Json Float}
    (same : SaysSame w v) (consistent : Consistent n dim given v) : Consistent n dim given w where
  samples := (Json.at?_congr (same _ (by decide)) _).trans consistent.samples
  names := by
    rw [Json.at?_congr (same _ (by decide))]
    exact consistent.names
  dimensions := by
    rw [same _ (by decide)]
    exact consistent.dimensions
  distances := (same _ (by decide)).trans consistent.distances
  results := consistent.results.imp fun _ lists => lists.congr same
  radii := consistent.radii

theorem Preprocess.Consistent.congr {n dim : ℕ} {names : List String} {v w : Json Float}
    {records : List (List String)} (same : SaysSame w v) (consistent : Consistent n dim names v records) :
    Consistent n dim names w records where
  computed := (same _ (by decide)).trans consistent.computed
  dimensions := by
    rw [same _ (by decide)]
    exact consistent.dimensions
  length := consistent.length
  records := consistent.records

theorem FeatureBundle.hasShape_of_load [Numeral α] {files : FeatureFiles α} {bundle : FeatureBundle α}
    {featureFile : Path} (loaded : load featureFile files = .ok bundle) :
    files.HasShape bundle.rows bundle.columns :=
  ⟨bundle.features, (loaded_of_load loaded).1, bundle.features_shape⟩

variable {tools : Toolbox Float} {files : FeatureFiles Float} {bundle : FeatureBundle Float}
  {s : PointSet Float} {p : Preprocessor Float}

theorem Cluster.Finds.consistent {r : Request Float} {g : Grid Float} {f : Findings Float}
    (finds : Finds tools r files bundle s p g f) :
    Consistent bundle.rows bundle.columns r.radii (report r f) := by
  obtain ⟨size, dim, ids⟩ := FeatureBundle.numbered_of_points finds.points
  obtain ⟨count, answered⟩ := finds.prepared
  obtain ⟨variants, ran, rest⟩ := Checked.bind_ok_iff.mp finds.found
  obtain ⟨rows, summarized, rest⟩ := Checked.bind_ok_iff.mp rest
  obtain rfl := Checked.pure_ok_iff.mp rest
  have complete := FeatureBundle.rows_of_run finds.points answered summarized
  obtain ⟨k, d, square, answers⟩ := Clustering.answers_of_run ran
  obtain ⟨sites, rfl, _⟩ := Database.exists_sites_of_distanceMatrix finds.measured
  obtain rfl : s.ids.toList.length = k :=
    congrArg Sigma.fst (Except.ok.inj ((Clustering.square_ofMat _).symm.trans square))
  have length : s.ids.toList.length = bundle.rows := Vector.length_toList.trans size
  have same : (p.run { points := s } r.force).2.points = s := p.run_points _ _
  refine ⟨rfl, ⟨_, rfl, ?_⟩, ⟨_, rfl, ?_⟩, ?_, ?_, ?_⟩
  · rw [List.length_map, bundle.names_length]
  · rw [same]
    exact complete.tallies finds.points
  · rw [← size]
    rfl
  · rw [← length]
    exact ⟨_, lists_report r answers⟩
  · refine Selection.tries_usableRadii Scalar.ranked_double fun x member => ?_
    obtain ⟨v, _, answer⟩ := Checked.exists_mem_zip answers member
    exact ⟨answer.accepted.1, answer.accepted.2.1⟩

theorem Preprocess.Finds.consistent {r : RunRequest Float} {count : ℕ}
    {rows : List (PointSummary Float)} (finds : Finds tools r files bundle s p count rows)
    (time : Instant) :
    Consistent bundle.rows bundle.columns bundle.names
      (report time r bundle count p (summarizeDimensions rows s.dim))
      (rows.map PointSummary.cells) := by
  have complete := FeatureBundle.rows_of_run finds.points finds.prepared finds.summarized
  obtain ⟨size, _, _⟩ := FeatureBundle.numbered_of_points finds.points
  refine ⟨?_, ⟨_, rfl, complete.tallies finds.points⟩, bundle.names_length, complete.take_cells⟩
  have counted : count = bundle.rows := by
    rw [Preprocessor.count_of_run (.inr rfl) finds.prepared, Database.ids, Vector.length_toList, size]
  rw [← counted]
  rfl

end Consistency

section Files

/-- A run that asked for all this writes a text into a file, and on a disk where all was done the file is
there with that text. -/
structure WroteText (log : List (Effect α)) (path : Path) (text : String) : Prop where
  written : .write path (.text text) ∈ log
  lasting : ∀ (place : Path) (d d' : Disk α), d.performAll place log = .ok d' →
    d'.find? (place.join path).segments = some (.file (.text text))

theorem Settled.wroteText [Numeral α] {directory report : β → Path} {answer : Checked α β}
    {log : List (Effect α)} {path : Path} {text : String} (settled : Settled directory report answer log)
    (written : .write path (.text text) ∈ log) : WroteText log path text :=
  ⟨written, fun place d d' performed => settled.lasting place d d' performed path _ written⟩

theorem Cluster.Ends.exists_read {tools : Toolbox Float} {r : Request Float} {files : FeatureFiles Float}
    {result : Result} {log : List (Effect Float)} (ends : Ends tools r files (.ok result) log) :
    ∃ bundle s p g f text written, Finds tools r files bundle s p g f ∧
      WroteText log result.report text ∧ Json.read? text = some written ∧
      SaysSame written (report r f) := by
  have settled := settled_of_ends ends
  cases ends with
  | @reported c bundle s p g f prepared measured time created finds =>
      refine ⟨bundle, s, p, g, f, _, _, finds, settled.wroteText ?_, Json.read?_text _,
        fun _ => get?_merged_report r f⟩
      exact List.mem_append_left _ (List.mem_append_right _ (RunContext.wrote_placing _ _))

theorem Preprocess.Ends.exists_read {tools : Toolbox Float} {r : RunRequest Float}
    {files : FeatureFiles Float} {result : Result} {log : List (Effect Float)}
    (ends : Ends tools r files (.ok result) log) :
    ∃ bundle s p count rows time text table written, Finds tools r files bundle s p count rows ∧
      WroteText log result.report text ∧ Json.read? text = some written ∧
      SaysSame written (report time r bundle count p (summarizeDimensions rows s.dim)) ∧
      WroteText log result.table table ∧
      Csv.read? table = some (PointSummary.columns :: rows.map PointSummary.cells) := by
  have settled := settled_of_ends ends
  cases ends with
  | @reported c bundle s p count rows prepared time created finds =>
      refine ⟨bundle, s, p, count, rows, time, _, _, _, finds, settled.wroteText ?_, Json.read?_text _,
        fun _ => get?_merged_report time r bundle count p _, settled.wroteText ?_, Csv.read?_text _⟩
      · exact List.mem_append_left _ (List.mem_append_right _ (RunContext.wrote_placing _ _))
      · exact List.mem_append_left _ (List.mem_append_left _
          (List.mem_append_right _ (RunContext.wrote_placing _ _)))

variable {m : Type → Type} [Monad m] [LawfulMonad m] [Host Float m]

/-- What is read from the files of runs of either kind that are answered is consistent, on every host. -/
theorem reports_consistent (faithful : Host.Faithful Float m) (tools : Toolbox Float)
    (files : FeatureFiles Float) :
    (∀ r : Cluster.Request Float, Leaves [] (Cluster.run tools r files : RunM Float (Logged Float m) _)
      fun answer log => ∀ result, answer = .ok result →
        ∃ (n dim : ℕ) (text : String) (report : Json Float), files.HasShape n dim ∧
        WroteText log result.report text ∧ Json.read? text = some report ∧
        Cluster.Consistent n dim r.radii report) ∧
    ∀ r : RunRequest Float, Leaves [] (Preprocess.run tools r files : RunM Float (Logged Float m) _)
      fun answer log => ∀ result, answer = .ok result →
        ∃ (bundle : FeatureBundle Float) (text table : String) (report : Json Float)
          (records : List (List String)),
        FeatureBundle.load r.featureFile files = .ok bundle ∧
        files.HasShape bundle.rows bundle.columns ∧
        WroteText log result.report text ∧ Json.read? text = some report ∧
        WroteText log result.table table ∧
        Csv.read? table = some (PointSummary.columns :: records) ∧
        Preprocess.Consistent bundle.rows bundle.columns bundle.names report records := by
  constructor
  · refine fun r => (Cluster.leaves_run faithful tools r files).mono fun answer log ends => ?_
    rintro result rfl
    obtain ⟨bundle, _, _, _, _, text, written, finds, wrote, read, same⟩ := ends.exists_read
    exact ⟨bundle.rows, bundle.columns, text, written, FeatureBundle.hasShape_of_load finds.loaded,
      wrote, read, finds.consistent.congr same⟩
  · refine fun r => (Preprocess.leaves_run faithful tools r files).mono fun answer log ends => ?_
    rintro result rfl
    obtain ⟨bundle, _, _, _, _, time, text, table, written, finds, wrote, read, same, tabulated,
      listed⟩ := ends.exists_read
    exact ⟨bundle, text, table, written, _, finds.loaded, FeatureBundle.hasShape_of_load finds.loaded,
      wrote, read, tabulated, listed, (finds.consistent time).congr same⟩

end Files

section Crowd

/-- The corners of a square, and seven points in one place away from it. -/
def crowdRows : Mat Float 11 2 :=
  #v[#v[0, 0], #v[0, 1], #v[1, 0], #v[1, 1], #v[9, 9], #v[9, 9], #v[9, 9], #v[9, 9], #v[9, 9],
    #v[9, 9], #v[9, 9]]

def FeatureFiles.crowd : FeatureFiles Float where
  features := some (.ok (.numbers (.ofMat crowdRows)))

def FeatureBundle.crowd : FeatureBundle Float where
  rows := 11
  columns := 2
  features := .numbers (.ofMat crowdRows)
  features_shape := rfl
  labels := none
  names := (List.range 11).map standardName
  names_length := rfl

theorem crowdRows_finite : crowdRows.allFinite = true := by decide +kernel

abbrev PointSet.crowd : PointSet Float where
  size := 11
  dim := 2
  vectors := crowdRows
  ids := ⟨(rowNumbers 11).toArray, rfl⟩
  nonempty := by decide
  ids_nodup := by decide
  vectors_finite := crowdRows_finite

def Cluster.Request.crowd : Cluster.Request Float where
  featureFile := ⟨.relative, ["data", "features.npy"]⟩
  outputRoot := ⟨.relative, ["out"]⟩
  runId := some "t"
  preprocessor := "range"
  parameters := { radius := some (.num 2) }
  config := ⟨0.85, 1, 100, .centroid, 1e-10⟩
  workers := .int 1
  force := false
  radii := [1]
  minimum := 1
  evaluate := false

theorem FeatureBundle.points_crowd : crowd.points = .ok .crowd := by
  change PointSet.ofMat crowdRows none = _
  have filled : 0 < 11 ∧ 0 < 2 := by decide
  have length : (PointSet.rowNumbers 11).length = 11 := rfl
  have distinct : (PointSet.rowNumbers 11).Nodup := by decide
  rw [PointSet.ofMat, dif_pos filled, dif_pos crowdRows_finite]
  exact (dif_pos length).trans (dif_pos distinct)

structure Preprocessor.Surrounds (p : Preprocessor Float) : Prop where
  within : Provider.within 2 = .ok p.provider
  solver : p.solver = .rotations
  config : p.config = Cluster.Request.crowd.config

theorem exists_surrounds : ∃ p : Preprocessor Float,
    Cluster.Request.crowd.makePreprocessor ⟨.rotations, .standard⟩ = .ok p ∧ p.Surrounds := by
  have nonneg : ¬(2 : Float) < 0 := by decide +kernel
  obtain ⟨provider, within⟩ : ∃ provider, Provider.within (2 : Float) = .ok provider :=
    ⟨_, if_neg nonneg⟩
  refine ⟨⟨"range", provider, Cluster.Request.crowd.config, .rotations, .int 1, rfl⟩, ?_, within, rfl, rfl⟩
  exact Checked.bind_ok_iff.mpr ⟨2, rfl, Checked.bind_ok_iff.mpr ⟨provider, within, rfl⟩⟩

def crowdDimension (id : ℤ) : ℕ := if id < 4 then 2 else 1

def crowdSite (i : Fin 11) : Database.Site Float 2 where
  vector := crowdRows.get i
  weights := if i.val < 4 then #v[#v[1, 0], #v[0, 1]] else #v[#v[100, 0], #v[0, 1]]

theorem PointSet.analysed_crowd : ∀ i : Fin 11,
    ((crowd.analysed .rotations Cluster.Request.crowd.config 2 i).toOption.map fun r =>
      (r.correlationDimension, (Database.fitted 2 r).toOption)) =
        some (crowdDimension i, some (crowdSite i).weights) := by
  decide +kernel

theorem Preprocessor.Surrounds.exists_compute {p : Preprocessor Float} (surrounds : p.Surrounds)
    (i : Fin 11) : ∃ r, p.compute .crowd (PointSet.crowd.ids.get i) = .ok r ∧
      r.correlationDimension = crowdDimension i ∧
      Database.fitted 2 r = .ok (crowdSite i).weights := by
  have same := compute_eq_analysed surrounds.within .crowd i
  rw [surrounds.solver, surrounds.config] at same
  obtain ⟨r, found, shown⟩ := Option.map_eq_some_iff.mp (PointSet.analysed_crowd i)
  rw [← same] at found
  obtain ⟨dimension, weights⟩ := Prod.mk.inj shown
  exact ⟨r, Checked.eq_ok_of_toOption found, dimension, Checked.eq_ok_of_toOption weights⟩

def IsLength (x : Float) : Prop := Scalar.isFinite x = true ∧ 0 ≤ x

instance (x : Float) : Decidable (IsLength x) := inferInstanceAs (Decidable (_ ∧ _))

theorem isLength_crowd : ∀ i j : Fin 11, i ≤ 4 → j ≤ 4 → IsLength
    (Scalar.largerOrNaN ((crowdSite i).lengthTo (crowdSite j)) ((crowdSite j).lengthTo (crowdSite i))) := by
  decide +kernel

theorem crowdSite_eq (i : Fin 11) : crowdSite i = crowdSite (min i 4) := by
  fin_cases i <;> rfl

theorem isLength_pairwise_crowd {sites : Vector (Database.Site Float 2) 11}
    (same : ∀ i, sites.get i = crowdSite i) (i j : Fin 11) :
    IsLength ((Database.pairwise sites).entry i j) := by
  rw [Database.pairwise, Mat.entry_ofFn]
  split
  · decide +kernel
  · rw [Mat.entry_ofFn, Mat.entry_ofFn, same, same, crowdSite_eq i, crowdSite_eq j]
    exact isLength_crowd _ _ (min_le_right i 4) (min_le_right j 4)

theorem exists_outcomes_crowd {p : Preprocessor Float} (surrounds : p.Surrounds) (force : Bool) :
    ∃ count, (p.run { points := .crowd } force).1 = .ok count ∧
      ∀ i : Fin 11, ∃ r, (p.run { points := .crowd } force).2.outcome (PointSet.crowd.ids.get i) = .ok r ∧
        r.correlationDimension = crowdDimension i ∧
        Database.fitted 2 r = .ok (crowdSite i).weights := by
  have thorough : Preprocessor.Thorough { points := PointSet.crowd } force := .inr rfl
  have answered : ∃ count, (p.run { points := .crowd } force).1 = .ok count := by
    refine (Preprocessor.exists_run_ok_iff thorough).mpr fun id member => ?_
    obtain ⟨i, rfl⟩ := PointSet.exists_get_eq member
    obtain ⟨r, computed, _⟩ := surrounds.exists_compute i
    exact Preprocessor.exists_compute_iff.mp ⟨r, computed⟩
  obtain ⟨count, answered⟩ := answered
  refine ⟨count, answered, fun i => ?_⟩
  obtain ⟨r, computed, shown⟩ := surrounds.exists_compute i
  have points := p.run_points { points := .crowd } force
  have member : PointSet.crowd.ids.get i ∈ (p.run { points := .crowd } force).2.ids := by
    rw [Database.ids, points]
    exact PointSet.crowd.get_mem_ids i
  obtain ⟨r', again, stored⟩ := Preprocessor.preparedBy_of_run thorough answered _ member
  rw [points, computed] at again
  cases again
  exact ⟨r, stored, shown⟩

/-- What is measured of the points after they were analysed. -/
theorem exists_distances_crowd {db : Database Float} (points : db.points = .crowd)
    (outcomes : ∀ i : Fin 11, ∃ r, db.outcome (PointSet.crowd.ids.get i) = .ok r ∧
      Database.fitted 2 r = .ok (crowdSite i).weights) :
    ∃ d : Mat Float 11 11, db.distanceMatrix PointSet.crowd.ids.toList = .ok ⟨11, 11, d⟩ ∧
      ∀ i j, IsLength (d.entry i j) := by
  obtain ⟨_, associations⟩ := db
  cases points
  have sited (i : Fin 11) :
      Database.Sited ⟨.crowd, associations⟩ (PointSet.crowd.ids.get i) (crowdSite i) :=
    ⟨outcomes i, PointSet.crowd.vector_get i⟩
  have all (id : ℤ) (member : id ∈ PointSet.crowd.ids.toList) :
      ∃ a, Database.Sited ⟨.crowd, associations⟩ id a := by
    obtain ⟨i, rfl⟩ := PointSet.exists_get_eq member
    exact ⟨_, sited i⟩
  obtain ⟨g, answered⟩ := Database.exists_distanceMatrix_iff.mpr all
  obtain ⟨sites, rfl, here⟩ := Database.exists_sites_of_distanceMatrix answered
  exact ⟨_, answered, isLength_pairwise_crowd fun i => (here i).unique (sited i)⟩

theorem Cluster.validate_crowd : validate .crowd .crowd = .ok .crowd := by
  have positive : ¬(1 : Float) ≤ 0 := by decide +kernel
  have tried : (Selection.usableRadii Request.crowd.radii).isEmpty = false := by
    refine List.isEmpty_eq_false_iff_exists_mem.mpr ?_
    have given : (1 : Float) ∈ Request.crowd.radii := List.mem_singleton.mpr rfl
    rcases Selection.usableRadii_covers given positive with here | ⟨y, there, _⟩
    · exact ⟨1, here⟩
    · exact ⟨y, there⟩
  have accepted : check .crowd .crowd = .ok () := by
    rw [check, tried]
    rfl
  exact Checked.bind_ok_iff.mpr ⟨.crowd, rfl, Checked.bind_ok_iff.mpr ⟨(), accepted, rfl⟩⟩

/-- Nothing in a clustering run on these points is refused. -/
theorem Cluster.exists_finds_crowd : ∃ p g f,
    p.Surrounds ∧ Finds ⟨.rotations, .standard⟩ .crowd .crowd .crowd .crowd p g f := by
  obtain ⟨p, made, surrounds⟩ := exists_surrounds
  obtain ⟨count, answered, outcomes⟩ := exists_outcomes_crowd surrounds false
  have ready := Preprocessor.preparedBy_of_run (.inr rfl) answered
  have points := p.run_points { points := .crowd } false
  obtain ⟨d, measured, usable⟩ := exists_distances_crowd points fun i => by
    obtain ⟨r, stored, _, fits⟩ := outcomes i
    exact ⟨r, stored, fits⟩
  have finite : d.allFinite = true := by
    refine Mat.allFinite_iff.mpr fun x member => ?_
    obtain ⟨i, j, rfl⟩ := Mat.exists_of_mem_entries member
    exact (usable i j).1
  have one : 0 < (1 : Float) ∧ Scalar.isFinite (1 : Float) = true := by decide +kernel
  have radii (x : Float) (member : x ∈ Selection.usableRadii Request.crowd.radii) :
      0 < x ∧ Scalar.isFinite x = true := by
    rw [List.mem_singleton.mp (Selection.mem_of_usableRadii member).1]
    exact one
  have clustered : ∃ variants, Clustering.run (.ofMat d) none
      (Selection.usableRadii Request.crowd.radii) 1 false = .ok variants :=
    Clustering.exists_answers (by decide) finite (fun i j => (usable i j).2) le_rfl radii nofun
  obtain ⟨variants, ran⟩ := clustered
  obtain ⟨rows, summarized, _⟩ :=
    exists_summarizePoints (fun id member => ready.exists_outcome member) FeatureBundle.crowd.names
  exact ⟨p, ⟨11, 11, d⟩, _, surrounds, validate_crowd, FeatureBundle.points_crowd, made, ⟨count, answered⟩,
    measured, Checked.bind_ok_iff.mpr ⟨variants, ran, Checked.bind_ok_iff.mpr ⟨rows, summarized, rfl⟩⟩⟩

theorem PointSet.get_ids_crowd : ∀ i : Fin 11, crowd.ids.get i = (i : ℤ) := by decide

theorem map_dimension_crowd {p : Preprocessor Float} (surrounds : p.Surrounds) {force : Bool}
    {rows : List (PointSummary Float)}
    (summarized : summarizePoints (p.run { points := .crowd } force).2 FeatureBundle.crowd.names = .ok rows) :
    rows.map PointSummary.correlationDimension = [2, 2, 2, 2, 1, 1, 1, 1, 1, 1, 1] := by
  obtain ⟨count, answered, outcomes⟩ := exists_outcomes_crowd surrounds force
  have complete := FeatureBundle.rows_of_run FeatureBundle.points_crowd answered summarized
  have points := p.run_points { points := .crowd } force
  have each (row : PointSummary Float) (member : row ∈ rows) :
      row.correlationDimension = crowdDimension row.id := by
    obtain ⟨point, paired, shows⟩ :=
      Checked.exists_mem_zip (shows_of_summarizePoints summarized).flip member
    obtain ⟨r, stored, same⟩ := shows.outcome
    have known := (List.of_mem_zip (List.of_mem_zip paired).2).2
    rw [Database.ids, points] at known
    obtain ⟨i, here⟩ := PointSet.exists_get_eq known
    obtain ⟨r', stored', dimension, _⟩ := outcomes i
    rw [here] at stored'
    cases stored.symm.trans stored'
    rw [same, dimension, shows.id, ← here, PointSet.get_ids_crowd]
  rw [List.map_congr_left each, ← Function.comp_def, ← List.map_map, complete.ids]
  rfl

def crowdMean : Float :=
  listSum ([2, 2, 2, 2, 1, 1, 1, 1, 1, 1, 1].map nearestDouble) / nearestDouble 11

theorem crowdMean_mul : crowdMean * 11 ≠ 15 ∧ magnitude crowdMean * 11 ≠ 1 * 7 + 2 * 4 := by
  constructor
  · decide +kernel
  · decide +kernel

theorem summarizeDimensions_crowd {rows : List (PointSummary Float)}
    (dims : rows.map PointSummary.correlationDimension = [2, 2, 2, 2, 1, 1, 1, 1, 1, 1, 1]) :
    summarizeDimensions rows 2 = ⟨11, 2, some crowdMean, [7, 4]⟩ := by
  have same : rows.map (fun row => (row.correlationDimension : ℤ)) =
      [2, 2, 2, 2, 1, 1, 1, 1, 1, 1, 1] := by
    have cast := congrArg (List.map Int.ofNat) dims
    rwa [List.map_map] at cast
  rw [summarizeDimensions, same]
  rfl

theorem Cluster.Finds.dimensions_crowd {p : Preprocessor Float} {g : Grid Float} {f : Findings Float}
    (surrounds : p.Surrounds) (finds : Finds ⟨.rotations, .standard⟩ .crowd .crowd .crowd .crowd p g f) :
    f.dimensions = ⟨11, 2, some crowdMean, [7, 4]⟩ := by
  obtain ⟨variants, ran, rest⟩ := Checked.bind_ok_iff.mp finds.found
  obtain ⟨rows, summarized, rest⟩ := Checked.bind_ok_iff.mp rest
  obtain rfl := Checked.pure_ok_iff.mp rest
  have points := p.run_points { points := .crowd } Request.crowd.force
  rw [← summarizeDimensions_crowd (map_dimension_crowd surrounds summarized)]
  exact congrArg (fun s : PointSet Float => summarizeDimensions rows s.dim) points

theorem Cluster.exists_recorded_crowd : ∃ result log p g f,
    recorded (run ⟨.rotations, .standard⟩ .crowd .crowd) = (.ok result, log) ∧ p.Surrounds ∧
      Finds ⟨.rotations, .standard⟩ .crowd .crowd .crowd .crowd p g f := by
  obtain ⟨p, g, f, surrounds, finds⟩ := exists_finds_crowd
  have completes := completes_of_finds (Host.faithful_logged Host.faithful_record) finds
  obtain ⟨result, _, answered⟩ := (Leaves.of_completes completes []).recorded
  exact ⟨result, _, p, g, f, Prod.ext answered rfl, surrounds, finds⟩

theorem Preprocess.exists_recorded_crowd : ∃ result log,
    recorded (run ⟨.rotations, .standard⟩ Cluster.Request.crowd.toRunRequest .crowd) =
      (.ok result, log) := by
  obtain ⟨p, made, surrounds⟩ := exists_surrounds
  obtain ⟨count, answered, _⟩ := exists_outcomes_crowd surrounds true
  have ready := Preprocessor.preparedBy_of_run (.inl rfl) answered
  obtain ⟨rows, summarized, _⟩ :=
    exists_summarizePoints (fun id member => ready.exists_outcome member) FeatureBundle.crowd.names
  have finds : Finds ⟨.rotations, .standard⟩ Cluster.Request.crowd.toRunRequest .crowd .crowd .crowd p
      count rows := ⟨rfl, FeatureBundle.points_crowd, made, answered, summarized⟩
  have completes := completes_of_finds (Host.faithful_logged Host.faithful_record) finds
  obtain ⟨result, _, answered⟩ := (Leaves.of_completes completes []).recorded
  exact ⟨result, _, Prod.ext answered rfl⟩

/-- The mean of eleven dimensions that come to fifteen is reported as a double that is not fifteen
elevenths: eleven times as much is not fifteen, and in doubles it is not rounded to fifteen either. -/
theorem reported_mean_rounded :
    ∃ result log text report x,
      recorded (Cluster.run ⟨.rotations, .standard⟩ .crowd .crowd) = (.ok result, log) ∧
      WroteText log result.report text ∧ Json.read? text = some report ∧
      report.at? ["correlation_dimensions", "n_points"] = some (.int 11) ∧
      report.at? ["correlation_dimensions", "histogram"] = some (.obj [("1", .int 7), ("2", .int 4)]) ∧
      report.at? ["correlation_dimensions", "mean_correlation_dimension"] = some (.num x) ∧
      x * 11 ≠ 15 ∧ magnitude x * 11 ≠ 1 * 7 + 2 * 4 := by
  obtain ⟨result, log, p, g, f, answered, surrounds, finds⟩ := Cluster.exists_recorded_crowd
  have ends := (Cluster.leaves_run Host.faithful_record ⟨.rotations, .standard⟩ .crowd .crowd).recorded
  rw [answered] at ends
  obtain ⟨bundle, s, p', g', f', text, report, finds', wrote, read, same⟩ := ends.exists_read
  obtain rfl : .crowd = bundle := Except.ok.inj finds'.loaded
  cases FeatureBundle.points_crowd.symm.trans finds'.points
  cases finds.made.symm.trans finds'.made
  have dimensions : report.get? "correlation_dimensions" =
      some (DimensionSummary.toJson ⟨11, 2, some crowdMean, [7, 4]⟩) := by
    rw [same _ (by decide), ← finds'.dimensions_crowd surrounds]
    rfl
  refine ⟨result, log, text, report, crowdMean, answered, wrote, read, ?_, ?_, ?_, crowdMean_mul⟩
  · rw [Json.at?_pair dimensions]
    rfl
  · rw [Json.at?_pair dimensions]
    rfl
  · rw [Json.at?_pair dimensions]
    rfl

/-- Eleven points are clustered and analysed, and their files are read. -/
theorem reports_consistent_crowd :
    (∃ result log text report,
      recorded (Cluster.run ⟨.rotations, .standard⟩ .crowd .crowd) = (.ok result, log) ∧
      WroteText log result.report text ∧ Json.read? text = some report ∧
      Cluster.Consistent 11 2 [1] report) ∧
    ∃ result log text table report records,
      recorded (Preprocess.run ⟨.rotations, .standard⟩ Cluster.Request.crowd.toRunRequest .crowd) =
        (.ok result, log) ∧
      WroteText log result.report text ∧ Json.read? text = some report ∧
      WroteText log result.table table ∧ Csv.read? table = some (PointSummary.columns :: records) ∧
      Preprocess.Consistent 11 2 FeatureBundle.crowd.names report records := by
  obtain ⟨clusters, prepares⟩ :=
    reports_consistent Host.faithful_record ⟨.rotations, .standard⟩ .crowd
  constructor
  · obtain ⟨result, log, _, _, _, answered, _⟩ := Cluster.exists_recorded_crowd
    have tells := (clusters .crowd).recorded
    rw [answered] at tells
    obtain ⟨n, dim, text, report, ⟨features, found, shape⟩, wrote, read, consistent⟩ := tells result rfl
    cases found
    cases shape
    exact ⟨result, log, text, report, answered, wrote, read, consistent⟩
  · obtain ⟨result, log, answered⟩ := Preprocess.exists_recorded_crowd
    have tells := (prepares Cluster.Request.crowd.toRunRequest).recorded
    rw [answered] at tells
    obtain ⟨bundle, text, table, report, records, loaded, _, wrote, read, tabulated, listed,
      consistent⟩ := tells result rfl
    obtain rfl : .crowd = bundle := Except.ok.inj loaded
    exact ⟨result, log, text, table, report, records, answered, wrote, read, tabulated, listed,
      consistent⟩

end Crowd

end LocalMetric
