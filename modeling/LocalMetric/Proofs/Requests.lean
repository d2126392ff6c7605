import LocalMetric.Proofs.Clusterings
import LocalMetric.Proofs.Neighbors
import LocalMetric.Run.Cluster
/-!
# Valid requests

What has to hold of a request and of the files it names. From a valid request the features are
loaded, their rows become points, and the preprocessor that is asked for is made.
-/
namespace LocalMetric

section Validity

inductive RunRequest.Asks (r : RunRequest ℝ) : Reach ℝ → Prop
  | unstated : r.preprocessor = "knn" → r.parameters = {} → Asks r (.nearest none)
  | null : r.preprocessor = "knn" → r.parameters = { neighbors := some .null } →
      Asks r (.nearest none)
  | count {v : Json ℝ} {q : Quantity ℝ} {k : Int} : r.preprocessor = "knn" →
      r.parameters = { neighbors := some v } → Quantity.ofJson? v = some q → q.whole? = some k →
      1 ≤ k → Asks r (.nearest (some q))
  | radius {v : Json ℝ} {radius : ℝ} : r.preprocessor = "range" →
      r.parameters = { radius := some v } → v.number = .ok radius → 0 ≤ radius →
      Asks r (.within radius)

variable [Numeral ℝ]

/-- A request for points whose features are a table of numbers with some rows and columns. Any
configuration will do. -/
structure RunRequest.Valid (r : RunRequest ℝ) (files : FeatureFiles ℝ) (rows columns : ℕ) :
    Prop where
  nonempty : 0 < rows ∧ 0 < columns
  features : ∃ features values, files.features = some (.ok features) ∧
    features.shape = [rows, columns] ∧ features.toNumbers = .ok values
  names : ∀ file, files.names = some file → ∃ value names, file = .ok value ∧
    FeatureBundle.listedNames value = .ok names ∧ names.length = rows
  reach : ∃ reach, r.Asks reach
  workers : r.workers.isZero = false

/-- Moreover, some radius is positive, and there are labels if clusterings are compared with them. -/
structure Cluster.Request.Valid (r : Cluster.Request ℝ) (files : FeatureFiles ℝ)
    (rows columns : ℕ) : Prop extends RunRequest.Valid r.toRunRequest files rows columns where
  radii : ∃ radius ∈ r.radii, 0 < radius
  minimum : 1 ≤ r.minimum
  labels : r.evaluate = true → ∃ labels, files.labels = some (.ok labels) ∧ labels.IsLabels rows

def FeatureFiles.LabelsFit (files : FeatureFiles ℝ) (rows : ℕ) : Prop :=
  ∀ file, files.labels = some file → ∃ labels shape, file = .ok labels ∧ labels.shape = rows :: shape

end Validity

section Preprocessors

variable {r : RunRequest ℝ} {reach : Reach ℝ}

theorem RunRequest.Asks.exists_provider (asks : r.Asks reach) :
    ∃ provider, reach.provider = .ok provider := by
  cases asks with
  | unstated => exact ⟨_, rfl⟩
  | null => exact ⟨_, rfl⟩
  | count _ _ _ whole positive =>
      refine ⟨_, if_neg ?_⟩
      rw [(Quantity.isNonPositive_eq_false_iff whole).mpr positive]
      exact Bool.false_ne_true
  | radius _ _ _ nonneg => exact ⟨_, if_neg (not_lt.mpr nonneg)⟩

theorem RunRequest.Asks.whole (asks : r.Asks reach) : reach.Whole := by
  cases asks with
  | unstated => exact fun _ absent => nomatch absent
  | null => exact fun _ absent => nomatch absent
  | count _ _ _ whole =>
      intro q stated
      cases stated
      exact ⟨_, whole⟩
  | radius => trivial

variable (solver : Solver ℝ)

theorem Preprocessor.exists_make {workers : Json ℝ} (nonzero : workers.isZero = false)
    (provider : Provider ℝ) (config : Config ℝ) (name : String) :
    ∃ p, make solver provider (some config) workers name = .ok p ∧ p.provider = provider := by
  unfold make
  split
  · rename_i zero
    rw [nonzero] at zero
    cases zero
  · exact ⟨_, rfl, rfl⟩

theorem Parameters.neighborCount_of_stated {parameters : Parameters ℝ} {v : Json ℝ}
    {q : Quantity ℝ} (stated : parameters.neighbors = some v) (known : Quantity.ofJson? v = some q) :
    parameters.neighborCount = .ok (some q) := by
  rw [neighborCount, stated]
  cases v with
  | int n =>
      cases known
      rfl
  | bool b =>
      cases known
      rfl
  | num x =>
      cases known
      rfl
  | _ => cases known

/-- The preprocessor that is asked for is made, and it looks for what is asked for. -/
theorem RunRequest.exists_preprocessor (asks : r.Asks reach) (nonzero : r.workers.isZero = false) :
    ∃ p, r.makePreprocessor ⟨solver, .standard⟩ = .ok p ∧ reach.provider = .ok p.provider := by
  obtain ⟨provider, made⟩ := asks.exists_provider
  obtain ⟨p, answered, same⟩ :=
    Preprocessor.exists_make solver nonzero provider r.config r.preprocessor
  refine ⟨p, ?_, same ▸ made⟩
  obtain ⟨featureFile, outputRoot, runId, preprocessor, parameters, config, workers⟩ := r
  cases asks with
  | unstated named stated =>
      cases named
      cases stated
      exact Checked.bind_ok_iff.mpr ⟨none, rfl, Checked.bind_ok_iff.mpr ⟨provider, made, answered⟩⟩
  | null named stated =>
      cases named
      cases stated
      exact Checked.bind_ok_iff.mpr ⟨none, rfl, Checked.bind_ok_iff.mpr ⟨provider, made, answered⟩⟩
  | @count v q _ named stated known =>
      cases named
      cases stated
      let parameters : Parameters ℝ :=
        { neighbors := some v, config := some (some config), workers := some workers }
      have counted : parameters.neighborCount = .ok (some q) :=
        Parameters.neighborCount_of_stated rfl known
      exact Checked.bind_ok_iff.mpr ⟨_, counted, Checked.bind_ok_iff.mpr ⟨provider, made, answered⟩⟩
  | radius named stated known =>
      cases named
      cases stated
      exact Checked.bind_ok_iff.mpr ⟨_, known, Checked.bind_ok_iff.mpr ⟨provider, made, answered⟩⟩

end Preprocessors

section Points

variable {α : Type} [Scalar α] {m n : ℕ} {s : PointSet α}

/-- Points that are given no ids are numbered by their rows. -/
theorem PointSet.numbered_of_ofMat {vectors : Mat α m n} (made : ofMat vectors none = .ok s) :
    s.size = m ∧ s.dim = n ∧ s.ids.toList = rowNumbers m := by
  unfold ofMat at made
  split at made
  · split at made
    · simp only [Option.getD_none] at made
      split at made
      · split at made
        · cases made
          exact ⟨rfl, rfl, rfl⟩
        · cases made
      · cases made
    · cases made
  · cases made

theorem PointSet.numbered_of_ofTensor {values : Tensor α} (shape : values.shape = [m, n])
    (made : ofTensor values none = .ok s) :
    s.size = m ∧ s.dim = n ∧ s.ids.toList = rowNumbers m := by
  obtain ⟨_, entries⟩ := values
  cases shape
  exact numbered_of_ofMat made

omit [Scalar α] in
theorem FeatureBundle.head?_of_loadLabels {rows : ℕ} {labels : DataArray α}
    {loaded : Option (DataArray α)} (answered : loadLabels rows (some (.ok labels)) = .ok loaded) :
    labels.shape.head? = some rows := by
  obtain ⟨_, same, answered⟩ := Checked.bind_ok_iff.mp answered
  cases same
  split at answered
  · cases answered
  · rename_i n rest shape
    split at answered
    · rename_i fits
      rw [shape, fits]
      rfl
    · cases answered

variable [Numeral α]

theorem DataArray.shape_of_toNumbers {features : DataArray α} {values : Tensor α}
    (read : features.toNumbers = .ok values) : values.shape = features.shape := by
  have checked {β : Type} {f : β → Checked α α} {t : Tensor β}
      (answered : t.mapChecked f = .ok values) : values.shape = t.shape := by
    unfold Tensor.mapChecked at answered
    cases entries : t.entries.mapChecked f t.shape with
    | error fault =>
        rw [entries] at answered
        cases answered
    | ok items =>
        rw [entries] at answered
        cases answered
        rfl
  cases features with
  | ints t =>
      cases read
      rfl
  | flags t =>
      cases read
      rfl
  | numbers t =>
      cases read
      rfl
  | texts t => exact checked read
  | objects t => exact checked read

omit [Scalar α] in
theorem FeatureBundle.length_of_loadNames {rows : ℕ} {value : Json α} {names : List String}
    {loaded : {names : List String // names.length = rows}}
    (answered : loadNames rows (some (.ok value)) = .ok loaded)
    (listed : listedNames value = .ok names) : names.length = rows := by
  obtain ⟨_, same, answered⟩ := Checked.bind_ok_iff.mp answered
  cases same
  obtain ⟨_, same, answered⟩ := Checked.bind_ok_iff.mp answered
  cases listed.symm.trans same
  split at answered
  · assumption
  · cases answered

omit [Scalar α] in
/-- A bundle that was loaded has a matrix of features, and the labels and names that go with them. -/
theorem FeatureBundle.loaded_of_load {featureFile : Path} {files : FeatureFiles α}
    {bundle : FeatureBundle α} (loaded : load featureFile files = .ok bundle) :
    files.features = some (.ok bundle.features) ∧
      loadLabels bundle.rows files.labels = .ok bundle.labels ∧
      loadNames bundle.rows files.names = .ok ⟨bundle.names, bundle.names_length⟩ := by
  unfold load at loaded
  split at loaded
  · cases loaded
  · rename_i file found
    obtain ⟨features, rfl, rest⟩ := Checked.bind_ok_iff.mp loaded
    split at rest
    · obtain ⟨labels, labelled, rest⟩ := Checked.bind_ok_iff.mp rest
      obtain ⟨names, named, rest⟩ := Checked.bind_ok_iff.mp rest
      obtain rfl := Checked.pure_ok_iff.mp rest
      exact ⟨found, labelled, named⟩
    · cases rest

/-- The points of a bundle are its rows, numbered in their order. -/
theorem FeatureBundle.numbered_of_points {bundle : FeatureBundle α} (points : bundle.points = .ok s) :
    s.size = bundle.rows ∧ s.dim = bundle.columns ∧
      s.ids.toList = PointSet.rowNumbers bundle.rows := by
  obtain ⟨values, read, made⟩ := Checked.bind_ok_iff.mp points
  exact PointSet.numbered_of_ofTensor
    ((DataArray.shape_of_toNumbers read).trans bundle.features_shape) made

end Points

section Features

variable {r : RunRequest ℝ} {files : FeatureFiles ℝ} {rows columns : ℕ}

theorem PointSet.exists_ofTensor {values : Tensor ℝ} (shape : values.shape = [rows, columns])
    (nonempty : 0 < rows ∧ 0 < columns) :
    ∃ s, PointSet.ofTensor values none = .ok s ∧ s.size = rows ∧ s.dim = columns := by
  obtain ⟨_, entries⟩ := values
  cases shape
  have length : (rowNumbers rows).length = rows := by
    rw [rowNumbers, List.length_map, List.length_range]
  have distinct : (rowNumbers rows).Nodup :=
    List.nodup_range.map fun _ _ same => Int.ofNat.inj same
  let s : PointSet ℝ := ⟨rows, columns, entries, ⟨(rowNumbers rows).toArray, by simpa using length⟩,
    nonempty, by simpa using distinct, Mat.allFinite_real _⟩
  refine ⟨s, ?_, rfl, rfl⟩
  rw [ofTensor, ofMat, dif_pos nonempty, dif_pos (Mat.allFinite_real _)]
  exact (dif_pos length).trans (dif_pos distinct)

theorem FeatureBundle.exists_loadLabels (fit : files.LabelsFit rows) :
    ∃ labels, loadLabels rows files.labels = .ok labels ∧
      ∀ given, files.labels = some (.ok given) → labels = some given := by
  cases known : files.labels with
  | none => exact ⟨none, rfl, fun _ absent => nomatch absent⟩
  | some file =>
      obtain ⟨labels, shape, rfl, fits⟩ := fit file known
      refine ⟨some labels, ?_, fun given same => ?_⟩
      · refine Checked.bind_ok_iff.mpr ⟨labels, rfl, ?_⟩
        rw [fits]
        exact if_pos rfl
      · cases same
        rfl

variable [Numeral ℝ]

theorem FeatureBundle.exists_loadNames (fit : ∀ file, files.names = some file → ∃ value names,
    file = .ok value ∧ listedNames value = .ok names ∧ names.length = rows) :
    ∃ names, loadNames rows files.names = .ok names := by
  cases known : files.names with
  | none => exact ⟨_, rfl⟩
  | some file =>
      obtain ⟨value, names, rfl, listed, length⟩ := fit file known
      refine ⟨⟨names, length⟩, Checked.bind_ok_iff.mpr ⟨value, rfl, ?_⟩⟩
      exact Checked.bind_ok_iff.mpr ⟨names, listed, dif_pos length⟩

/-- The features of a valid request are loaded, and their rows become points. -/
theorem RunRequest.Valid.exists_points (valid : r.Valid files rows columns)
    (fit : files.LabelsFit rows) :
    ∃ bundle s, FeatureBundle.load r.featureFile files = .ok bundle ∧ bundle.points = .ok s ∧
      s.size = rows ∧ s.dim = columns ∧
      ∀ labels, files.labels = some (.ok labels) → bundle.labels = some labels := by
  obtain ⟨features, values, found, shape, read⟩ := valid.features
  obtain ⟨labels, loaded, same⟩ := FeatureBundle.exists_loadLabels fit
  obtain ⟨names, named⟩ := FeatureBundle.exists_loadNames valid.names
  obtain ⟨s, made, size, dim⟩ := PointSet.exists_ofTensor
    ((DataArray.shape_of_toNumbers read).trans shape) valid.nonempty
  refine ⟨⟨rows, columns, features, shape, labels, names.1, names.2⟩, s, ?_, ?_, size, dim, same⟩
  · rw [FeatureBundle.load, found]
    refine Checked.bind_ok_iff.mpr ⟨features, rfl, ?_⟩
    split
    · rename_i rows' columns' same
      cases same.symm.trans shape
      exact Checked.bind_ok_iff.mpr ⟨labels, loaded, Checked.bind_ok_iff.mpr ⟨names, named, rfl⟩⟩
    · rename_i other
      exact absurd shape (other rows columns)
  · exact Checked.bind_ok_iff.mpr ⟨values, read, made⟩

end Features

end LocalMetric
