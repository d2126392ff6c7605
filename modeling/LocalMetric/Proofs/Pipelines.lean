import LocalMetric.Proofs.DistanceMatrices
import LocalMetric.Proofs.Endings
/-!
# Both kinds of runs complete

Nothing that can be refused between the features of a valid request and its report is met: every point
has a neighborhood, so it has an outcome; outcomes fit the points, so all distances are there; and what
is computed from outcomes and distances is never refused.
-/
namespace LocalMetric

section Outcomes

variable {α : Type} [Scalar α] {db : Database α} {p : Preprocessor α}

theorem Database.PreparedBy.exists_sited (prepared : db.PreparedBy p) {id : Int}
    (member : id ∈ db.ids) : ∃ a, db.Sited id a := by
  obtain ⟨r, computed, stored⟩ := prepared id member
  obtain ⟨w, fits⟩ := Preprocessor.exists_fitted_of_compute computed
  exact Database.exists_sited member stored fits

end Outcomes

section Points

variable {db : Database ℝ} {p : Preprocessor ℝ} {s : PointSet ℝ}

/-- An answered distance matrix has no negative entries, and zeros on its diagonal. -/
theorem Database.distances_of_distanceMatrix {ids : List Int} {g : Grid ℝ}
    (answered : db.distanceMatrix ids = .ok g) :
    ∃ d : Mat ℝ ids.length ids.length, g = ⟨ids.length, ids.length, d⟩ ∧ d.Distances := by
  obtain ⟨d, rfl, entries⟩ := exists_entries_of_distanceMatrix answered
  refine ⟨d, rfl, fun i j => ?_, fun i => ?_⟩
  · obtain ⟨a, b, _, _, same⟩ := distance_ok_iff.mp (entries i j)
    rw [← same]
    exact weightedDistance_nonneg _ _ _ _
  · obtain ⟨a, b, here, there, same⟩ := distance_ok_iff.mp (entries i i)
    rw [← same, here.unique there]
    exact weightedDistance_self _ _ _

theorem Database.PreparedBy.exists_distances (prepared : db.PreparedBy p) :
    ∃ d : Mat ℝ db.points.size db.points.size,
      db.distanceMatrix db.ids = .ok ⟨db.points.size, db.points.size, d⟩ ∧ d.Distances := by
  obtain ⟨g, answered⟩ := exists_distanceMatrix_iff.mpr fun id => prepared.exists_sited
  obtain ⟨d, rfl, distances⟩ := distances_of_distanceMatrix answered
  have length : db.ids.length = db.points.size := Vector.length_toList
  exact length ▸ ⟨d, answered, distances⟩

/-- What a preprocessor meets when it prepares the points of a set: each one has a neighborhood with
its vector in it, the run is answered, the dimensions fit the points and can be counted, and the
distances can be clustered and scored. -/
structure Preprocessor.Unhindered (p : Preprocessor ℝ) (s : PointSet ℝ) : Prop where
  surrounded : ∀ id ∈ s.ids.toList,
    ∃ (m : ℕ) (anchor : Vector ℝ s.dim) (points : Mat ℝ m s.dim) (filled : 0 < m ∧ 0 < s.dim),
      p.provider.neighborhood s id = .ok (.ofRows anchor points filled) ∧
      s.vector id = .ok anchor ∧ ∃ k, points.get k = anchor
  prepared : ∀ force, ∃ count, (p.run { points := s } force).1 = .ok count
  dimensions : ∀ force, ∀ id ∈ s.ids.toList, ∃ r,
    (p.run { points := s } force).2.outcome id = .ok r ∧
      1 ≤ r.correlationDimension ∧ r.correlationDimension ≤ s.dim
  summarized : ∀ force names, ∃ rows,
    summarizePoints (p.run { points := s } force).2 names = .ok rows ∧
      ((s.dim : Int) + 1 < affordableCounts →
        summarizeStated (rows.map fun row => row.correlationDimension) s.dim =
          (.ok (summarizeDimensions rows s.dim) : Checked ℝ (DimensionSummary ℝ)))
  distances : ∀ force, ∃ d : Mat ℝ s.size s.size,
    (p.run { points := s } force).2.distanceMatrix s.ids.toList = .ok ⟨s.size, s.size, d⟩ ∧
      d.Distances ∧ ∀ labels : List Int, labels.length = s.size →
        ∃ score, Silhouette.score? (.ofMat d) labels = some score

theorem Preprocessor.thorough_of_fresh (s : PointSet ℝ) (force : Bool) :
    Thorough { points := s } force :=
  .inr rfl

theorem Preprocessor.unhindered {reach : Reach ℝ} (made : reach.provider = .ok p.provider)
    (whole : reach.Whole) (s : PointSet ℝ) : p.Unhindered s := by
  have surrounded (id : Int) (member : id ∈ s.ids.toList) :=
    Reach.exists_neighborhood made whole member
  have prepared (force : Bool) : ∃ count, (p.run { points := s } force).1 = .ok count := by
    refine (exists_run_ok_iff (thorough_of_fresh s force)).mpr fun id member => ?_
    obtain ⟨_, _, _, _, found, _⟩ := surrounded id member
    exact ⟨_, found⟩
  refine ⟨surrounded, prepared, fun force => ?_, fun force names => ?_, fun force => ?_⟩
  all_goals
    obtain ⟨count, answered⟩ := prepared force
    have ready := preparedBy_of_run (thorough_of_fresh s force) answered
    have points := p.run_points { points := s } force
    generalize (p.run { points := s } force).2 = new at ready points
    obtain ⟨_, associations⟩ := new
    cases points
  · exact fun id member => ready.exists_outcome member
  · obtain ⟨rows, summarized, inside⟩ :=
      exists_summarizePoints (fun id member => ready.exists_outcome member) names
    refine ⟨rows, summarized, summarizeStated_of_inside fun d member => ?_⟩
    obtain ⟨row, known, rfl⟩ := List.mem_map.mp member
    exact ⟨Int.ofNat_le.mpr (inside row known).1, Int.ofNat_le.mpr (inside row known).2⟩
  · obtain ⟨d, measured, distances⟩ := ready.exists_distances
    exact ⟨d, measured, distances, fun _ length => distances.exists_score length⟩

end Points

section Runs

variable [Numeral ℝ] {m : Type → Type} [Monad m] [LawfulMonad m] [Host ℝ m]
  {files : FeatureFiles ℝ} {rows columns : ℕ} {bundle : FeatureBundle ℝ} {s : PointSet ℝ}
  {p : Preprocessor ℝ} {solver : Solver ℝ}

structure RunRequest.Starts (r : RunRequest ℝ) (solver : Solver ℝ) (files : FeatureFiles ℝ)
    (rows columns : ℕ) (bundle : FeatureBundle ℝ) (s : PointSet ℝ) (p : Preprocessor ℝ) :
    Prop where
  loaded : FeatureBundle.load r.featureFile files = .ok bundle
  labels : ∀ labels, files.labels = some (.ok labels) → bundle.labels = some labels
  points : bundle.points = .ok s
  size : s.size = rows
  dim : s.dim = columns
  made : r.makePreprocessor ⟨solver, .standard⟩ = .ok p
  unhindered : p.Unhindered s

theorem RunRequest.Valid.exists_starts {r : RunRequest ℝ} (valid : r.Valid files rows columns)
    (fit : files.LabelsFit rows) (solver : Solver ℝ) :
    ∃ bundle s p, r.Starts solver files rows columns bundle s p := by
  obtain ⟨bundle, s, loaded, points, size, dim, labels⟩ := valid.exists_points fit
  obtain ⟨reach, asks⟩ := valid.reach
  obtain ⟨p, made, provider⟩ := RunRequest.exists_preprocessor solver asks valid.workers
  exact ⟨bundle, s, p, loaded, labels, points, size, dim, made,
    Preprocessor.unhindered provider asks.whole s⟩

theorem Preprocess.completes_run (faithful : Host.Faithful ℝ m) {r : RunRequest ℝ}
    (starts : r.Starts solver files rows columns bundle s p) :
    Completes (run ⟨solver, .standard⟩ r files : RunM ℝ m Result) fun _ => True := by
  obtain ⟨_, prepared⟩ := starts.unhindered.prepared true
  obtain ⟨_, summarized, _⟩ := starts.unhindered.summarized true bundle.names
  exact completes_of_finds faithful ⟨starts.loaded, starts.points, starts.made, prepared, summarized⟩

theorem Cluster.check_ok {r : Cluster.Request ℝ} (valid : r.Valid files rows columns)
    (starts : r.Starts solver files rows columns bundle s p) : check r bundle = .ok () := by
  have labelled : (r.evaluate && bundle.labels.isNone) = false := by
    cases used : r.evaluate with
    | false => rfl
    | true =>
        obtain ⟨given, file, _⟩ := valid.labels used
        rw [starts.labels given file]
        rfl
  have tried : (Selection.usableRadii r.radii).isEmpty = false := by
    obtain ⟨radius, member, positive⟩ := valid.radii
    exact List.isEmpty_eq_false_iff.mpr
      (List.ne_nil_of_mem (Selection.mem_usableRadii.mpr ⟨member, positive⟩))
  simp only [check, labelled, tried, if_neg (not_lt.mpr valid.minimum)]
  rfl

/-- The distances are clustered once for each usable radius, and the clusterings are complete. -/
theorem Cluster.exists_findings {r : Cluster.Request ℝ} (valid : r.Valid files rows columns)
    (starts : r.Starts solver files rows columns bundle s p) {d : Mat ℝ s.size s.size}
    (distances : d.Distances) (counter : Counter) :
    ∃ f, findings r bundle p (.ofMat d) (p.run { points := s } r.force).2 counter = .ok f ∧
      List.Forall₂ (Variant.Complete s.size r.evaluate) (Selection.usableRadii r.radii)
        f.variants := by
  have truths : r.evaluate = true → ∃ given, bundle.labels = some given ∧ given.IsLabels s.size := by
    intro used
    obtain ⟨given, file, fits⟩ := valid.labels used
    exact ⟨given, starts.labels given file, starts.size ▸ fits⟩
  obtain ⟨variants, clustered, complete⟩ :=
    Clustering.exists_run distances s.nonempty.1 valid.minimum truths r.radii
  obtain ⟨summaries, summarized, _⟩ := starts.unhindered.summarized r.force bundle.names
  exact ⟨_, Checked.bind_ok_iff.mpr ⟨variants, clustered,
    Checked.bind_ok_iff.mpr ⟨summaries, summarized, rfl⟩⟩, complete⟩

/-- The distances between points after the run, and what is found in them. -/
def Cluster.Request.Clusters (r : Cluster.Request ℝ) (bundle : FeatureBundle ℝ) (s : PointSet ℝ)
    (p : Preprocessor ℝ) : Prop :=
  ∃ d : Mat ℝ s.size s.size,
    (p.run { points := s } r.force).2.distanceMatrix s.ids.toList = .ok ⟨s.size, s.size, d⟩ ∧
    ∀ counter, ∃ f,
      findings r bundle p (.ofMat d) (p.run { points := s } r.force).2 counter = .ok f ∧
      List.Forall₂ (Variant.Complete s.size r.evaluate) (Selection.usableRadii r.radii) f.variants

theorem Cluster.Request.Valid.clusters {r : Cluster.Request ℝ} (valid : r.Valid files rows columns)
    (starts : r.Starts solver files rows columns bundle s p) : r.Clusters bundle s p := by
  obtain ⟨d, measured, distances, _⟩ := starts.unhindered.distances r.force
  exact ⟨d, measured, exists_findings valid starts distances⟩

theorem Cluster.completes_run (faithful : Host.Faithful ℝ m) {r : Cluster.Request ℝ}
    (valid : r.Valid files rows columns)
    (starts : r.Starts solver files rows columns bundle s p) :
    Completes (run ⟨solver, .standard⟩ r files : RunM ℝ m Result) fun _ => True := by
  obtain ⟨d, measured, findings⟩ := valid.clusters starts
  obtain ⟨_, found, _⟩ := findings ⟨pairCount s.size⟩
  have validated : validate r files = .ok bundle := Checked.bind_ok_iff.mpr
    ⟨bundle, starts.loaded, Checked.bind_ok_iff.mpr ⟨(), check_ok valid starts, rfl⟩⟩
  exact completes_of_finds faithful ⟨validated, starts.points, starts.made,
    starts.unhindered.prepared r.force, measured, found⟩

end Runs

end LocalMetric
