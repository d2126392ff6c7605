import LocalMetric.Proofs.Analyses
import LocalMetric.Proofs.Logs
import LocalMetric.Proofs.Pipelines
/-!
# Valid requests are run to their end

A valid request is never refused, by either kind of run. A file of labels has to fit even if nothing
asks for labels, since features are not loaded without the files beside them.
-/
namespace LocalMetric

section Completion

variable [Numeral ℝ] {m : Type → Type} [Monad m] [LawfulMonad m] [Host ℝ m]
  {files : FeatureFiles ℝ} {rows columns : ℕ}

/-- Both kinds of runs complete for valid requests, with any solver and any configuration. Each point
of such a request has a neighborhood with its own vector, and what is made of them is refused nowhere:
neither the analyses, nor the distances, nor the clusterings and their scores, nor the counts of the
dimensions. -/
theorem valid_runs_complete (faithful : Host.Faithful ℝ m) (solver : Solver ℝ)
    (fit : files.LabelsFit rows) :
    (∀ r : RunRequest ℝ, r.Valid files rows columns →
      (∃ bundle s p, r.Starts solver files rows columns bundle s p) ∧
      Completes (Preprocess.run ⟨solver, .standard⟩ r files : RunM ℝ m Preprocess.Result)
        fun _ => True) ∧
    ∀ r : Cluster.Request ℝ, r.Valid files rows columns →
      (∃ bundle s p, r.Starts solver files rows columns bundle s p ∧ r.Clusters bundle s p) ∧
      Completes (Cluster.run ⟨solver, .standard⟩ r files : RunM ℝ m Cluster.Result)
        fun _ => True := by
  constructor
  · intro r valid
    obtain ⟨bundle, s, p, starts⟩ := valid.exists_starts fit solver
    exact ⟨⟨bundle, s, p, starts⟩, Preprocess.completes_run faithful starts⟩
  · intro r valid
    obtain ⟨bundle, s, p, starts⟩ := valid.exists_starts fit solver
    exact ⟨⟨bundle, s, p, starts, valid.clusters starts⟩,
      Cluster.completes_run faithful valid starts⟩

end Completion

section Couple

/-- Whole numbers are written as they are, and others by their whole parts. -/
@[reducible]
noncomputable def wholeNumeral : Numeral ℝ where
  exact x := toString ⌊x⌋ ++ ".0"
  exactHalved x := toString ⌊x⌋ ++ ".0"
  brief x := toString ⌊x⌋
  integer? x := if (⌊x⌋ : ℝ) = x then some ⌊x⌋ else none
  truncated? x := some (if x < 0 then ⌈x⌉ else ⌊x⌋)
  ofText? text := text.toInt?.map fun n => (n : ℝ)

attribute [local instance] wholeNumeral

noncomputable def FeatureFiles.couple (labels : List Int) : FeatureFiles ℝ where
  features := some (.ok (.numbers (.ofMat #v[#v[0, 1], #v[1, 1]])))
  labels := some (.ok (.ints (.ofList labels)))

noncomputable def Cluster.Request.couple (evaluate : Bool) : Cluster.Request ℝ where
  featureFile := ⟨.relative, ["data", "features.npy"]⟩
  outputRoot := ⟨.relative, ["out"]⟩
  runId := some "t"
  preprocessor := "knn"
  parameters := {}
  config := ⟨1, 1, 1, .centroid, 0⟩
  workers := .int 1
  force := false
  radii := [1]
  minimum := 1
  evaluate := evaluate

theorem Cluster.Request.couple_valid {labels : List Int} {evaluate : Bool}
    (fit : evaluate = true → labels.length = 2) :
    (couple evaluate).Valid (.couple labels) 2 2 where
  nonempty := ⟨Nat.two_pos, Nat.two_pos⟩
  features := ⟨_, _, rfl, rfl, rfl⟩
  names := nofun
  reach := ⟨_, .unstated rfl rfl⟩
  workers := rfl
  radii := ⟨1, List.mem_singleton.mpr rfl, one_pos⟩
  minimum := le_rfl
  labels used := ⟨_, rfl, congrArg (fun n => [n]) (fit used), nofun⟩

theorem valid_runs_complete_couple :
    (∃ result, (record (Preprocess.run ⟨.spectral, .standard⟩ (Cluster.Request.couple true).toRunRequest
      (.couple [0, 1]))).1 = .ok result) ∧
    ∃ result, (record (Cluster.run ⟨.spectral, .standard⟩ (Cluster.Request.couple true)
      (.couple [0, 1]))).1 = .ok result := by
  have fit : (FeatureFiles.couple [0, 1]).LabelsFit 2 := by
    rintro file known
    cases known
    exact ⟨_, [], rfl, rfl⟩
  have valid : (Cluster.Request.couple true).Valid (.couple [0, 1]) 2 2 :=
    Cluster.Request.couple_valid fun _ => rfl
  have ⟨_, prepares⟩ :=
    (valid_runs_complete Host.faithful_record .spectral fit).1 _ valid.toValid
  have ⟨_, clusters⟩ := (valid_runs_complete Host.faithful_record .spectral fit).2 _ valid
  obtain ⟨a, _, prepared⟩ := exists_record_ok prepares
  obtain ⟨b, _, clustered⟩ := exists_record_ok clusters
  exact ⟨⟨a, prepared⟩, b, clustered⟩

/-- Three labels for two points are refused by both kinds of runs, although nothing asks for them. -/
theorem unused_labels_refused :
    (Cluster.Request.couple false).Valid (.couple [0, 1, 1]) 2 2 ∧
    (Cluster.Request.couple false).config.Accepted ∧ Solver.spectral.Exact ∧
    (record (Preprocess.run ⟨.spectral, .standard⟩ (Cluster.Request.couple false).toRunRequest
      (.couple [0, 1, 1]))).1 = .error (.labelCount 3 2) ∧
    (record (Cluster.run ⟨.spectral, .standard⟩ (Cluster.Request.couple false)
      (.couple [0, 1, 1]))).1 = .error (.labelCount 3 2) := by
  refine ⟨Cluster.Request.couple_valid nofun, Config.accepted_iff.mpr ?_, Solver.spectral_exact, ?_, ?_⟩
  · exact ⟨one_pos, le_rfl, one_pos, le_rfl, le_rfl⟩
  · rfl
  · rfl

theorem FeatureFiles.couple_fit : (couple [0, 1]).LabelsFit 2 := by
  rintro file known
  cases known
  exact ⟨_, [], rfl, rfl⟩

/-- Both kinds of runs answer on two points with their labels. -/
theorem Cluster.exists_recorded_couple : ∃ result log,
    recorded (run ⟨.spectral, .standard⟩ (.couple true) (.couple [0, 1])) = (.ok result, log) := by
  have valid : (Request.couple true).Valid (.couple [0, 1]) 2 2 := Request.couple_valid fun _ => rfl
  obtain ⟨_, _, _, starts⟩ := valid.exists_starts FeatureFiles.couple_fit .spectral
  have completes := completes_run (Host.faithful_logged Host.faithful_record) valid starts
  obtain ⟨result, _, answered⟩ := (Leaves.of_completes completes []).recorded
  exact ⟨result, _, Prod.ext answered rfl⟩

end Couple

end LocalMetric
