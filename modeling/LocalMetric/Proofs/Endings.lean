import LocalMetric.Proofs.Accounts
import LocalMetric.Proofs.Logs
import LocalMetric.Proofs.Preparations
import LocalMetric.Proofs.Requests
import LocalMetric.Proofs.Summaries
import LocalMetric.Run.Preprocess
/-!
# How runs end

Every outcome of either kind of run is one of a few: the run is refused before it asks for anything,
or with its directories made, or with its distances kept as well, or it has written all its files. The
files of a run that is answered are told in full, and so is what had been computed by then.
-/
namespace LocalMetric

variable {α : Type} [Scalar α]

/-- A bundle has a name for each of its points. -/
theorem names_length_of_points [Numeral α] {bundle : FeatureBundle α} {db : Database α}
    (points : bundle.points = .ok db.points) : bundle.names.length = db.ids.length := by
  rw [bundle.names_length, ← (FeatureBundle.numbered_of_points points).1, Database.ids,
    Vector.length_toList]

section Rows

variable [Numeral α] {bundle : FeatureBundle α} {s : PointSet α} {p : Preprocessor α}
  {force : Bool} {count : ℕ} {rows : List (PointSummary α)}

/-- The rows that are reported after all points of a bundle were analysed: one for each point, in order
and with its name, and with a dimension that there can be. -/
structure FeatureBundle.Rows (bundle : FeatureBundle α) (rows : List (PointSummary α)) : Prop where
  names : rows.map PointSummary.name = bundle.names
  ids : rows.map PointSummary.id = PointSet.rowNumbers bundle.rows
  inside : ∀ row ∈ rows, 1 ≤ row.correlationDimension ∧ row.correlationDimension ≤ bundle.columns

theorem FeatureBundle.rows_of_run (points : bundle.points = .ok s)
    (answered : (p.run { points := s } force).1 = .ok count)
    (summarized : summarizePoints (p.run { points := s } force).2 bundle.names = .ok rows) :
    bundle.Rows rows := by
  obtain ⟨_, dim, ids⟩ := numbered_of_points points
  have prepared := Preprocessor.preparedBy_of_run (.inr rfl) answered
  have same := p.run_points { points := s } force
  generalize (p.run { points := s } force).2 = db at summarized prepared same
  obtain ⟨names, column⟩ :=
    columns_of_summarizePoints summarized (names_length_of_points (same ▸ points))
  refine ⟨names, by rw [column, Database.ids, same, ids], fun row member => ?_⟩
  obtain ⟨point, paired, shows⟩ :=
    Checked.exists_mem_zip (shows_of_summarizePoints summarized).flip member
  obtain ⟨r, stored, dimension⟩ := shows.outcome
  have known : point.2 ∈ db.ids := (List.of_mem_zip (List.of_mem_zip paired).2).2
  obtain ⟨r', stored', least, most⟩ := prepared.exists_outcome known
  obtain rfl : r = r' := Except.ok.inj (stored.symm.trans stored')
  rw [dimension, ← dim]
  rw [same] at most
  exact ⟨least, most⟩

omit [Scalar α] [Numeral α] in
theorem FeatureBundle.Rows.length_eq (complete : bundle.Rows rows) : rows.length = bundle.rows := by
  rw [← bundle.names_length, ← complete.names, List.length_map]

theorem FeatureBundle.Rows.ne_nil (complete : bundle.Rows rows) (points : bundle.points = .ok s) :
    rows ≠ [] := by
  rw [← List.length_pos_iff, complete.length_eq, ← (numbered_of_points points).1]
  exact s.nonempty.1

end Rows

section Sessions

variable {s : PointSet α} {p : Preprocessor α} {force : Bool} {g : Grid α}

/-- What a session with a single distance function shows once it has answered all distances. -/
structure Session.Answered (s : PointSet α) (p : Preprocessor α) (force : Bool) (g : Grid α)
    (last : Session α) : Prop where
  prepared : ∃ count, (p.run { points := s } force).1 = .ok count
  measured : (p.run { points := s } force).2.distanceMatrix s.ids.toList = .ok g
  database : Session.lookup (α := α) last.databases 0 = .ok (p.run { points := s } force).2
  counter : Session.lookup (α := α) last.counters 0 = .ok ⟨pairCount s.size⟩

theorem Session.answered_of_bind (bound : ((single s p force).bind 0 0).1 = .ok ())
    (answered : (((single s p force).bind 0 0).2.distanceMatrix 0 none).1 = .ok g) :
    Answered s p force g (((single s p force).bind 0 0).2.distanceMatrix 0 none).2 := by
  have known : (single s p force).metrics[0]? = some ⟨p, force, 0, none⟩ := rfl
  have found : (single s p force).databases[0]? = some { points := s } := rfl
  have after := getElem?_bind_self found known
  have binding := bound_after_bind found known
  have measured : (p.run { points := s } force).2.distanceMatrix s.ids.toList = .ok g := by
    rw [distanceMatrix_of_bound binding after, Option.getD_none, Database.ids, p.run_points]
      at answered
    exact answered
  have counts : ((single s p force).bind 0 0).2.counters[0]? = some ({ } : Counter) := by
    rw [counters_bind]
    rfl
  refine ⟨exists_run_of_bind known found bound, measured, ?_, ?_⟩
  · refine lookup_eq_of_getElem? ?_
    rw [databases_distanceMatrix]
    exact after
  · refine lookup_eq_of_getElem? ?_
    have size : ((p.run { points := s } force).2.ids).length = s.size := by
      rw [Database.ids, p.run_points]
      exact Vector.length_toList
    have reaches : ((single s p force).bind 0 0).2.measured 0 0 =
        some (p.run { points := s } force).2 := by
      have there : ((single s p force).bind 0 0).2.metrics[0]? = some ⟨p, force, 0, some 0⟩ := by
        rw [metrics_bind found known]
        rfl
      have reached : ((single s p force).bind 0 0).2.boundDatabase ⟨p, force, 0, some 0⟩ =
          .ok (p.run { points := s } force).2 := boundDatabase_eq after rfl
      simp only [Session.measured, there, reached, Except.toOption, if_true]
    rw [counter_after_distanceMatrix counts 0 none, paired, answered, reaches]
    simp only [Option.getD_none, size, Int.zero_add]
    rfl

theorem Session.bind_of_run (prepared : ∃ count, (p.run { points := s } force).1 = .ok count)
    (measured : (p.run { points := s } force).2.distanceMatrix s.ids.toList = .ok g) :
    ((single s p force).bind 0 0).1 = .ok () ∧
      (((single s p force).bind 0 0).2.distanceMatrix 0 none).1 = .ok g := by
  have known : (single s p force).metrics[0]? = some ⟨p, force, 0, none⟩ := rfl
  have found : (single s p force).databases[0]? = some { points := s } := rfl
  obtain ⟨count, prepared⟩ := prepared
  constructor
  · rw [bind_answer found known, prepared]
    rfl
  · rw [distanceMatrix_of_bound (bound_after_bind found known) (getElem?_bind_self found known),
      Option.getD_none, Database.ids, p.run_points]
    exact measured

end Sessions

variable [Numeral α] {m : Type → Type} [Monad m] [LawfulMonad m] [Host α m]

namespace Cluster

def validate (r : Request α) (files : FeatureFiles α) : Checked α (FeatureBundle α) := do
  let bundle ← FeatureBundle.load r.featureFile files
  check r bundle
  return bundle

omit [Numeral α] in
theorem accepted_of_check {r : Request α} {bundle : FeatureBundle α}
    (accepted : check r bundle = .ok ()) : (r.evaluate && bundle.labels.isNone) = false ∧
      (Selection.usableRadii r.radii).isEmpty = false ∧ ¬r.minimum < 1 := by
  cases labelled : r.evaluate && bundle.labels.isNone with
  | true =>
      simp only [check, labelled] at accepted
      cases accepted
  | false =>
      cases tried : (Selection.usableRadii r.radii).isEmpty with
      | true =>
          simp only [check, labelled, tried] at accepted
          cases accepted
      | false =>
          refine ⟨rfl, rfl, fun low => ?_⟩
          simp only [check, labelled, tried, if_pos low] at accepted
          cases accepted

/-- What a clustering run has computed before it reports, step by step. -/
structure Finds (tools : Toolbox α) (r : Request α) (files : FeatureFiles α)
    (bundle : FeatureBundle α) (s : PointSet α) (p : Preprocessor α) (g : Grid α) (f : Findings α) :
    Prop where
  valid : validate r files = .ok bundle
  points : bundle.points = .ok s
  made : r.makePreprocessor tools = .ok p
  prepared : ∃ count, (p.run { points := s } r.force).1 = .ok count
  measured : (p.run { points := s } r.force).2.distanceMatrix s.ids.toList = .ok g
  found : findings r bundle p (.ofMat g.entries) (p.run { points := s } r.force).2
    ⟨pairCount s.size⟩ = .ok f

theorem Finds.loaded {tools : Toolbox α} {r : Request α} {files : FeatureFiles α}
    {bundle : FeatureBundle α} {s : PointSet α} {p : Preprocessor α} {g : Grid α} {f : Findings α}
    (finds : Finds tools r files bundle s p g f) :
    FeatureBundle.load r.featureFile files = .ok bundle := by
  obtain ⟨bundle, loaded, rest⟩ := Checked.bind_ok_iff.mp finds.valid
  obtain ⟨⟨⟩, _, rest⟩ := Checked.bind_ok_iff.mp rest
  obtain rfl := Checked.pure_ok_iff.mp rest
  exact loaded

/-- A run that computes all of this is answered. -/
theorem completes_of_finds (faithful : Host.Faithful α m) {tools : Toolbox α} {r : Request α}
    {files : FeatureFiles α} {bundle : FeatureBundle α} {s : PointSet α} {p : Preprocessor α}
    {g : Grid α} {f : Findings α} (finds : Finds tools r files bundle s p g f) :
    Completes (run tools r files : RunM α m Result) fun _ => True := by
  obtain ⟨_, loaded, rest⟩ := Checked.bind_ok_iff.mp finds.valid
  obtain ⟨⟨⟩, accepted, rest⟩ := Checked.bind_ok_iff.mp rest
  obtain rfl := Checked.pure_ok_iff.mp rest
  obtain ⟨bound, measured⟩ := Session.bind_of_run finds.prepared finds.measured
  have answers : Session.Answered s p r.force g _ := Session.answered_of_bind bound measured
  refine .bind (.checked loaded) ?_
  rintro _ rfl
  refine .bind (.checked accepted) fun _ _ => ?_
  refine .bind (RunContext.completes_create _ _ _) fun context _ => .bind (.checked finds.points) ?_
  rintro _ rfl
  refine .bind (.checked finds.made) ?_
  rintro _ rfl
  refine .bind (completes_timed faithful fun _ => (Session.single s p r.force).bind 0 0) ?_
  rintro ⟨outcome, seconds⟩ same
  obtain rfl : outcome = (Session.single s p r.force).bind 0 0 := same
  refine .bind (.checked bound) fun _ _ => ?_
  refine .bind (completes_timed faithful _) ?_
  rintro ⟨matrix, seconds'⟩ same
  obtain rfl : matrix = ((Session.single s p r.force).bind 0 0).2.distanceMatrix 0 none := same
  refine .bind (.checked measured) ?_
  rintro _ rfl
  refine .bind (RunContext.completes_perform _) fun _ _ => ?_
  refine .bind (.checked answers.database) ?_
  rintro _ rfl
  refine .bind (.checked answers.counter) ?_
  rintro _ rfl
  refine .bind (.checked finds.found) ?_
  rintro _ rfl
  refine .bind (RunContext.completes_writeJson _ _) fun _ _ => .bind (.lift _) fun time _ => ?_
  exact .bind (RunContext.completes_finalize _ _) fun _ _ => .pure trivial

def distancesPath (c : RunContext α) : Path := c.features.child "locally_weighted_distances.npy"

def reportPath (c : RunContext α) : Path := c.reports.child "clustering_report.json"

def keeping (c : RunContext α) (g : Grid α) : Effect α :=
  .write (distancesPath c) (.data (.numbers (.ofMat g.entries)))

def finished (c : RunContext α) (prepared measured : α) : RunContext α :=
  (((c.addTiming "local_pca_seconds" prepared).addTiming "distance_matrix_seconds"
    measured).addArtifact "distances" (distancesPath c)).addArtifact "report" (reportPath c)

inductive Ends (tools : Toolbox α) (r : Request α) (files : FeatureFiles α) :
    Checked α Result → List (Effect α) → Prop
  | invalid {fault : Fault α} : validate r files = .error fault → Ends tools r files (.error fault) []
  | unmeasured {c : RunContext α} {bundle : FeatureBundle α} (fault : Fault α) :
      RunContext.Created pipeline r.outputRoot r.runId c → validate r files = .ok bundle →
      Ends tools r files (.error fault) c.opening
  | unclustered {c : RunContext α} {bundle : FeatureBundle α} (g : Grid α) (fault : Fault α) :
      RunContext.Created pipeline r.outputRoot r.runId c → validate r files = .ok bundle →
      Ends tools r files (.error fault) (c.opening ++ [keeping c g])
  | reported {c : RunContext α} {bundle : FeatureBundle α} {s : PointSet α} {p : Preprocessor α}
      {g : Grid α} {f : Findings α} (prepared measured : α) (time : Instant) :
      RunContext.Created pipeline r.outputRoot r.runId c → Finds tools r files bundle s p g f →
      Ends tools r files (.ok ⟨c.directory, reportPath c, distancesPath c⟩)
        (c.opening ++ [keeping c g] ++ RunContext.placing (reportPath c) (report r f).text ++
          (finished c prepared measured).closing (settings time r))

theorem leaves_run (faithful : Host.Faithful α m) (tools : Toolbox α) (r : Request α)
    (files : FeatureFiles α) :
    Leaves [] (run tools r files : RunM α (Logged α m) Result) (Ends tools r files) := by
  refine .bind_checked ?_ fun bundle loaded => .bind_checked ?_ fun _ accepted => ?_
  · exact fun fault refused => .invalid (Checked.bind_error_iff.mpr (.inl refused))
  · refine fun fault refused => .invalid (Checked.bind_error_iff.mpr (.inr ⟨bundle, loaded, ?_⟩))
    exact Checked.bind_error_iff.mpr (.inl refused)
  have valid : validate r files = .ok bundle :=
    Checked.bind_ok_iff.mpr ⟨bundle, loaded, Checked.bind_ok_iff.mpr ⟨(), accepted, rfl⟩⟩
  refine RunContext.leaves_create fun c created => ?_
  rw [List.nil_append]
  have refusal (fault : Fault α) : Ends tools r files (.error fault) c.opening :=
    .unmeasured fault created valid
  refine .bind_checked (fun fault _ => refusal fault) fun s points => ?_
  refine .bind_checked (fun fault _ => refusal fault) fun p made => ?_
  refine .bind_timed faithful fun prepared => ?_
  refine .bind_checked (fun fault _ => refusal fault) fun _ bound => ?_
  refine .bind_timed faithful fun measured => ?_
  refine .bind_checked (fun fault _ => refusal fault) fun g answered => ?_
  have answers : Session.Answered s p r.force g _ := Session.answered_of_bind bound answered
  refine (RunContext.does_perform (keeping c g)).leaves_bind ?_
  have refusal (fault : Fault α) : Ends tools r files (.error fault) (c.opening ++ [keeping c g]) :=
    .unclustered g fault created valid
  refine .bind_checked (fun fault _ => refusal fault) fun db found => ?_
  refine .bind_checked (fun fault _ => refusal fault) fun counter counted => ?_
  obtain rfl := Except.ok.inj (answers.database.symm.trans found)
  obtain rfl := Except.ok.inj (answers.counter.symm.trans counted)
  refine .bind_checked (fun fault _ => refusal fault) fun f found => ?_
  refine (RunContext.does_writeJson (reportPath c) (report r f)).leaves_bind ?_
  refine .bind_now fun time => ?_
  refine (RunContext.does_finalize (finished c prepared measured) (settings time r)).leaves_bind ?_
  exact .pure (.reported (c := c) prepared measured time created
    ⟨valid, points, made, answers.prepared, answers.measured, found⟩)

end Cluster

namespace Preprocess

structure Finds (tools : Toolbox α) (r : RunRequest α) (files : FeatureFiles α)
    (bundle : FeatureBundle α) (s : PointSet α) (p : Preprocessor α) (count : Nat)
    (rows : List (PointSummary α)) : Prop where
  loaded : FeatureBundle.load r.featureFile files = .ok bundle
  points : bundle.points = .ok s
  made : r.makePreprocessor tools = .ok p
  prepared : (p.run { points := s } true).1 = .ok count
  summarized : summarizePoints (p.run { points := s } true).2 bundle.names = .ok rows

theorem completes_writeTable (path : Path) (rows : List (PointSummary α)) :
    Completes (writeTable path rows : RunM α m Unit) fun _ => True := by
  obtain ⟨text, written⟩ := PointSummary.exists_tableText_fields rows
  refine .bind (.checked written) ?_
  rintro _ rfl
  cases text with
  | none => exact .pure trivial
  | some text => exact RunContext.completes_writeText _ _

/-- A run that computes all of this is answered. -/
theorem completes_of_finds (faithful : Host.Faithful α m) {tools : Toolbox α} {r : RunRequest α}
    {files : FeatureFiles α} {bundle : FeatureBundle α} {s : PointSet α} {p : Preprocessor α}
    {count : ℕ} {rows : List (PointSummary α)} (finds : Finds tools r files bundle s p count rows) :
    Completes (run tools r files : RunM α m Result) fun _ => True := by
  refine .bind (.checked finds.loaded) ?_
  rintro _ rfl
  refine .bind (RunContext.completes_create _ _ _) fun context _ => .bind (.checked finds.points) ?_
  rintro _ rfl
  refine .bind (.checked finds.made) ?_
  rintro _ rfl
  refine .bind (completes_timed faithful _) ?_
  rintro ⟨outcome, seconds⟩ same
  obtain rfl : outcome = p.run { points := s } true := same
  refine .bind (.checked finds.prepared) ?_
  rintro _ rfl
  refine .bind (.checked finds.summarized) ?_
  rintro _ rfl
  refine .bind (completes_writeTable _ _) fun _ _ => .bind (.lift _) fun time _ => ?_
  refine .bind (RunContext.completes_writeJson _ _) fun _ _ => ?_
  exact .bind (RunContext.completes_finalize _ _) fun _ _ => .pure trivial

def tablePath (c : RunContext α) : Path := c.reports.child "local_pca_points.csv"

def reportPath (c : RunContext α) : Path := c.reports.child "preprocess_report.json"

def finished (c : RunContext α) (prepared : α) : RunContext α :=
  ((c.addTiming "local_pca_seconds" prepared).addArtifact "local_pca_table"
    (tablePath c)).addArtifact "report" (reportPath c)

def tableText (rows : List (PointSummary α)) : String :=
  Csv.text (PointSummary.columns :: rows.map PointSummary.cells)

inductive Ends (tools : Toolbox α) (r : RunRequest α) (files : FeatureFiles α) :
    Checked α Result → List (Effect α) → Prop
  | unloaded {fault : Fault α} : FeatureBundle.load r.featureFile files = .error fault →
      Ends tools r files (.error fault) []
  | unprepared {c : RunContext α} (fault : Fault α) :
      RunContext.Created pipeline r.outputRoot r.runId c →
      Ends tools r files (.error fault) c.opening
  | reported {c : RunContext α} {bundle : FeatureBundle α} {s : PointSet α} {p : Preprocessor α}
      {count : Nat} {rows : List (PointSummary α)} (prepared : α) (time : Instant) :
      RunContext.Created pipeline r.outputRoot r.runId c →
      Finds tools r files bundle s p count rows →
      Ends tools r files (.ok ⟨c.directory, reportPath c, tablePath c⟩)
        (c.opening ++ RunContext.placing (tablePath c) (tableText rows) ++
          RunContext.placing (reportPath c)
            (report time r bundle count p (summarizeDimensions rows s.dim)).text ++
          (finished c prepared).closing (.obj (("pipeline", .str pipeline) :: r.settings)))

theorem does_writeTable {rows : List (PointSummary α)} (filled : rows ≠ []) (path : Path) :
    Does (writeTable path rows : RunM α (Logged α m) Unit)
      (RunContext.placing path (tableText rows)) := by
  intro log
  have tabulated := PointSummary.tableText_fields filled
  refine .bind_checked (fun fault refused => ?_) fun text? answered => ?_
  · rw [tabulated] at refused
    cases refused
  · obtain rfl := Except.ok.inj (tabulated.symm.trans answered)
    exact RunContext.does_writeText path (tableText rows) log

theorem leaves_run (faithful : Host.Faithful α m) (tools : Toolbox α) (r : RunRequest α)
    (files : FeatureFiles α) :
    Leaves [] (run tools r files : RunM α (Logged α m) Result) (Ends tools r files) := by
  refine .bind_checked (fun fault refused => .unloaded refused) fun bundle loaded => ?_
  refine RunContext.leaves_create fun c created => ?_
  rw [List.nil_append]
  have refusal (fault : Fault α) : Ends tools r files (.error fault) c.opening :=
    .unprepared fault created
  refine .bind_checked (fun fault _ => refusal fault) fun s points => ?_
  refine .bind_checked (fun fault _ => refusal fault) fun p made => ?_
  refine .bind_timed faithful fun prepared => ?_
  refine .bind_checked (fun fault _ => refusal fault) fun count answered => ?_
  refine .bind_checked (fun fault _ => refusal fault) fun rows summarized => ?_
  have filled := (FeatureBundle.rows_of_run points answered summarized).ne_nil points
  refine (does_writeTable filled (tablePath c)).leaves_bind ?_
  refine .bind_now fun time => ?_
  refine (RunContext.does_writeJson (reportPath c) _).leaves_bind ?_
  refine (RunContext.does_finalize (finished c prepared) _).leaves_bind ?_
  exact .pure (.reported (c := c) prepared time created
    ⟨loaded, points, made, answered, summarized⟩)

end Preprocess

end LocalMetric
