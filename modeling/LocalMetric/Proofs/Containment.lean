import LocalMetric.Cli.Command
import LocalMetric.Proofs.Effects
/-!
# Runs stay inside their output directory

The directories of a run lie below the directory of its pipeline if the id of the run is a path that
never leaves the place it is taken from. Ids are not checked, so a run with any other id writes
wherever the id leads, also to where output roots are never put.
-/
namespace LocalMetric

theorem Instant.slash_notMem_padded (width n : Nat) : '/' ∉ (padded width n).toList := by
  intro slash
  rw [padded, String.toList_ofList] at slash
  rcases List.mem_append.mp slash with zeros | digits
  · exact absurd (List.eq_of_mem_replicate zeros) (by decide)
  · exact absurd (Nat.isDigit_of_mem_toDigits (by decide) (by decide) digits) (by decide)

/-- A run that is named after the time has a plain name. -/
theorem Instant.plain_runName (t : Instant) : Path.Plain t.runName := by
  refine Path.plain_of_mem (c := 'T') ?_ ?_ (by decide)
  · simp only [runName, String.toList_append, String.toList_join, List.mem_append,
      List.mem_flatMap, List.mem_map]
    rintro (((((year | month) | day) | letter) | ⟨_, ⟨n, -, rfl⟩, time⟩) | letter)
    · exact slash_notMem_padded _ _ year
    · exact slash_notMem_padded _ _ month
    · exact slash_notMem_padded _ _ day
    · exact absurd letter (by decide)
    · exact slash_notMem_padded _ _ time
    · exact absurd letter (by decide)
  · simp [runName]

namespace RunContext

variable {α : Type}

/-- The directories of a run are strictly below the directory of its pipeline. -/
def Contained (place : Path) (c : RunContext α) : Prop :=
  ∀ directory ∈ [c.directory, c.features, c.reports],
    (place.resolve (c.outputRoot.child c.pipeline)).Inside (place.resolve directory)

instance (place : Path) (c : RunContext α) : Decidable (Contained place c) :=
  inferInstanceAs (Decidable (∀ directory ∈ [c.directory, c.features, c.reports], _))

theorem inherited_inside (place base : Path) :
    Inherited fun directory => base.Inside (place.resolve directory) := by
  intro p name holds plain
  exact holds.trans (Path.inside_join (Path.confined_of_plain plain) place p)

/-- Ids that lead below the place they are taken from, without leaving it on the way. Without an id,
or with an empty one, a run has a plain name. -/
def Kept (runId : Option String) : Prop := ∀ id ∈ runId, id = "" ∨ (Path.ofText id).Confined

instance : DecidablePred Kept := fun runId =>
  inferInstanceAs (Decidable (∀ id ∈ runId, _ ∨ _))

variable {pipeline : String} {outputRoot : Path} {runId : Option String}

theorem Calls.confined {name : String} (kept : Kept runId) (calls : Calls runId name) :
    (Path.ofText name).Confined := by
  rcases calls with ⟨rfl, filled⟩ | ⟨_, t, rfl⟩
  · exact (kept name rfl).resolve_left filled
  · exact Path.confined_of_plain t.plain_runName

theorem Created.inside {c : RunContext α} (kept : Kept runId)
    (created : Created pipeline outputRoot runId c) (place : Path) :
    (place.resolve (outputRoot.child pipeline)).Inside (place.resolve c.directory) := by
  obtain ⟨name, calls, rfl⟩ := created
  exact Path.inside_join (calls.confined kept) place _

theorem Created.contained {c : RunContext α} (kept : Kept runId)
    (created : Created pipeline outputRoot runId c) (place : Path) : c.Contained place := by
  have inside := created.inside kept place
  obtain ⟨name, calls, rfl⟩ := created
  have inherited := inherited_inside place (place.resolve (outputRoot.child pipeline))
  intro directory member
  simp only [List.mem_cons, List.not_mem_nil, or_false] at member
  rcases member with rfl | rfl | rfl
  · exact inside
  · exact within_features inherited inside
  · exact within_reports inherited inside

variable [Scalar α]

theorem record_create_some (pipeline : String) (outputRoot : Path) {id : String}
    (filled : id ≠ "") :
    (record (create pipeline outputRoot (some id) : RunM α (Record α) (RunContext α))).1 =
      .ok { pipeline, outputRoot, runId := id } := by
  rw [create, if_neg filled]
  rfl

/-- The runs with an id are all contained, whatever their output root and their pipeline and
whenever they start, exactly if the id is kept. -/
theorem runs_contained_iff (runId : Option String) :
    (∀ (place outputRoot : Path) (pipeline : String) {m : Type → Type} [Monad m] [LawfulMonad m]
      [Host α m], Completes (create pipeline outputRoot runId : RunM α m (RunContext α))
        (Contained place)) ↔ Kept runId := by
  constructor
  · intro contained id given
    rw [or_iff_not_imp_left]
    intro filled
    refine Path.confined_of_inside fun name _ => ?_
    obtain ⟨c, inside, answered⟩ :=
      exists_record_ok (contained ⟨.slash, []⟩ ⟨.slash, []⟩ name (m := Record α))
    rw [Option.mem_def.mp given, record_create_some _ _ filled] at answered
    obtain rfl := Except.ok.inj answered
    exact inside _ List.mem_cons_self
  · intro kept place outputRoot pipeline m _ _ _
    refine (completes_create pipeline outputRoot runId).mono fun c created => ?_
    exact created.contained kept place

/-- With the default output root, the id `../..` leads a run back to the working directory: the
settings of the run are written directly into it. -/
theorem runs_contained_fails_climbing :
    let place : Path := ⟨.slash, ["w"]⟩
    let c : RunContext Float :=
      { pipeline := Preprocess.pipeline, outputRoot := ⟨.slash, ["w", "runs"]⟩, runId := "../.." }
    Path.outputRoot (α := Float) (fun _ => none) place (.ofText "runs") "preprocess" =
        .ok c.outputRoot ∧
      (record (create c.pipeline c.outputRoot (some c.runId) :
        RunM Float (Record Float) (RunContext Float))).1 = .ok c ∧
      ¬Contained place c ∧ place.resolve c.directory = place ∧
      place.resolve (c.directory.child "run_config.json") =
        ⟨.slash, ["w", "run_config.json"]⟩ := by
  refine ⟨rfl, rfl, by decide, by decide, by decide⟩

end RunContext

namespace Cli

variable {place : Surroundings} {run : RunOptions}

/-- What is made or written into is strictly below the directory of the pipeline, in the output root
that was found for the caller. -/
def WritesInside (place : Surroundings) (run : RunOptions) (caller pipeline : String)
    (effect : Effect Float) : Prop :=
  ∃ outputRoot, Path.outputRoot (α := Float) place.home place.directory run.outputRoot caller =
      .ok outputRoot ∧
    (place.directory.resolve (outputRoot.child pipeline)).Inside
      (place.directory.resolve effect.directory)

theorem request_of_ok {caller : String} {request : RunRequest Float}
    (answered : run.request place caller = .ok request) :
    Path.outputRoot (α := Float) place.home place.directory run.outputRoot caller =
      .ok request.outputRoot ∧ request.runId = run.runId := by
  obtain ⟨outputRoot, resolved, answered⟩ := Checked.bind_ok_iff.mp answered
  obtain ⟨parameters, _, answered⟩ := Checked.bind_ok_iff.mp answered
  obtain ⟨config, _, answered⟩ := Checked.bind_ok_iff.mp answered
  obtain rfl := Checked.pure_ok_iff.mp answered
  exact ⟨resolved, rfl⟩

/-- Commands with a kept id make directories and write files only strictly below the directory of
their pipeline, whether they are refused in the end or not. -/
theorem commands_write_inside (tools : Toolbox Float) (place : Surroundings)
    (files : FeatureFiles Float) (options : ClusterOptions)
    (kept : RunContext.Kept run.runId) :
    (∀ effect ∈ (record ((Command.cluster run options).execute tools place files)).2,
      WritesInside place run "run_clustering" Cluster.pipeline effect) ∧
    ∀ effect ∈ (record ((Command.preprocess run).execute tools place files)).2,
      WritesInside place run "preprocess" Preprocess.pipeline effect := by
  have inherited (base : Path) := RunContext.inherited_inside place.directory base
  constructor
  · refine Asks.record (Q := fun _ => True) (.bind (.checked _) fun request answered => ?_)
    obtain ⟨resolved, called⟩ := request_of_ok answered
    refine .bind (Q := fun _ => True) (Asks.mono ?_ fun effect inside => ⟨_, resolved, inside⟩)
      fun _ _ => .pure trivial
    refine Cluster.asks_run (inherited _) _ _ _ fun c created => ?_
    exact created.inside (called ▸ kept) _
  · refine Asks.record (Q := fun _ => True) (.bind (.checked _) fun request answered => ?_)
    obtain ⟨resolved, called⟩ := request_of_ok answered
    refine .bind (Q := fun _ => True) (Asks.mono ?_ fun effect inside => ⟨_, resolved, inside⟩)
      fun _ _ => .pure trivial
    refine Preprocess.asks_run (inherited _) _ _ _ fun c created => ?_
    exact created.inside (called ▸ kept) _

end Cli

end LocalMetric
