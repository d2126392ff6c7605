import LocalMetric.Proofs.Hosts
import LocalMetric.Proofs.Paths
import LocalMetric.Run.Cluster
import LocalMetric.Run.Preprocess
/-!
# Where runs write

A run makes its own directory and two below it, and writes files into these three and nowhere else.
So whatever is true of its own directory, and is inherited by what lies below, is true of every
directory that a run makes or writes into.
-/
namespace LocalMetric

variable {α β γ : Type}

def Effect.directory : Effect α → Path
  | makeDirectory path => path
  | write path _ => path.parent

/-- Each effect that a recorded run asks for has a property, and so has each answer that comes out
of it. -/
def Asks (run : RunM α (Record α) β) (P : Effect α → Prop) (Q : β → Prop) : Prop :=
  ∀ before, ∃ asked, (run.run.run before).2 = before ++ asked ∧ (∀ effect ∈ asked, P effect) ∧
    ∀ b, (run.run.run before).1 = .ok b → Q b

namespace Asks

variable {P : Effect α → Prop} {Q : β → Prop} {R : γ → Prop}

theorem pure {b : β} (holds : Q b) : Asks (Pure.pure b : RunM α (Record α) β) P Q := by
  intro before
  refine ⟨[], (List.append_nil _).symm, fun _ none => absurd none List.not_mem_nil, ?_⟩
  rintro _ ⟨⟩
  exact holds

theorem bind {run : RunM α (Record α) β} {next : β → RunM α (Record α) γ} (first : Asks run P Q)
    (rest : ∀ b, Q b → Asks (next b) P R) : Asks (run >>= next) P R := by
  intro before
  obtain ⟨asked, log, each, answers⟩ := first before
  have joined : (run >>= next).run.run before = match run.run.run before with
      | (.ok b, log) => (next b).run.run log
      | (.error fault, log) => (.error fault, log) := by
    rw [ExceptT.run_bind, StateT.run_bind]
    rcases run.run.run before with ⟨fault | b, log⟩ <;> rfl
  rw [joined]
  rcases outcome : run.run.run before with ⟨fault | b, after⟩
  · refine ⟨asked, ?_, each, nofun⟩
    rw [outcome] at log
    exact log
  · rw [outcome] at log answers
    obtain rfl : after = before ++ asked := log
    obtain ⟨later, log, each', answers'⟩ := rest b (answers b rfl) (before ++ asked)
    refine ⟨asked ++ later, log.trans (List.append_assoc _ _ _), ?_, answers'⟩
    intro effect member
    exact (List.mem_append.mp member).elim (each effect) (each' effect)

theorem mono {P' : Effect α → Prop} {run : RunM α (Record α) β} (asks : Asks run P Q)
    (implies : ∀ effect, P effect → P' effect) : Asks run P' Q := by
  intro before
  obtain ⟨asked, log, each, answers⟩ := asks before
  exact ⟨asked, log, fun effect member => implies effect (each effect member), answers⟩

/-- A computation asks for nothing, whether it is refused or not. -/
theorem checked (x : Checked α β) : Asks (liftM x : RunM α (Record α) β) P (x = .ok ·) := by
  intro before
  refine ⟨[], ?_, fun _ none => absurd none List.not_mem_nil, ?_⟩
  · cases x <;> exact (List.append_nil _).symm
  · rintro b answered
    cases x with
    | error fault => cases answered
    | ok value => cases answered; rfl

theorem record {run : RunM α (Record α) β} (asks : Asks run P Q) :
    ∀ effect ∈ (LocalMetric.record run).2, P effect := by
  obtain ⟨asked, log, each, _⟩ := asks []
  rw [LocalMetric.record, log]
  exact each

variable [Scalar α]

theorem now : Asks (ExceptT.lift Host.now : RunM α (Record α) Instant) P fun _ => True :=
  fun _ => ⟨[], (List.append_nil _).symm, fun _ none => absurd none List.not_mem_nil,
    fun _ _ => trivial⟩

theorem now_map (f : Instant → β) :
    Asks (ExceptT.lift (f <$> Host.now) : RunM α (Record α) β) P fun b => ∃ t, b = f t :=
  fun _ => ⟨[], (List.append_nil _).symm, fun _ none => absurd none List.not_mem_nil,
    fun _ answered => ⟨⟨0⟩, (Except.ok.inj answered).symm⟩⟩

theorem timed (f : Unit → β) :
    Asks (ExceptT.lift (Host.timed f) : RunM α (Record α) (β × α)) P fun _ => True :=
  fun _ => ⟨[], (List.append_nil _).symm, fun _ none => absurd none List.not_mem_nil,
    fun _ _ => trivial⟩

theorem perform {effect : Effect α} (holds : P effect) :
    Asks (RunContext.perform effect : RunM α (Record α) Unit) P fun _ => True :=
  fun _ => ⟨[effect], rfl, fun _ member => List.mem_singleton.mp member ▸ holds,
    fun _ _ => trivial⟩

end Asks

section Directories

variable {within : Path → Prop}

def Inherited (within : Path → Prop) : Prop :=
  ∀ (p : Path) (name : String), within p → Path.Plain name → within (p.child name)

theorem RunContext.within_features (inherited : Inherited within) {c : RunContext α}
    (holds : within c.directory) : within c.features := by
  have plain : Path.Plain "features" := by decide
  exact inherited _ _ holds plain

theorem RunContext.within_reports (inherited : Inherited within) {c : RunContext α}
    (holds : within c.directory) : within c.reports := by
  have plain : Path.Plain "reports" := by decide
  exact inherited _ _ holds plain

variable [Scalar α]

theorem RunContext.asks_write {p : Path} {name : String} (holds : within p)
    (plain : Path.Plain name) (content : Content α) :
    Asks (perform (.write (p.child name) content) : RunM α (Record α) Unit) (within ·.directory)
      fun _ => True := by
  refine .perform ?_
  rw [Effect.directory, Path.parent_child plain]
  exact holds

theorem RunContext.asks_writeText {p : Path} {name : String}
    (holds : within p) (plain : Path.Plain name) (text : String) :
    Asks (writeText (p.child name) text : RunM α (Record α) Unit) (within ·.directory)
      fun _ => True := by
  refine .bind (.perform ?_) fun _ _ => asks_write holds plain _
  rw [Effect.directory, Path.parent_child plain]
  exact holds

theorem RunContext.asks_create (inherited : Inherited within) {pipeline : String}
    {outputRoot : Path} {runId : Option String}
    (holds : ∀ c : RunContext α, Created pipeline outputRoot runId c → within c.directory) :
    Asks (create pipeline outputRoot runId : RunM α (Record α) (RunContext α)) (within ·.directory)
      fun c => within c.directory := by
  have started {name : String} (calls : Calls runId name) :
      Asks (start pipeline outputRoot name : RunM α (Record α) (RunContext α)) (within ·.directory)
        fun c => within c.directory := by
    have place := holds _ ⟨name, calls, rfl⟩
    exact .bind (.perform (within_features inherited place)) fun _ _ =>
      .bind (.perform (within_reports inherited place)) fun _ _ => .pure place
  rcases create_eq (m := Record α) pipeline outputRoot runId with
    ⟨name, calls, same⟩ | ⟨calls, same⟩
  · rw [same]
    exact started calls
  · rw [same]
    refine .bind (.now_map _) ?_
    rintro _ ⟨t, rfl⟩
    exact started (calls t)

variable [Numeral α]

theorem RunContext.asks_writeJson {p : Path} {name : String}
    (holds : within p) (plain : Path.Plain name) (value : Json α) :
    Asks (writeJson (p.child name) value : RunM α (Record α) Unit) (within ·.directory)
      fun _ => True :=
  asks_writeText holds plain value.text

theorem RunContext.asks_finalize {c : RunContext α}
    (holds : within c.directory) (settings : Json α) :
    Asks (finalize c settings : RunM α (Record α) Unit) (within ·.directory) fun _ => True :=
  .bind (asks_writeJson holds (by decide) _) fun _ _ =>
    .bind (asks_writeJson holds (by decide) _) fun _ _ =>
      asks_writeJson holds (by decide) _

theorem Preprocess.asks_writeTable {p : Path} {name : String}
    (holds : within p) (plain : Path.Plain name) (rows : List (PointSummary α)) :
    Asks (writeTable (p.child name) rows : RunM α (Record α) Unit) (within ·.directory)
      fun _ => True := by
  refine .bind (.checked _) fun text? _ => ?_
  cases text? with
  | none => exact .pure trivial
  | some text => exact RunContext.asks_writeText holds plain text

theorem Preprocess.asks_run (inherited : Inherited within) (tools : Toolbox α) (r : RunRequest α)
    (files : FeatureFiles α)
    (holds : ∀ c : RunContext α, RunContext.Created pipeline r.outputRoot r.runId c →
      within c.directory) :
    Asks (run tools r files : RunM α (Record α) Result) (within ·.directory) fun _ => True := by
  refine .bind (.checked _) fun bundle _ => .bind (RunContext.asks_create inherited holds) ?_
  intro c place
  have reports := RunContext.within_reports inherited place
  refine .bind (.checked _) fun points _ => ?_
  refine .bind (.checked _) fun p _ => ?_
  refine .bind (.timed _) ?_
  rintro ⟨outcome, seconds⟩ -
  refine .bind (.checked _) fun computed _ => ?_
  refine .bind (.checked _) fun rows _ => ?_
  refine .bind (asks_writeTable reports (by decide) _) fun _ _ => ?_
  refine .bind .now fun time _ => ?_
  refine .bind (RunContext.asks_writeJson reports (by decide) _) fun _ _ => ?_
  refine .bind (RunContext.asks_finalize ?_ _) fun _ _ => .pure trivial
  exact place

theorem Cluster.asks_run (inherited : Inherited within) (tools : Toolbox α) (r : Cluster.Request α)
    (files : FeatureFiles α)
    (holds : ∀ c : RunContext α, RunContext.Created pipeline r.outputRoot r.runId c →
      within c.directory) :
    Asks (run tools r files : RunM α (Record α) Result) (within ·.directory) fun _ => True := by
  refine .bind (.checked _) fun bundle _ => .bind (.checked _) fun _ _ =>
    .bind (RunContext.asks_create inherited holds) ?_
  intro c place
  have features := RunContext.within_features inherited place
  have reports := RunContext.within_reports inherited place
  refine .bind (.checked _) fun points _ => ?_
  refine .bind (.checked _) fun p _ => ?_
  refine .bind (.timed _) ?_
  rintro ⟨bound, seconds⟩ -
  refine .bind (.checked _) fun _ _ => ?_
  refine .bind (.timed _) ?_
  rintro ⟨measured, seconds'⟩ -
  refine .bind (.checked _) fun matrix _ => ?_
  refine .bind (RunContext.asks_write features (by decide) _) fun _ _ => ?_
  refine .bind (.checked _) fun db _ => ?_
  refine .bind (.checked _) fun counted _ => ?_
  refine .bind (.checked _) fun findings _ => ?_
  refine .bind (RunContext.asks_writeJson reports (by decide) _) fun _ _ => ?_
  refine .bind .now fun time _ => ?_
  refine .bind (RunContext.asks_finalize ?_ _) fun _ _ => .pure trivial
  exact place

end Directories

end LocalMetric
