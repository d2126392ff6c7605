import LocalMetric.Proofs.Hosts
/-!
# What runs leave behind

Any host can keep a list of what it was asked for. A run is followed step by step along that list:
what is left to be shown of a run that starts with a step is what is left of its refusal, with the
list as it was, and of the steps that come after it, with the list as the step leaves it.
-/
namespace LocalMetric

/-- A host that also keeps a list of what it was asked for. -/
def Logged (α : Type) (m : Type → Type) : Type → Type := StateT (List (Effect α)) m

variable {α β γ : Type} {m : Type → Type} [Monad m]

instance : Monad (Logged α m) := inferInstanceAs (Monad (StateT (List (Effect α)) m))

instance [LawfulMonad m] : LawfulMonad (Logged α m) :=
  inferInstanceAs (LawfulMonad (StateT (List (Effect α)) m))

instance [Host α m] : Host α (Logged α m) where
  perform effect := fun log => (fun done => (done, log ++ [effect])) <$> Host.perform effect
  timed f := fun log => (fun timed => (timed, log)) <$> Host.timed f
  now := fun log => (fun time => (time, log)) <$> Host.now

/-- What comes out of a run that goes on with a list: an answer or a refusal, and the longer list. -/
def outcome (run : RunM α (Logged α m) β) (log : List (Effect α)) :
    m (Checked α β × List (Effect α)) :=
  run.run log

/-- A refusal is kept as it is, and an answer is followed by what comes next. -/
theorem outcome_bind (run : RunM α (Logged α m) β) (next : β → RunM α (Logged α m) γ)
    (log : List (Effect α)) :
    outcome (run >>= next) log = outcome run log >>= fun o =>
      match o.1 with
      | .ok b => outcome (next b) o.2
      | .error fault => pure (.error fault, o.2) := by
  refine congrArg (outcome run log >>= ·) (funext fun o => ?_)
  obtain ⟨fault | b, after⟩ := o
  · rfl
  · rfl

theorem outcome_lift [LawfulMonad m] (x : Logged α m β) (log : List (Effect α)) :
    outcome (ExceptT.lift x : RunM α (Logged α m) β) log =
      (fun o => (.ok o.1, o.2)) <$> (x log : m (β × List (Effect α))) := by
  rw [outcome, ExceptT.run_lift]
  exact (map_eq_pure_bind _ _).symm

/-- Each outcome of a run that goes on with a list has a property. -/
def Leaves (log : List (Effect α)) (run : RunM α (Logged α m) β)
    (Q : Checked α β → List (Effect α) → Prop) : Prop :=
  ∃ outcomes : m {o : Checked α β × List (Effect α) // Q o.1 o.2},
    outcome run log = Subtype.val <$> outcomes

namespace Leaves

variable [LawfulMonad m] {log : List (Effect α)} {Q : Checked α β → List (Effect α) → Prop}
  {R : Checked α γ → List (Effect α) → Prop}

theorem pure {b : β} (holds : Q (.ok b) log) : Leaves log (Pure.pure b : RunM α (Logged α m) β) Q := by
  refine ⟨Pure.pure ⟨(.ok b, log), holds⟩, ?_⟩
  rw [map_pure]
  rfl

theorem mono {Q' : Checked α β → List (Effect α) → Prop} {run : RunM α (Logged α m) β}
    (leaves : Leaves log run Q) (implies : ∀ answer after, Q answer after → Q' answer after) :
    Leaves log run Q' := by
  obtain ⟨outcomes, same⟩ := leaves
  refine ⟨(fun o => ⟨o.1, implies o.1.1 o.1.2 o.2⟩) <$> outcomes, ?_⟩
  rw [same, Functor.map_map]

theorem bind {run : RunM α (Logged α m) β} {next : β → RunM α (Logged α m) γ}
    (first : Leaves log run Q) (refused : ∀ fault after, Q (.error fault) after → R (.error fault) after)
    (rest : ∀ b after, Q (.ok b) after → Leaves after (next b) R) :
    Leaves log (run >>= next) R := by
  obtain ⟨outcomes, same⟩ := first
  have each (o : {o : Checked α β × List (Effect α) // Q o.1 o.2}) :
      ∃ later : m {o : Checked α γ × List (Effect α) // R o.1 o.2},
        (match o.1.1 with
          | .ok b => outcome (next b) o.1.2
          | .error fault => Pure.pure (.error fault, o.1.2)) = Subtype.val <$> later := by
    obtain ⟨⟨fault | b, after⟩, holds⟩ := o
    · refine ⟨Pure.pure ⟨(.error fault, after), refused fault after holds⟩, ?_⟩
      rw [map_pure]
    · exact rest b after holds
  choose later follows using each
  refine ⟨outcomes >>= later, ?_⟩
  rw [outcome_bind, same, bind_map_left, map_bind]
  exact congrArg (outcomes >>= ·) (funext follows)

/-- A step that may be refused asks for nothing. -/
theorem bind_checked {x : Checked α β} {next : β → RunM α (Logged α m) γ}
    (refused : ∀ fault, x = .error fault → R (.error fault) log)
    (rest : ∀ b, x = .ok b → Leaves log (next b) R) :
    Leaves log ((liftM x : RunM α (Logged α m) β) >>= next) R := by
  have first : Leaves log (liftM x : RunM α (Logged α m) β) fun answer after =>
      answer = x ∧ after = log := by
    refine ⟨Pure.pure ⟨(x, log), rfl, rfl⟩, ?_⟩
    rw [map_pure]
    cases x <;> rfl
  refine first.bind ?_ ?_
  · rintro fault _ ⟨same, rfl⟩
    exact refused fault same.symm
  · rintro b _ ⟨same, rfl⟩
    exact rest b same.symm

/-- A step on the host always answers, and leaves the list in one state. -/
theorem bind_lift {x : Logged α m β} {P : β → Prop} (after : List (Effect α))
    (answers : m {b // P b})
    (same : (x log : m (β × List (Effect α))) = (fun b => (b.1, after)) <$> answers)
    {next : β → RunM α (Logged α m) γ} (rest : ∀ b, P b → Leaves after (next b) R) :
    Leaves log ((ExceptT.lift x : RunM α (Logged α m) β) >>= next) R := by
  have first : Leaves log (ExceptT.lift x : RunM α (Logged α m) β) fun answer last =>
      ∃ b, P b ∧ answer = .ok b ∧ last = after := by
    refine ⟨(fun b => ⟨(.ok b.1, after), b.1, b.2, rfl, rfl⟩) <$> answers, ?_⟩
    rw [outcome_lift, same, Functor.map_map, Functor.map_map]
  refine first.bind ?_ ?_
  · rintro fault _ ⟨_, _, impossible, _⟩
    cases impossible
  · rintro given _ ⟨b, holds, answered, rfl⟩
    obtain rfl : given = b := Except.ok.inj answered
    exact rest given holds

variable [Host α m]

/-- What is timed is computed, and nothing else is done. -/
theorem bind_timed (faithful : Host.Faithful α m) {f : Unit → β}
    {next : β × α → RunM α (Logged α m) γ} (rest : ∀ seconds, Leaves log (next (f (), seconds)) R) :
    Leaves log ((ExceptT.lift (Host.timed f) : RunM α (Logged α m) (β × α)) >>= next) R := by
  obtain ⟨seconds, same⟩ := faithful f
  refine bind_lift (P := fun timed => timed.1 = f ()) log
    ((fun passed => ⟨(f (), passed), rfl⟩) <$> seconds) ?_ ?_
  · change (fun timed => (timed, log)) <$> Host.timed f = _
    rw [same, Functor.map_map, Functor.map_map]
  · rintro ⟨_, passed⟩ rfl
    exact rest passed

theorem bind_now {next : Instant → RunM α (Logged α m) γ}
    (rest : ∀ time, Leaves log (next time) R) :
    Leaves log ((ExceptT.lift Host.now : RunM α (Logged α m) Instant) >>= next) R := by
  refine bind_lift (P := fun _ => True) log ((fun time => ⟨time, trivial⟩) <$> Host.now) ?_
    fun time _ => rest time
  rw [Functor.map_map]
  rfl

theorem bind_now_map {f : Instant → β} {next : β → RunM α (Logged α m) γ}
    (rest : ∀ time, Leaves log (next (f time)) R) :
    Leaves log ((ExceptT.lift (f <$> Host.now) : RunM α (Logged α m) β) >>= next) R := by
  refine bind_lift (P := fun b => ∃ time, b = f time) log
    ((fun time => ⟨f time, time, rfl⟩) <$> Host.now) ?_ ?_
  · change ((fun time => (time, log)) <$> Host.now >>= fun o => Pure.pure (f o.1, o.2)) = _
    rw [bind_map_left, Functor.map_map, map_eq_pure_bind]
  · rintro _ ⟨time, rfl⟩
    exact rest time

end Leaves

section Recorded

variable [LawfulMonad m]

theorem Leaves.of_completes {run : RunM α (Logged α m) β} {P : β → Prop}
    (completes : Completes run P) (log : List (Effect α)) :
    Leaves log run fun answer _ => ∃ b, P b ∧ answer = .ok b := by
  obtain ⟨answers, same⟩ := completes
  refine ⟨(fun o => ⟨(.ok o.1.1, o.2), o.1.1, o.1.2, rfl⟩) <$>
    (answers log : m ({b // P b} × List (Effect α))), ?_⟩
  rw [outcome, same, Functor.map_map]
  exact (map_eq_pure_bind _ _).symm

theorem Host.faithful_logged [Host α m] (faithful : Host.Faithful α m) :
    Host.Faithful α (Logged α m) := by
  intro β f
  obtain ⟨seconds, same⟩ := faithful f
  refine ⟨fun log => (fun passed => (passed, log)) <$> seconds, funext fun log => ?_⟩
  change (fun timed => (timed, log)) <$> Host.timed f =
    (fun passed => (passed, log)) <$> seconds >>= fun o => pure ((f (), o.1), o.2)
  rw [same, Functor.map_map, bind_map_left, map_eq_pure_bind]

/-- On a recording host each run has one outcome. -/
def recorded [Scalar α] (run : RunM α (Logged α (Record α)) β) : Checked α β × List (Effect α) :=
  (StateT.run (outcome run []) []).1

theorem Leaves.recorded [Scalar α] {run : RunM α (Logged α (Record α)) β}
    {Q : Checked α β → List (Effect α) → Prop} (leaves : Leaves [] run Q) :
    Q (recorded run).1 (recorded run).2 := by
  obtain ⟨outcomes, same⟩ := leaves
  rw [LocalMetric.recorded, same]
  exact (StateT.run outcomes []).1.2

end Recorded

/-- A run that is never refused, and that always asks for the same. -/
def Does (run : RunM α (Logged α m) Unit) (effects : List (Effect α)) : Prop :=
  ∀ log, Leaves log run fun answer after => answer = .ok () ∧ after = log ++ effects

namespace Does

variable [LawfulMonad m] {log effects later : List (Effect α)} {run next : RunM α (Logged α m) Unit}

theorem leaves_bind (does : Does run effects) {rest : Unit → RunM α (Logged α m) γ}
    {R : Checked α γ → List (Effect α) → Prop} (leaves : Leaves (log ++ effects) (rest ()) R) :
    Leaves log (run >>= rest) R := by
  refine (does log).bind ?_ ?_
  · rintro fault _ ⟨impossible, _⟩
    cases impossible
  · rintro ⟨⟩ _ ⟨_, rfl⟩
    exact leaves

theorem bind (first : Does run effects) (second : Does next later) :
    Does (run >>= fun _ => next) (effects ++ later) := by
  intro log
  refine first.leaves_bind ((second _).mono ?_)
  rintro _ _ ⟨answered, rfl⟩
  exact ⟨answered, List.append_assoc _ _ _⟩

end Does

namespace RunContext

variable [LawfulMonad m] [Host α m]

theorem does_perform (effect : Effect α) :
    Does (perform effect : RunM α (Logged α m) Unit) [effect] := by
  intro log
  rw [← bind_pure (perform effect : RunM α (Logged α m) Unit)]
  refine .bind_lift (P := fun _ => True) (log ++ [effect])
    ((fun done => ⟨done, trivial⟩) <$> Host.perform effect) ?_ fun _ _ => .pure ⟨rfl, rfl⟩
  rw [Functor.map_map]
  rfl

def placing (path : Path) (text : String) : List (Effect α) :=
  [.makeDirectory path.parent, .write path (.text text)]

theorem wrote_placing (path : Path) (text : String) :
    .write path (.text text) ∈ (placing path text : List (Effect α)) :=
  List.mem_pair.mpr (.inr rfl)

theorem does_writeText (path : Path) (text : String) :
    Does (writeText path text : RunM α (Logged α m) Unit) (placing path text) :=
  .bind (does_perform _) (does_perform _)

theorem does_writeJson [Numeral α] (path : Path) (value : Json α) :
    Does (writeJson path value : RunM α (Logged α m) Unit) (placing path value.text) :=
  does_writeText path value.text

def index (c : RunContext α) : Json α :=
  .obj (c.artifacts.entries.map fun (key, path) => (key, .str path))

def durations (c : RunContext α) : Json α :=
  .obj (c.timings.entries.map fun (key, seconds) => (key, .num seconds))

def closing [Numeral α] (c : RunContext α) (settings : Json α) : List (Effect α) :=
  placing (c.directory.child "run_config.json") settings.text ++
    (placing (c.directory.child "artifact_index.json") c.index.text ++
      placing (c.directory.child "timings.json") c.durations.text)

theorem does_finalize [Numeral α] (c : RunContext α) (settings : Json α) :
    Does (finalize c settings : RunM α (Logged α m) Unit) (c.closing settings) :=
  .bind (does_writeJson _ _) (.bind (does_writeJson _ _) (does_writeJson _ _))

def opening (c : RunContext α) : List (Effect α) :=
  [.makeDirectory c.features, .makeDirectory c.reports]

theorem leaves_create {pipeline : String} {outputRoot : Path} {runId : Option String}
    {log : List (Effect α)} {next : RunContext α → RunM α (Logged α m) γ}
    {R : Checked α γ → List (Effect α) → Prop}
    (rest : ∀ c, Created pipeline outputRoot runId c → Leaves (log ++ c.opening) (next c) R) :
    Leaves log ((create pipeline outputRoot runId : RunM α (Logged α m) (RunContext α)) >>= next)
      R := by
  have started {name : String} (calls : Calls runId name) :
      Leaves log ((start pipeline outputRoot name : RunM α (Logged α m) (RunContext α)) >>= next)
        R := by
    have later := rest _ ⟨name, calls, rfl⟩
    rw [opening, ← List.singleton_append, ← List.append_assoc] at later
    simp only [start, bind_assoc, pure_bind]
    exact (does_perform _).leaves_bind ((does_perform _).leaves_bind later)
  rcases create_eq (m := Logged α m) pipeline outputRoot runId with
    ⟨name, calls, same⟩ | ⟨calls, same⟩
  · rw [same]
    exact started calls
  · rw [same, bind_assoc]
    exact .bind_now_map fun time => started (calls time)

end RunContext

end LocalMetric
