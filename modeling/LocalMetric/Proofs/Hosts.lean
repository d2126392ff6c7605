import LocalMetric.Proofs.Checked
import LocalMetric.Run.Context
/-!
# Runs that complete

A run completes on a host if it is not refused, whatever the host tells it about the time. Steps that
complete are put together, and all that a run does for the sake of its directory completes.
-/
namespace LocalMetric

variable {α β γ : Type} {m : Type → Type} [Monad m]

/-- Only an answer comes out of a run, and each one that can come out has a property. -/
def Completes (run : RunM α m β) (Q : β → Prop) : Prop :=
  ∃ answers : m {b // Q b}, run.run = (fun b => .ok b.1) <$> answers

/-- A host whose clock answers what it times, together with some number of seconds. -/
def Host.Faithful (α : Type) (m : Type → Type) [Monad m] [Host α m] : Prop :=
  ∀ {β : Type} (f : Unit → β), ∃ seconds : m α,
    (Host.timed f : m (β × α)) = (fun passed => (f (), passed)) <$> seconds

namespace Completes

variable [LawfulMonad m] {P : β → Prop} {Q : γ → Prop}

theorem pure {b : β} (holds : P b) : Completes (Pure.pure b : RunM α m β) P := by
  refine ⟨Pure.pure ⟨b, holds⟩, ?_⟩
  rw [map_pure]
  rfl

theorem bind {run : RunM α m β} {next : β → RunM α m γ} (first : Completes run P)
    (rest : ∀ b, P b → Completes (next b) Q) : Completes (run >>= next) Q := by
  obtain ⟨answers, same⟩ := first
  -- What follows an answer may rely on its property, so the two stay together.
  choose later follows using rest
  refine ⟨answers >>= fun b => later b.1 b.2, ?_⟩
  rw [ExceptT.run_bind, same, bind_map_left, map_bind]
  exact congrArg (answers >>= ·) (funext fun b => follows b.1 b.2)

theorem mono {R : β → Prop} {run : RunM α m β} (completes : Completes run P)
    (implies : ∀ b, P b → R b) : Completes run R := by
  obtain ⟨answers, same⟩ := completes
  refine ⟨(fun b => ⟨b.1, implies b.1 b.2⟩) <$> answers, ?_⟩
  rw [same, Functor.map_map]

theorem lift (x : m β) : Completes (ExceptT.lift x : RunM α m β) fun _ => True := by
  refine ⟨(fun b => ⟨b, trivial⟩) <$> x, ?_⟩
  rw [ExceptT.run_lift, Functor.map_map]

theorem lift_map (f : β → γ) (x : m β) :
    Completes (ExceptT.lift (f <$> x) : RunM α m γ) fun c => ∃ b, c = f b := by
  refine ⟨(fun b => ⟨f b, b, rfl⟩) <$> x, ?_⟩
  rw [ExceptT.run_lift, Functor.map_map, Functor.map_map]

/-- A step that may be refused completes if it is answered. -/
theorem checked {x : Checked α β} {b : β} (answered : x = .ok b) :
    Completes (liftM x : RunM α m β) (b = ·) := by
  subst answered
  exact pure rfl

end Completes

section Hosts

variable [LawfulMonad m] [Host α m]

theorem completes_timed (faithful : Host.Faithful α m) (f : Unit → β) :
    Completes (ExceptT.lift (Host.timed f) : RunM α m (β × α)) fun timed => timed.1 = f () := by
  obtain ⟨seconds, same⟩ := faithful f
  refine ⟨(fun passed => ⟨(f (), passed), rfl⟩) <$> seconds, ?_⟩
  rw [same, ExceptT.run_lift, Functor.map_map, Functor.map_map]

/-- The recording host answers what it times. -/
theorem Host.faithful_record [Scalar α] : Host.Faithful α (Record α) :=
  fun _ => ⟨Pure.pure 0, rfl⟩

/-- On the recording host, a run that completes is a value that is answered. -/
theorem exists_record_ok [Scalar α] {run : RunM α (Record α) β} {Q : β → Prop}
    (completes : Completes run Q) : ∃ b, Q b ∧ (record run).1 = .ok b := by
  obtain ⟨answers, same⟩ := completes
  refine ⟨(answers.run []).1.1, (answers.run []).1.2, ?_⟩
  rw [record, same]
  rfl

namespace RunContext

theorem completes_perform (effect : Effect α) :
    Completes (perform effect : RunM α m Unit) fun _ => True :=
  .lift _

theorem completes_writeText (path : Path) (text : String) :
    Completes (writeText path text : RunM α m Unit) fun _ => True :=
  .bind (completes_perform _) fun _ _ => completes_perform _

theorem completes_writeJson [Numeral α] (path : Path) (value : Json α) :
    Completes (writeJson path value : RunM α m Unit) fun _ => True :=
  completes_writeText path value.text

def start (pipeline : String) (outputRoot : Path) (name : String) : RunM α m (RunContext α) := do
  let c : RunContext α := { pipeline, outputRoot, runId := name }
  perform (.makeDirectory c.features)
  perform (.makeDirectory c.reports)
  return c

/-- What a run may be called: by its id, or by some time if it has none or an empty one. -/
def Calls (runId : Option String) (name : String) : Prop :=
  runId = some name ∧ name ≠ "" ∨
    (runId = none ∨ runId = some "") ∧ ∃ t : Instant, name = t.runName

theorem create_eq (pipeline : String) (outputRoot : Path) (runId : Option String) :
    (∃ name, Calls runId name ∧
      (create pipeline outputRoot runId : RunM α m _) = start pipeline outputRoot name) ∨
    (∀ t : Instant, Calls runId t.runName) ∧
      (create pipeline outputRoot runId : RunM α m _) =
        ExceptT.lift (Instant.runName <$> Host.now) >>= start pipeline outputRoot := by
  cases runId with
  | none => exact .inr ⟨fun t => .inr ⟨.inl rfl, t, rfl⟩, rfl⟩
  | some id =>
      by_cases empty : id = ""
      · subst empty
        exact .inr ⟨fun t => .inr ⟨.inr rfl, t, rfl⟩, rfl⟩
      · refine .inl ⟨id, .inl ⟨rfl, empty⟩, ?_⟩
        simp only [create, if_neg empty, pure_bind]
        rfl

/-- A run that has only just started. -/
def Created (pipeline : String) (outputRoot : Path) (runId : Option String) (c : RunContext α) :
    Prop :=
  ∃ name, Calls runId name ∧ c = { pipeline, outputRoot, runId := name }

theorem completes_create (pipeline : String) (outputRoot : Path) (runId : Option String) :
    Completes (create pipeline outputRoot runId : RunM α m (RunContext α))
      (Created pipeline outputRoot runId) := by
  have started {name : String} (calls : Calls runId name) :
      Completes (start pipeline outputRoot name : RunM α m (RunContext α))
        (Created pipeline outputRoot runId) :=
    .bind (completes_perform _) fun _ _ => .bind (completes_perform _) fun _ _ =>
      .pure ⟨name, calls, rfl⟩
  rcases create_eq (m := m) pipeline outputRoot runId with ⟨name, calls, same⟩ | ⟨calls, same⟩
  · rw [same]
    exact started calls
  · rw [same]
    refine .bind (.lift_map _ _) ?_
    rintro _ ⟨t, rfl⟩
    exact started (calls t)

theorem completes_finalize [Numeral α] (c : RunContext α) (settings : Json α) :
    Completes (finalize c settings : RunM α m Unit) fun _ => True :=
  .bind (completes_writeJson _ _) fun _ _ => .bind (completes_writeJson _ _) fun _ _ =>
    completes_writeJson _ _

end RunContext

end Hosts

end LocalMetric
