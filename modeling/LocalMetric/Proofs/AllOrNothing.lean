import LocalMetric.Proofs.Disks
import LocalMetric.Proofs.Endings
import LocalMetric.Proofs.ValidRuns
/-!
# All or nothing

A run writes its JSON files last, when nothing that can be refused is left to be done, so a run that is
refused has written none of them. Directories are made first, and what is made again later is there
already, so the same is true of a run that cannot make one of them. After a run that is answered all its
files are there.
-/
namespace LocalMetric

variable {α β : Type}

def Effect.WritesJson : Effect α → Prop
  | makeDirectory _ => False
  | write path _ => ".json".toList <:+ path.text.toList

/-- The end of the text of a path is the end of its last name. -/
theorem Path.suffix_text_child_iff {name ending : String} (plain : Plain name)
    (short : ending.toList.length ≤ name.toList.length) (p : Path) :
    ending.toList <:+ (p.child name).text.toList ↔ ending.toList <:+ name.toList := by
  obtain ⟨lead, same, _⟩ := exists_text_child plain p
  have last : name.toList <:+ (p.child name).text.toList := by
    rw [same, String.toList_append]
    exact List.suffix_append _ _
  exact ⟨fun ends => List.suffix_of_suffix_length_le ends last short, fun ends => ends.trans last⟩

def Wrote (log : List (Effect α)) (path : Path) : Prop :=
  ∃ content, .write path content ∈ log

theorem Wrote.mono {log log' : List (Effect α)} {path : Path} (wrote : Wrote log path)
    (within : log ⊆ log') : Wrote log' path := by
  obtain ⟨content, member⟩ := wrote
  exact ⟨content, within member⟩

namespace RunContext

/-- What is asked for once the directories of a run are made: no other directories, and files with
plain names. -/
structure Tidy (c : RunContext α) (names : List String) (log : List (Effect α)) : Prop where
  directories : ∀ path, .makeDirectory path ∈ log → path ∈ [c.directory, c.features, c.reports]
  plain : ∀ effect ∈ log, effect.Plain
  named : log.filterMap Effect.name? = names

variable {c : RunContext α} {names names' : List String} {name text : String} {p : Path}

theorem tidy_nil (c : RunContext α) : c.Tidy [] [] where
  directories _ member := nomatch member
  plain _ member := nomatch member
  named := rfl

theorem Tidy.append {first second : List (Effect α)} (tidy : c.Tidy names first)
    (tidy' : c.Tidy names' second) : c.Tidy (names ++ names') (first ++ second) where
  directories path member := (List.mem_append.mp member).elim (tidy.directories path)
    (tidy'.directories path)
  plain effect member := (List.mem_append.mp member).elim (tidy.plain effect) (tidy'.plain effect)
  named := by rw [List.filterMap_append, tidy.named, tidy'.named]

theorem tidy_write (plain : Path.Plain name) (content : Content α) :
    c.Tidy [name] [.write (p.child name) content] where
  directories path member := by
    cases List.mem_singleton.mp member
  plain effect member := by
    rw [List.mem_singleton.mp member]
    exact ⟨p, name, plain, rfl⟩
  named := by
    rw [List.filterMap_cons_some (Effect.name?_write plain p content)]
    rfl

theorem tidy_placing (inside : p ∈ [c.directory, c.features, c.reports]) (plain : Path.Plain name) :
    c.Tidy [name] (placing (p.child name) text) := by
  have made : c.Tidy [] [.makeDirectory (p.child name).parent] := by
    refine ⟨fun path member => ?_, fun effect member => ?_, rfl⟩
    · cases List.mem_singleton.mp member
      rw [Path.parent_child plain]
      exact inside
    · rw [List.mem_singleton.mp member]
      trivial
  exact made.append (tidy_write plain _)

def lastNames : List String := ["run_config.json", "artifact_index.json", "timings.json"]

/-- The last files of a run are written into its directory. -/
theorem tidy_closing [Numeral α] {c' : RunContext α} (same : c'.directory = c.directory)
    (settings : Json α) : c.Tidy lastNames (c'.closing settings) := by
  have inside : c'.directory ∈ [c.directory, c.features, c.reports] := same ▸ List.mem_cons_self
  exact (tidy_placing inside (by decide)).append
    ((tidy_placing inside (by decide)).append (tidy_placing inside (by decide)))

section Disks

variable {rest : List (Effect α)} {d d' : Disk α} {place : Path}

theorem Tidy.plain_opening (tidy : c.Tidy names rest) :
    ∀ effect ∈ c.opening ++ rest, effect.Plain := by
  intro effect member
  rcases List.mem_append.mp member with first | later
  · rcases List.mem_pair.mp first with rfl | rfl <;> trivial
  · exact tidy.plain effect later

/-- The directories of a run that have been made can be made again. -/
theorem again_of_performAll (plain : ∀ effect ∈ c.opening ++ rest, effect.Plain)
    (performed : d.performAll place (c.opening ++ rest) = .ok d') {path : Path}
    (inside : path ∈ [c.directory, c.features, c.reports]) :
    d'.perform place (.makeDirectory path) = .ok d' := by
  have named : Path.Plain "features" := by decide
  have there {p : Path} (member : .makeDirectory p ∈ c.opening) :=
    Disk.directory_of_performAll plain performed (List.mem_append_left rest member)
  have made := there (List.mem_pair.mpr (.inl rfl))
  have made' := there (List.mem_pair.mpr (.inr rfl))
  simp only [List.mem_cons, List.not_mem_nil, or_false] at inside
  rcases inside with rfl | rfl | rfl
  · -- It holds the directory of features.
    rw [features, Path.join_child _ _ named] at made
    exact Disk.makeDirectory_of_isDirectory (Disk.checkPath_of_child named made.1)
      (Disk.isDirectory_of_append made.2)
  · exact Disk.makeDirectory_of_isDirectory made.1 made.2
  · exact Disk.makeDirectory_of_isDirectory made'.1 made'.2

/-- A run that cannot make a directory has written nothing at all. -/
theorem Tidy.stopped (tidy : c.Tidy names rest) {done later : List (Effect α)} {path : Path}
    {fault : Fault α} (log : c.opening ++ rest = done ++ .makeDirectory path :: later)
    (performed : d.performAll place done = .ok d')
    (failed : d'.perform place (.makeDirectory path) = .error fault) :
    ∀ effect ∈ done, ¬effect.WritesJson := by
  rcases List.append_eq_append_iff.mp log with ⟨before, rfl, same⟩ | ⟨before, same, _⟩
  · -- It would fail after its directories were made, but then they are there.
    have inside : path ∈ [c.directory, c.features, c.reports] := by
      refine tidy.directories path ?_
      rw [same]
      exact List.mem_append_right _ List.mem_cons_self
    have plain (effect : Effect α) (member : effect ∈ c.opening ++ before) : effect.Plain := by
      refine tidy.plain_opening effect ?_
      rw [log]
      exact List.mem_append_left _ member
    rw [again_of_performAll plain performed inside] at failed
    cases failed
  · intro effect member
    have first : effect ∈ c.opening := same ▸ List.mem_append_left _ member
    rcases List.mem_pair.mp first with rfl | rfl <;> exact id

theorem Tidy.lasting (tidy : c.Tidy names rest) (distinct : names.Nodup)
    (performed : d.performAll place (c.opening ++ rest) = .ok d') {path : Path}
    {content : Content α} (member : .write path content ∈ c.opening ++ rest) :
    d'.find? (place.join path).segments = some (.file content) := by
  refine Disk.find?_of_performAll tidy.plain_opening ?_ performed member
  rw [List.filterMap_append, tidy.named]
  exact distinct

end Disks

theorem Created.fresh {pipeline : String} {outputRoot : Path} {runId : Option String}
    {c : RunContext α} (created : Created pipeline outputRoot runId c) : c.artifacts = {} := by
  obtain ⟨_, _, rfl⟩ := created
  rfl

end RunContext

section Settled

variable [Numeral α] {directory report : β → Path} {answer : Checked α β} {log : List (Effect α)}

def indexText (α : Type) [Numeral α] (files : List (String × Path)) : String :=
  (Json.obj (files.map fun (key, path) => (key, .str path.text)) : Json α).text

/-- What a run settles with its answer and what it asked for. A refused run has written no JSON file,
and neither has one that could not make some directory. A run that is answered has written its report,
its settings, its timings and the list of its files, and each file of that list; and on a disk where all
was done, each file is there with what was written into it. -/
structure Settled (directory report : β → Path) (answer : Checked α β) (log : List (Effect α)) :
    Prop where
  refused : ∀ fault, answer = .error fault → ∀ effect ∈ log, ¬effect.WritesJson
  stopped : ∀ (place : Path) (d d' : Disk α) done path rest fault,
    log = done ++ .makeDirectory path :: rest → d.performAll place done = .ok d' →
    d'.perform place (.makeDirectory path) = .error fault → ∀ effect ∈ done, ¬effect.WritesJson
  answered : ∀ result, answer = .ok result → ∃ files : List (String × Path),
    .write ((directory result).child "artifact_index.json") (.text (indexText α files)) ∈ log ∧
    (∀ file ∈ files, Wrote log file.2) ∧ Wrote log (report result) ∧
    Wrote log ((directory result).child "run_config.json") ∧
    Wrote log ((directory result).child "timings.json")
  lasting : ∀ (place : Path) (d d' : Disk α), d.performAll place log = .ok d' →
    ∀ path content, .write path content ∈ log →
      d'.find? (place.join path).segments = some (.file content)

variable {c : RunContext α} {names : List String} {rest : List (Effect α)}

theorem settled_of_nothing (directory report : β → Path) (fault : Fault α) :
    Settled directory report (.error fault) [] where
  refused _ _ _ member := nomatch member
  stopped _ _ _ done _ _ _ log := absurd log.symm (by simp)
  answered _ impossible := nomatch impossible
  lasting _ _ _ _ _ _ member := nomatch member

theorem settled_of_refused (tidy : c.Tidy names rest) (distinct : names.Nodup)
    (harmless : ∀ effect ∈ rest, ¬effect.WritesJson) (directory report : β → Path)
    (fault : Fault α) : Settled directory report (.error fault) (c.opening ++ rest) where
  refused _ _ effect member := by
    rcases List.mem_append.mp member with first | later
    · rcases List.mem_pair.mp first with rfl | rfl <;> exact id
    · exact harmless effect later
  stopped _ _ _ _ _ _ _ log performed failed := tidy.stopped log performed failed
  answered _ impossible := nomatch impossible
  lasting _ _ _ performed _ _ member := tidy.lasting distinct performed member

theorem settled_of_answered {settings : Json α} {result : β}
    (tidy : c.Tidy names rest) (distinct : (names ++ RunContext.lastNames).Nodup) (c' : RunContext α)
    (same : c'.directory = c.directory) (place : directory result = c.directory)
    (files : List (String × Path))
    (listed : c'.artifacts.entries = files.map fun file => (file.1, file.2.text))
    (written : ∀ file ∈ files, Wrote rest file.2) (reported : Wrote rest (report result)) :
    Settled directory report (.ok result) (c.opening ++ rest ++ c'.closing settings) := by
  have tidy := tidy.append (RunContext.tidy_closing same settings)
  have index : c'.index.text = indexText α files := by
    rw [RunContext.index, listed, List.map_map]
    rfl
  have before : rest ⊆ c.opening ++ (rest ++ c'.closing settings) :=
    List.subset_append_of_subset_right _ (List.subset_append_left _ _)
  have last {effect : Effect α} (member : effect ∈ c'.closing settings) :
      effect ∈ c.opening ++ (rest ++ c'.closing settings) :=
    List.mem_append_right _ (List.mem_append_right _ member)
  rw [List.append_assoc]
  refine ⟨fun _ impossible => (nomatch impossible), fun _ _ _ _ _ _ _ log performed failed =>
    tidy.stopped log performed failed, fun _ answer => ?_, fun _ _ _ performed _ _ member =>
      tidy.lasting distinct performed member⟩
  cases answer
  rw [place, ← same]
  refine ⟨files, last ?_, fun file member => (written file member).mono before,
    reported.mono before, ⟨.text settings.text, last ?_⟩, ⟨.text c'.durations.text, last ?_⟩⟩
  · rw [← index]
    exact List.mem_append_right _ (List.mem_append_left _ (RunContext.wrote_placing _ _))
  · exact List.mem_append_left _ (RunContext.wrote_placing _ _)
  · exact List.mem_append_right _ (List.mem_append_right _ (RunContext.wrote_placing _ _))

end Settled

section Runs

variable [Scalar α] [Numeral α]

theorem Cluster.settled_of_ends {tools : Toolbox α} {r : Request α} {files : FeatureFiles α}
    {answer : Checked α Result} {log : List (Effect α)} (ends : Ends tools r files answer log) :
    Settled Result.directory Result.report answer log := by
  have plain : Path.Plain "locally_weighted_distances.npy" := by decide
  cases ends with
  | invalid => exact settled_of_nothing _ _ _
  | @unmeasured c bundle fault created =>
      rw [← List.append_nil c.opening]
      exact settled_of_refused c.tidy_nil List.nodup_nil (fun _ member => nomatch member) _ _ _
  | @unclustered c bundle g fault created =>
      refine settled_of_refused (RunContext.tidy_write plain _) (by decide)
        (fun effect member json => ?_) _ _ _
      rw [List.mem_singleton.mp member] at json
      have ends := (Path.suffix_text_child_iff plain (by decide) c.features).mp json
      revert ends
      decide
  | @reported c bundle s p g f prepared measured time created finds =>
      rw [List.append_assoc c.opening]
      refine settled_of_answered (.append (RunContext.tidy_write plain _)
        (RunContext.tidy_placing (List.mem_of_getLast? rfl) (by decide))) (by decide)
        (finished c prepared measured) rfl rfl
        [("distances", distancesPath c), ("report", reportPath c)] ?_ ?_ ?_
      · simp only [finished, RunContext.addArtifact, RunContext.addTiming, created.fresh]
        rfl
      · intro file member
        rcases List.mem_pair.mp member with rfl | rfl
        · exact ⟨_, List.mem_append_left _ List.mem_cons_self⟩
        · exact ⟨_, List.mem_append_right _ (RunContext.wrote_placing _ _)⟩
      · exact ⟨_, List.mem_append_right _ (RunContext.wrote_placing _ _)⟩

theorem Preprocess.settled_of_ends {tools : Toolbox α} {r : RunRequest α} {files : FeatureFiles α}
    {answer : Checked α Result} {log : List (Effect α)} (ends : Ends tools r files answer log) :
    Settled Result.directory Result.report answer log := by
  cases ends with
  | unloaded => exact settled_of_nothing _ _ _
  | @unprepared c fault created =>
      rw [← List.append_nil c.opening]
      exact settled_of_refused c.tidy_nil List.nodup_nil (fun _ member => nomatch member) _ _ _
  | @reported c bundle s p count rows prepared time created finds =>
      have inside : c.reports ∈ [c.directory, c.features, c.reports] := List.mem_of_getLast? rfl
      rw [List.append_assoc c.opening]
      refine settled_of_answered (.append (RunContext.tidy_placing inside (by decide))
        (RunContext.tidy_placing inside (by decide))) (by decide) (finished c prepared) rfl rfl
        [("local_pca_table", tablePath c), ("report", reportPath c)] ?_ ?_ ?_
      · simp only [finished, RunContext.addArtifact, RunContext.addTiming, created.fresh]
        rfl
      · intro file member
        rcases List.mem_pair.mp member with rfl | rfl
        · exact ⟨_, List.mem_append_left _ (RunContext.wrote_placing _ _)⟩
        · exact ⟨_, List.mem_append_right _ (RunContext.wrote_placing _ _)⟩
      · exact ⟨_, List.mem_append_right _ (RunContext.wrote_placing _ _)⟩

/-- What a clustering run refuses before it asks for anything: no features, features that are not a
matrix, labels or names that are not one for each point, comparisons without labels, radii of which none
is usable, and a minimum that is not positive. -/
inductive Cluster.Request.Defect (r : Request α) (files : FeatureFiles α) : Prop
  | missing : files.features = none → Defect r files
  | rank {features : DataArray α} : files.features = some (.ok features) →
      features.shape.length ≠ 2 → Defect r files
  | labels {features labels : DataArray α} {rows columns : ℕ} :
      files.features = some (.ok features) → features.shape = [rows, columns] →
      files.labels = some (.ok labels) → labels.shape.head? ≠ some rows → Defect r files
  | names {features : DataArray α} {value : Json α} {names : List String} {rows columns : ℕ} :
      files.features = some (.ok features) → features.shape = [rows, columns] →
      files.names = some (.ok value) → FeatureBundle.listedNames value = .ok names →
      names.length ≠ rows → Defect r files
  | unlabelled : r.evaluate = true → files.labels = none → Defect r files
  | radii : (∀ radius ∈ r.radii, radius ≤ 0) → Defect r files
  | minimum : r.minimum < 1 → Defect r files

omit [Numeral α] in
theorem Selection.usableRadii_eq_nil {radii : List α} (unusable : ∀ radius ∈ radii, radius ≤ 0) :
    usableRadii radii = [] := by
  have refused : radii.filter (fun r => !decide (r ≤ 0)) = [] := by
    refine List.filter_eq_nil_iff.mpr fun radius member => ?_
    rw [decide_eq_true (unusable radius member)]
    exact Bool.false_ne_true
  rw [usableRadii, refused, List.eraseDups_nil, List.mergeSort_nil]

theorem Cluster.Request.Defect.refused {r : Request α} {files : FeatureFiles α}
    (defect : r.Defect files) : ∃ fault, validate r files = .error fault := by
  cases valid : validate r files with
  | error fault => exact ⟨fault, rfl⟩
  | ok bundle =>
      obtain ⟨loaded, load, checked⟩ := Checked.bind_ok_iff.mp valid
      obtain ⟨⟨⟩, accepted, _⟩ := Checked.bind_ok_iff.mp checked
      obtain ⟨features, labels, names⟩ := FeatureBundle.loaded_of_load load
      obtain ⟨labelled, tried, enough⟩ := accepted_of_check accepted
      exfalso
      cases defect with
      | missing absent => cases absent.symm.trans features
      | rank found other =>
          cases found.symm.trans features
          rw [loaded.features_shape] at other
          exact other rfl
      | labels found shape file other =>
          cases found.symm.trans features
          cases loaded.features_shape.symm.trans shape
          rw [file] at labels
          exact other (FeatureBundle.head?_of_loadLabels labels)
      | names found shape file listed other =>
          cases found.symm.trans features
          cases loaded.features_shape.symm.trans shape
          rw [file] at names
          exact other (FeatureBundle.length_of_loadNames names listed)
      | unlabelled evaluated absent =>
          rw [absent] at labels
          rw [evaluated, ← Except.ok.inj labels] at labelled
          cases labelled
      | radii unusable =>
          rw [Selection.usableRadii_eq_nil unusable] at tried
          cases tried
      | minimum low => exact enough low

variable {m : Type → Type} [Monad m] [LawfulMonad m] [Host α m]

/-- On every host, both kinds of runs write all that they list or no JSON file at all. With defective
input a clustering run asks for nothing, not even for a directory. -/
theorem runs_all_or_nothing (faithful : Host.Faithful α m) (tools : Toolbox α)
    (files : FeatureFiles α) :
    (∀ r : RunRequest α, Leaves [] (Preprocess.run tools r files : RunM α (Logged α m) _)
      (Settled Preprocess.Result.directory Preprocess.Result.report)) ∧
    ∀ r : Cluster.Request α,
      Leaves [] (Cluster.run tools r files : RunM α (Logged α m) _)
        (Settled Cluster.Result.directory Cluster.Result.report) ∧
      (r.Defect files → Leaves [] (Cluster.run tools r files : RunM α (Logged α m) _)
        fun answer log => (∃ fault, answer = .error fault) ∧ log = []) := by
  refine ⟨fun r => ?_, fun r => ⟨?_, fun defect => ?_⟩⟩
  · exact (Preprocess.leaves_run faithful tools r files).mono fun _ _ => Preprocess.settled_of_ends
  · exact (Cluster.leaves_run faithful tools r files).mono fun _ _ => Cluster.settled_of_ends
  · obtain ⟨fault, refused⟩ := defect.refused
    refine (Cluster.leaves_run faithful tools r files).mono fun answer log ends => ?_
    cases ends with
    | invalid => exact ⟨⟨_, rfl⟩, rfl⟩
    | unmeasured _ _ valid => cases refused.symm.trans valid
    | unclustered _ _ _ valid => cases refused.symm.trans valid
    | reported _ _ _ _ finds => cases refused.symm.trans finds.valid

end Runs

section Couple

attribute [local instance] wholeNumeral

def RunContext.couple : RunContext ℝ where
  pipeline := Cluster.pipeline
  outputRoot := ⟨.relative, ["out"]⟩
  runId := "t"

/-- On an empty disk all that it asks for can be done. -/
theorem Cluster.exists_disk (distances : Content ℝ) (report settings index durations : String) :
    ∃ d, Disk.performAll ⟨.slash, []⟩ {} (RunContext.couple.opening ++
      [.write (distancesPath .couple) distances] ++
      RunContext.placing (reportPath .couple) report ++
        (RunContext.placing (RunContext.couple.directory.child "run_config.json") settings ++
          (RunContext.placing (RunContext.couple.directory.child "artifact_index.json") index ++
            RunContext.placing (RunContext.couple.directory.child "timings.json") durations))) =
      .ok d :=
  ⟨_, rfl⟩

theorem Cluster.exists_disk_of_ends {tools : Toolbox ℝ} {files : FeatureFiles ℝ} {result : Result}
    {log : List (Effect ℝ)} (ends : Ends tools (.couple true) files (.ok result) log) :
    ∃ d, Disk.performAll ⟨.slash, []⟩ {} log = .ok d := by
  cases ends with
  | reported prepared measured time created =>
      obtain ⟨name, ⟨same, _⟩ | ⟨impossible | impossible, _⟩, rfl⟩ := created
      · cases same
        exact exists_disk _ _ _ _ _
      · cases impossible
      · exact absurd (Option.some.inj impossible) (by decide)

/-- Two points are clustered, and their files are listed and there; with a minimum of zero nothing is
asked for. -/
theorem runs_all_or_nothing_couple :
    (∃ result log d, recorded (Cluster.run ⟨.spectral, .standard⟩ (.couple true) (.couple [0, 1])) =
      (.ok result, log) ∧ Disk.performAll ⟨.slash, []⟩ {} log = .ok d ∧
      Settled Cluster.Result.directory Cluster.Result.report (.ok result) log) ∧
    ∃ fault, recorded (Cluster.run ⟨.spectral, .standard⟩ { Cluster.Request.couple true with minimum := 0 }
      (.couple [0, 1])) = (.error fault, []) := by
  have settles := (runs_all_or_nothing Host.faithful_record ⟨.spectral, .standard⟩
    (.couple [0, 1])).2
  constructor
  · obtain ⟨result, log, answered⟩ := Cluster.exists_recorded_couple
    have ends := (Cluster.leaves_run Host.faithful_record ⟨.spectral, .standard⟩ (.couple true)
      (.couple [0, 1])).recorded
    have settled := (settles (.couple true)).1.recorded
    rw [answered] at settled ends
    obtain ⟨d, performed⟩ := Cluster.exists_disk_of_ends ends
    exact ⟨result, log, d, answered, performed, settled⟩
  · have defect : { Cluster.Request.couple true with minimum := 0 }.Defect (.couple [0, 1]) :=
      .minimum Int.zero_lt_one
    obtain ⟨⟨fault, refused⟩, nothing⟩ := ((settles _).2 defect).recorded
    exact ⟨fault, Prod.ext refused nothing⟩

end Couple

end LocalMetric
