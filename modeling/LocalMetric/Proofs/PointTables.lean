import LocalMetric.Proofs.Logs
import LocalMetric.Proofs.Runs
import LocalMetric.Proofs.Summaries
import LocalMetric.Run.Preprocess
/-!
# Tables that are read back

A reader of tables goes through a text once and remembers where it stands. It knows nothing of how
tables are written: a field is bare or in quotes, a quote inside quotes is doubled, fields end with a
comma and records with the end of a line. It reads every table back, whatever is in its fields, so the
names of points are told by the file of their table.
-/
namespace LocalMetric.Csv

inductive Stage where
  /-- In front of a record. -/
  | record
  /-- In front of a field that is not the first one. -/
  | field
  /-- In a field without quotes. -/
  | bare
  /-- Between quotes. -/
  | quoted
  /-- Behind a quote between quotes, which is the last one unless another one follows. -/
  | closing
  /-- Behind a carriage return that ends a record. -/
  | ending
  deriving DecidableEq

structure Reading where
  stage : Stage := .record
  /-- What was read of the field. -/
  text : List Char := []
  /-- The fields of the record before this one. -/
  fields : List (List Char) := []
  records : List (List (List Char)) := []

namespace Reading

def add (r : Reading) (stage : Stage) (c : Char) : Reading := { r with stage, text := r.text ++ [c] }

def endField (r : Reading) (stage : Stage) : Reading :=
  { r with stage, text := [], fields := r.fields ++ [r.text] }

/-- Goes on behind a field, where a comma or a carriage return has to be. -/
def endWith (r : Reading) (c : Char) : Option Reading :=
  if c = ',' then some (r.endField .field)
  else if c = '\r' then some (r.endField .ending)
  else none

def goOn (r : Reading) (c : Char) : Option Reading :=
  if c = '"' ∨ c = '\n' then none else (r.endWith c).or (some (r.add .bare c))

def step (r : Reading) (c : Char) : Option Reading :=
  match r.stage with
  | .record =>
    if c = '"' then some { r with stage := .quoted }
    else if c = '\r' then some { r with stage := .ending }
    else r.goOn c
  | .field => if c = '"' then some { r with stage := .quoted } else r.goOn c
  | .bare => r.goOn c
  | .quoted => some (if c = '"' then { r with stage := .closing } else r.add .quoted c)
  | .closing => if c = '"' then some (r.add .quoted c) else r.endWith c
  | .ending => if c = '\n' then some { records := r.records ++ [r.fields] } else none

end Reading

/-- The records of a table, all of which have to be ended. -/
def read? (s : String) : Option (List (List String)) := do
  let r ← s.toList.foldlM Reading.step {}
  if r.stage = .record then some (r.records.map (·.map String.ofList)) else none

def Reads (r : Reading) (cs : List Char) (r' : Reading) : Prop := cs.foldlM Reading.step r = some r'

section Steps

variable {r r' r'' : Reading} {c : Char} {cs ds : List Char}

theorem Reads.nil (r : Reading) : Reads r [] r := rfl

theorem Reads.cons (first : r.step c = some r') (rest : Reads r' cs r'') : Reads r (c :: cs) r'' := by
  rw [Reads, List.foldlM_cons, first]
  exact rest

theorem Reads.append (first : Reads r cs r') (rest : Reads r' ds r'') : Reads r (cs ++ ds) r'' := by
  rw [Reads, List.foldlM_append, first]
  exact rest

def special (c : Char) : Bool := c = ',' || c = '"' || c = '\r' || c = '\n'

theorem goOn_of_plain (plain : special c = false) : r.goOn c = some (r.add .bare c) := by
  simp only [special, Bool.or_eq_false_iff, decide_eq_false_iff_not] at plain
  obtain ⟨⟨⟨comma, quote⟩, back⟩, line⟩ := plain
  rw [Reading.goOn, if_neg (not_or.mpr ⟨quote, line⟩), Reading.endWith, if_neg comma, if_neg back]
  rfl

theorem step_of_plain (stage : r.stage = .record ∨ r.stage = .field ∨ r.stage = .bare)
    (plain : special c = false) : r.step c = some (r.add .bare c) := by
  have goes := goOn_of_plain (r := r) plain
  simp only [special, Bool.or_eq_false_iff, decide_eq_false_iff_not] at plain
  obtain ⟨⟨⟨_, quote⟩, back⟩, _⟩ := plain
  rcases stage with front | front | within
  · rw [Reading.step, front]
    simp only [if_neg quote, if_neg back, goes]
  · rw [Reading.step, front]
    simp only [if_neg quote, goes]
  · rw [Reading.step, within]
    exact goes

end Steps

/-! ## Fields -/

variable {stage : Stage} {text field : List Char} {fields : List (List Char)}
  {records : List (List (List Char))}

def doubled (field : List Char) : List Char :=
  field.flatMap fun c => if c = '"' then ['"', '"'] else [c]

theorem reads_doubled (field text : List Char) :
    Reads ⟨.quoted, text, fields, records⟩ (doubled field)
      ⟨.quoted, text ++ field, fields, records⟩ := by
  induction field generalizing text with
  | nil =>
      rw [List.append_nil]
      exact .nil _
  | cons c field ih =>
      have first : Reads ⟨.quoted, text, fields, records⟩ (if c = '"' then ['"', '"'] else [c])
          ⟨.quoted, text ++ [c], fields, records⟩ := by
        by_cases quote : c = '"'
        · subst quote
          rfl
        · rw [if_neg quote]
          refine .cons ?_ (.nil _)
          simp only [Reading.step, if_neg quote, Reading.add]
      rw [List.append_cons text c field]
      exact first.append (ih _)

theorem reads_plain (inside : stage = .record ∨ stage = .field ∨ stage = .bare)
    (plain : needsQuotes field = false) (filled : field ≠ []) (text : List Char) :
    Reads ⟨stage, text, fields, records⟩ field ⟨.bare, text ++ field, fields, records⟩ := by
  induction field generalizing stage text with
  | nil => exact absurd rfl filled
  | cons c field ih =>
      obtain ⟨first, plain⟩ : special c = false ∧ needsQuotes field = false :=
        Bool.or_eq_false_iff.mp plain
      refine .cons (step_of_plain inside first) ?_
      by_cases empty : field = []
      · subst empty
        exact .nil _
      · rw [List.append_cons text c field]
        exact ih (.inr (.inr rfl)) plain empty _

/-- Behind a field that was written: in it, behind its quotes, or still in front of it if nothing is
written for it. -/
def Behind (front : Stage) (field : List Char) (stage : Stage) : Prop :=
  stage = .bare ∨ stage = .closing ∨ field = [] ∧ stage = front

theorem exists_reads_fieldText (fields : List (List Char)) (records : List (List (List Char)))
    {front : Stage} (front_eq : front = .record ∨ front = .field) (field : List Char) :
    ∃ stage, Behind front field stage ∧
      Reads ⟨front, [], fields, records⟩ (fieldText field) ⟨stage, field, fields, records⟩ := by
  cases quotes : needsQuotes field with
  | true =>
      refine ⟨.closing, .inr (.inl rfl), ?_⟩
      have opens : Reading.step ⟨front, [], fields, records⟩ '"' =
          some ⟨.quoted, [], fields, records⟩ := by
        rcases front_eq with rfl | rfl <;> rfl
      rw [fieldText, if_pos quotes]
      exact (Reads.cons opens (.nil _)).append (reads_doubled field []) |>.append rfl
  | false =>
      rw [fieldText, if_neg (Bool.not_eq_true _ ▸ quotes)]
      by_cases empty : field = []
      · subst empty
        exact ⟨front, .inr (.inr ⟨rfl, rfl⟩), .nil _⟩
      · have inside : front = .record ∨ front = .field ∨ front = .bare := by
          rcases front_eq with rfl | rfl
          · exact .inl rfl
          · exact .inr (.inl rfl)
        exact ⟨.bare, .inl rfl, reads_plain inside quotes empty []⟩

/-! ## Records -/

theorem step_comma {front : Stage} (front_eq : front = .record ∨ front = .field)
    (behind : Behind front field stage) : Reading.step ⟨stage, field, fields, records⟩ ',' =
      some ⟨.field, [], fields ++ [field], records⟩ := by
  rcases behind with rfl | rfl | ⟨rfl, rfl⟩
  · rfl
  · rfl
  · rcases front_eq with rfl | rfl <;> rfl

theorem reads_ending {front : Stage} (front_eq : front = .field ∨ front = .record ∧ field ≠ [])
    (behind : Behind front field stage) : Reads ⟨stage, field, fields, records⟩ ['\r', '\n']
      { records := records ++ [fields ++ [field]] } := by
  rcases behind with rfl | rfl | ⟨rfl, rfl⟩
  · rfl
  · rfl
  · rcases front_eq with rfl | ⟨-, filled⟩
    · rfl
    · exact absurd rfl filled

/-- All fields of a record but a single empty one are told by their texts. -/
theorem reads_fields {front : Stage} {first : List Char} {rest : List (List Char)}
    (front_eq : front = .field ∨ front = .record ∧ first :: rest ≠ [[]]) :
    Reads ⟨front, [], fields, records⟩
      ([','].intercalate ((first :: rest).map fieldText) ++ ['\r', '\n'])
      { records := records ++ [fields ++ first :: rest] } := by
  have place : front = .record ∨ front = .field := by
    rcases front_eq with rfl | ⟨rfl, _⟩
    · exact .inr rfl
    · exact .inl rfl
  obtain ⟨stage, behind, read⟩ := exists_reads_fieldText fields records place first
  induction rest generalizing front first fields stage with
  | nil =>
      rw [List.map_singleton, List.intercalate_singleton]
      refine read.append (reads_ending (front_eq.imp_right fun other => ?_) behind)
      exact ⟨other.1, fun empty => other.2 (empty ▸ rfl)⟩
  | cons second rest ih =>
      obtain ⟨stage', behind', read'⟩ :=
        exists_reads_fieldText (fields ++ [first]) records (.inr rfl) second
      have later := ih (.inl rfl) (.inr rfl) stage' behind' read'
      rw [List.append_assoc] at later
      rw [List.map_cons, List.map_cons]
      exact List.append_assoc _ _ _ ▸ read.append (.cons (step_comma place behind) later)

theorem reads_recordText (record : List (List Char)) :
    Reads { records } (recordText record) { records := records ++ [record] } := by
  unfold recordText
  split
  · rfl
  · rename_i other
    cases record with
    | nil => rfl
    | cons first rest => exact reads_fields (.inr ⟨rfl, other⟩)

theorem reads_records (written : List (List (List Char))) :
    Reads { records } (written.flatMap recordText) { records := records ++ written } := by
  induction written generalizing records with
  | nil =>
      rw [List.append_nil]
      exact .nil _
  | cons record written ih =>
      rw [List.flatMap_cons, List.append_cons records record written]
      exact (reads_recordText record).append ih

/-- Every table is read back, whatever its fields hold. -/
theorem read?_text (written : List (List String)) : read? (Csv.text written) = some written := by
  have spelt : (Csv.text written).toList =
      (written.map fun record => record.map String.toList).flatMap recordText := by
    rw [Csv.text, String.toList_ofList, List.flatMap_map]
  have read : Reads {} (Csv.text written).toList
      { records := written.map fun record => record.map String.toList } := by
    rw [spelt]
    exact reads_records _
  have fields (record : List String) : (record.map String.toList).map String.ofList = record := by
    rw [List.map_map]
    exact List.map_id'' (fun _ => String.ofList_toList) record
  rw [read?, read, Option.bind_eq_bind, Option.bind_some, if_pos rfl, List.map_map]
  exact congrArg some (List.map_id'' fields written)

theorem text_injective : Function.Injective Csv.text := by
  intro written written' same
  have read := congrArg read? same
  rw [read?_text, read?_text] at read
  exact Option.some.inj read

end LocalMetric.Csv

namespace LocalMetric

variable {α : Type} [Scalar α]

theorem map_fst_zip_eq_take {β γ : Type} (xs : List β) (ys : List γ) :
    (xs.zip ys).map Prod.fst = xs.take ys.length := by
  induction xs generalizing ys with
  | nil => rw [List.zip_nil_left, List.map_nil, List.take_nil]
  | cons x xs ih =>
      cases ys with
      | nil => rfl
      | cons y ys => rw [List.zip_cons_cons, List.map_cons, ih, List.length_cons, List.take_succ_cons]

/-- The names that are reported are the first ones, as many as there are points. -/
theorem names_of_summarizePoints {db : Database α} {names : List String} {rows : List (PointSummary α)}
    (summarized : summarizePoints db names = .ok rows) :
    rows.map PointSummary.name = names.take db.ids.length := by
  rw [← map_fst_zip_eq_take]
  exact (Checked.map_eq_of_forall₂ (shows_of_summarizePoints summarized)
    fun _ _ here => here.name.symm).symm

variable [Numeral α]

theorem record_writeTable {rows : List (PointSummary α)} (filled : rows ≠ []) (path : Path) :
    record (Preprocess.writeTable path rows) = (.ok (), RunContext.placing path
      (Csv.text (PointSummary.columns :: rows.map PointSummary.cells))) := by
  rw [Preprocess.writeTable, PointSummary.tableText_fields filled]
  rfl

/-- A table that is written tells the names of its points. -/
theorem names_of_written {rows rows' : List (PointSummary α)} {path path' : Path}
    (written : .write path (.text (Csv.text (PointSummary.columns :: rows.map PointSummary.cells))) ∈
      (record (Preprocess.writeTable path' rows')).2) :
    rows'.map PointSummary.name = rows.map PointSummary.name := by
  have names (rows : List (PointSummary α)) :
      (rows.map PointSummary.cells).filterMap (·[1]?) = rows.map PointSummary.name := by
    rw [List.filterMap_map]
    exact congrFun (List.filterMap_eq_map (f := PointSummary.name)) rows
  by_cases empty : rows' = []
  · subst empty
    exact absurd written List.not_mem_nil
  · rw [record_writeTable empty] at written
    have same : Csv.text (PointSummary.columns :: rows.map PointSummary.cells) =
        Csv.text (PointSummary.columns :: rows'.map PointSummary.cells) := by
      rcases List.mem_pair.mp written with other | same
      · cases other
      · injection same with _ same
        injection same
    rw [← names, ← names, (List.cons.inj (Csv.text_injective same)).2]

/-- The table of points is read back with the names as they were given, and with what is reported about
each point. So tables with different names are different. -/
theorem point_tables_read_back {db : Database α} {names : List String} {rows : List (PointSummary α)}
    (summarized : summarizePoints db names = .ok rows) (filled : rows ≠ []) :
    ∃ text, (∀ path, record (Preprocess.writeTable path rows) = (.ok (), RunContext.placing path text)) ∧
    Csv.read? text = some (["point_id", "point_name", "correlation_dimension", "neighborhood_size",
      "explained_variance_ratio"] :: rows.map fun row => [toString row.id, row.name,
        toString row.correlationDimension, toString row.neighborhoodSize,
        Numeral.exact row.explainedVarianceRatio]) ∧
    rows.map PointSummary.name = names.take db.ids.length ∧
    ∀ (db' : Database α) (names' : List String) (rows' : List (PointSummary α)) (path path' : Path),
      summarizePoints db' names' = .ok rows' →
      .write path (.text text) ∈ (record (Preprocess.writeTable path' rows')).2 →
      names'.take db'.ids.length = names.take db.ids.length := by
  refine ⟨_, record_writeTable filled, Csv.read?_text _, names_of_summarizePoints summarized, ?_⟩
  intro db' names' rows' path path' summarized' written
  rw [← names_of_summarizePoints summarized, ← names_of_summarizePoints summarized']
  exact names_of_written written

section Pair

def lineOutcome : LocalPca Float :=
  ⟨[0.25], ⟨1, 1, .identity⟩, 1, .identity, 1, 2, Nat.one_pos, Nat.one_pos⟩

def analysedPair : Database Float where
  points := .pair
  associations := Associations.empty.setAll .localPca
    [(7, .localPca lineOutcome), (9, .localPca lineOutcome)]

theorem point_tables_read_back_quoted : ∃ rows text,
    summarizePoints analysedPair ["a,\"b\"\r\n", " "] = .ok rows ∧ rows ≠ [] ∧
    record (Preprocess.writeTable ⟨.relative, ["t"]⟩ rows) =
      (.ok (), RunContext.placing ⟨.relative, ["t"]⟩ text) ∧
    (Csv.read? text).map (·.map (·.take 4)) = some
      [["point_id", "point_name", "correlation_dimension", "neighborhood_size"],
        ["7", "a,\"b\"\r\n", "1", "2"], ["9", " ", "1", "2"]] := by
  have summarized : summarizePoints analysedPair ["a,\"b\"\r\n", " "] =
      .ok [⟨7, "a,\"b\"\r\n", 1, 2, lineOutcome.explainedVarianceRatio⟩,
        ⟨9, " ", 1, 2, lineOutcome.explainedVarianceRatio⟩] := rfl
  obtain ⟨text, writes, read, -, -⟩ := point_tables_read_back summarized (List.cons_ne_nil _ _)
  refine ⟨_, text, summarized, List.cons_ne_nil _ _, writes _, ?_⟩
  rw [read]
  rfl

end Pair

end LocalMetric
