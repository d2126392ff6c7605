import LocalMetric.Json.Payload
import LocalMetric.Proofs.Stores
import LocalMetric.Text.Number
/-!
# Normal forms

Every value that a run writes down has a normal form, and a value that JSON has already is its own. Rows
and arrays become lists with an item for each place. Keys become texts, and only entries whose keys have
one text are merged.
-/
namespace LocalMetric

variable {α : Type}

section Arrays

variable {β : Type}

theorem Json.ofNestedItems_eq_map (entry : β → Json α) (items : List (Nested β)) :
    Json.ofNestedItems entry items = items.map (Json.ofNested entry) := by
  induction items with
  | nil => rfl
  | cons item items ih => rw [Json.ofNestedItems, List.map_cons, ih]

/-- A value lists the entries of an array: along each axis it is a list with one item for each place, in
order, and without axes it is the only entry. -/
def Json.Lists (entry : β → Json α) : (shape : List Nat) → Entries β shape → Json α → Prop
  | [], x, v => v = entry x
  | n :: shape, xs, v => ∃ items : Vector (Json α) n, v = .arr items.toList ∧
      ∀ (i : Nat) (inside : i < n), Lists entry shape xs[i] items[i]

theorem Json.lists_ofNested (entry : β → Json α) {shape : List Nat} (entries : Entries β shape) :
    Json.Lists entry shape entries (Json.ofNested entry (entries.toNested shape)) := by
  induction shape with
  | nil => rfl
  | cons n shape ih =>
      refine ⟨Vector.map (fun x => Json.ofNested entry (Entries.toNested shape x)) entries, ?_, ?_⟩
      · rw [Entries.toNested, Json.ofNested, Json.ofNestedItems_eq_map, List.map_map, Vector.toList_map]
        rfl
      · intro i inside
        rw [Vector.getElem_map]
        exact ih entries[i]

namespace DataArray

def Lists (v : Json α) : DataArray α → Prop
  | ints values => Json.Lists Json.int values.shape values.entries v
  | flags values => Json.Lists Json.bool values.shape values.entries v
  | numbers values => Json.Lists Json.num values.shape values.entries v
  | texts values => Json.Lists Json.str values.shape values.entries v
  | objects values => Json.Lists id values.shape values.entries v

theorem lists_toJson (values : DataArray α) : values.Lists values.toJson := by
  cases values <;> exact Json.lists_ofNested _ _

/-- An array whose entries are all whole numbers, all truth values, all numbers or all texts. -/
def Homogeneous : DataArray α → Prop
  | objects _ => False
  | _ => True

end DataArray

end Arrays

namespace Payload

def object (fields : List (String × Payload α)) : Payload α :=
  .dict (fields.map fun field => (.atom (.text field.1), field.2))

/-- A value that JSON has: nothing, a truth value, a number, a text, a list of such values, or a
dictionary of such values by different names. -/
inductive Plain : Payload α → Prop
  | null : Plain (.atom .null)
  | bool (value : Bool) : Plain (.atom (.bool value))
  | int (value : Int) : Plain (.atom (.int value))
  | num (value : α) : Plain (.atom (.num value))
  | text (value : String) : Plain (.atom (.text value))
  | list {items : List (Payload α)} : (∀ item ∈ items, Plain item) → Plain (.list items)
  | object {fields : List (String × Payload α)} : (fields.map Prod.fst).Nodup →
      (∀ field ∈ fields, Plain field.2) → Plain (object fields)

inductive Homogeneous : Payload α → Prop
  | atom (value : Atom α) : Homogeneous (.atom value)
  | array {values : DataArray α} : values.Homogeneous → Homogeneous (.array values)
  | list {items : List (Payload α)} : (∀ item ∈ items, Homogeneous item) → Homogeneous (.list items)
  | tuple {items : List (Payload α)} : (∀ item ∈ items, Homogeneous item) → Homogeneous (.tuple items)
  | dict {entries : List (Key α × Payload α)} : (∀ entry ∈ entries, Homogeneous entry.2) →
      Homogeneous (.dict entries)

section Readings

theorem ofJsonItems_eq_map (items : List (Json α)) : ofJsonItems items = items.map ofJson := by
  induction items with
  | nil => rfl
  | cons item items ih => rw [ofJsonItems, List.map_cons, ih]

theorem ofJsonFields_eq_map (fields : List (String × Json α)) :
    ofJsonFields fields = fields.map fun field => (.atom (.text field.1), ofJson field.2) := by
  induction fields with
  | nil => rfl
  | cons field fields ih => rw [ofJsonFields, List.map_cons, ih]

theorem ofJson_obj (fields : List (String × Json α)) :
    ofJson (.obj fields) = object (fields.map fun field => (field.1, ofJson field.2)) := by
  rw [ofJson, ofJsonFields_eq_map, object, List.map_map]
  rfl

theorem plain_of_lists {β : Type} {entry : β → Json α} (each : ∀ x, (ofJson (entry x)).Plain)
    {shape : List Nat} {entries : Entries β shape} {v : Json α}
    (lists : Json.Lists entry shape entries v) : (ofJson v).Plain := by
  induction shape generalizing v with
  | nil =>
      obtain rfl : v = entry entries := lists
      exact each entries
  | cons n shape ih =>
      obtain ⟨items, rfl, places⟩ := lists
      rw [ofJson, ofJsonItems_eq_map]
      refine .list (List.forall_mem_map.mpr fun item listed => ?_)
      obtain ⟨i, inside, rfl⟩ := Vector.mem_iff_getElem.mp (Vector.mem_toList_iff.mp listed)
      exact ih (places i inside)

end Readings

variable [Numeral α] {p : Payload α}

theorem itemsToJson_eq_map (items : List (Payload α)) : itemsToJson items = items.map toJson := by
  induction items with
  | nil => rfl
  | cons item items ih => rw [itemsToJson, List.map_cons, ih]

theorem entriesToJson_eq_map (entries : List (Key α × Payload α)) :
    entriesToJson entries = entries.map fun entry => (entry.1.text, entry.2.toJson) := by
  induction entries with
  | nil => rfl
  | cons entry entries ih => rw [entriesToJson, List.map_cons, ih]

/-- Entries whose keys have different texts are kept one by one. -/
theorem toJson_dict {entries : List (Key α × Payload α)}
    (distinct : (entries.map fun entry => entry.1.text).Nodup) :
    (dict entries).toJson = .obj (entries.map fun entry => (entry.1.text, entry.2.toJson)) := by
  rw [toJson, entriesToJson_eq_map, mergeEntries_of_nodup]
  rwa [List.map_map]

/-- The normal form of a value, as a value that a run may write down in its turn. -/
def normalized (p : Payload α) : Payload α := ofJson p.toJson

theorem normalized_list (items : List (Payload α)) :
    (list items).normalized = list (items.map normalized) := by
  rw [normalized, toJson, itemsToJson_eq_map, ofJson, ofJsonItems_eq_map, List.map_map]
  rfl

theorem normalized_tuple (items : List (Payload α)) :
    (tuple items).normalized = list (items.map normalized) := normalized_list items

theorem normalized_dict (entries : List (Key α × Payload α)) :
    (dict entries).normalized = object ((mergeEntries (entries.map fun entry =>
      (entry.1.text, entry.2.toJson))).map fun field => (field.1, ofJson field.2)) := by
  rw [normalized, toJson, entriesToJson_eq_map, ofJson_obj]

theorem normalized_object {fields : List (String × Payload α)} (distinct : (fields.map Prod.fst).Nodup) :
    (object fields).normalized = object (fields.map fun field => (field.1, field.2.normalized)) := by
  have texts : ((fields.map fun field => ((.atom (.text field.1) : Key α), field.2)).map
      fun entry => entry.1.text) = fields.map Prod.fst := List.map_map
  rw [normalized, object, toJson_dict (texts ▸ distinct), List.map_map, ofJson_obj, List.map_map]
  rfl

theorem Plain.normalized_eq (plain : p.Plain) : p.normalized = p := by
  induction plain with
  | null | bool | int | num | text => rfl
  | list _ ih => rw [normalized_list, List.map_congr_left ih, List.map_id']
  | @object fields distinct _ ih =>
      have same : fields.map (fun field => (field.1, field.2.normalized)) = fields.map id :=
        List.map_congr_left fun field listed => Prod.ext rfl (ih field listed)
      rw [normalized_object distinct, same, List.map_id]

theorem plain_normalized_atom (value : Atom α) : (atom value).normalized.Plain := by
  cases value with
  | null => exact .null
  | bool b => exact .bool b
  | int n => exact .int n
  | num x => exact .num x
  | text _ | path _ | localPca | readiness _ => exact .text _
  | cell c =>
      cases c with
      | int n => exact .int n
      | num x | halved x => exact .num x
      | flag b => exact .bool b

theorem plain_normalized_array {values : DataArray α} (homogeneous : values.Homogeneous) :
    (array values).normalized.Plain := by
  have lists := values.lists_toJson
  cases values with
  | ints => exact plain_of_lists .int lists
  | flags => exact plain_of_lists .bool lists
  | numbers => exact plain_of_lists .num lists
  | texts => exact plain_of_lists .text lists
  | objects => exact homogeneous.elim

theorem Homogeneous.plain (homogeneous : p.Homogeneous) : p.normalized.Plain := by
  induction homogeneous with
  | atom value => exact plain_normalized_atom value
  | array homogeneous => exact plain_normalized_array homogeneous
  | list _ ih =>
      rw [normalized_list]
      exact .list (List.forall_mem_map.mpr ih)
  | tuple _ ih =>
      rw [normalized_tuple]
      exact .list (List.forall_mem_map.mpr ih)
  | dict _ ih =>
      rw [normalized_dict]
      refine .object ?_ (List.forall_mem_map.mpr fun field merged => ?_)
      · rw [List.map_map]
        exact nodup_mergeEntries _
      · -- Merging drops values and never makes up one, so the value is that of some entry.
        obtain ⟨entry, listed, rfl⟩ := List.mem_map.mp (mem_of_mem_mergeEntries merged)
        exact ih entry listed

/-- What the normal form of a value keeps of its parts: of a list, a row or an array the length and the
order of the items, and of a dictionary every entry in its place, if the texts of the keys are different. -/
def KeepsParts (v : Json α) : Payload α → Prop
  | atom _ => True
  | array values => values.Lists v
  | list items | tuple items => v = .arr (items.map toJson)
  | dict entries => (entries.map fun entry => entry.1.text).Nodup →
      v = .obj (entries.map fun entry => (entry.1.text, entry.2.toJson))

theorem keepsParts_toJson (p : Payload α) : p.KeepsParts p.toJson := by
  cases p with
  | atom _ => trivial
  | array values => exact values.lists_toJson
  | list items | tuple items => exact congrArg Json.arr (itemsToJson_eq_map items)
  | dict entries => exact toJson_dict

/-- The normal form of a value is one that JSON has, whatever the value is made of. Such a value is its own
normal form, so normal forms stay as they are. Lists, rows and arrays keep their lengths and the order of
their items, and a dictionary keeps its entries one by one if the texts of its keys are different.

Nothing is too deep or too long for a normal form or for a printer. Only what is read has limits: a
tagged value may be `depthLimit` deep, and an integer in a text may have `Text.digitLimit` digits. -/
theorem normal_forms (homogeneous : p.Homogeneous) :
    p.normalized.Plain ∧ (p.Plain → p.normalized = p) ∧ p.normalized.normalized = p.normalized ∧
      p.KeepsParts p.toJson :=
  ⟨homogeneous.plain, Plain.normalized_eq, homogeneous.plain.normalized_eq, p.keepsParts_toJson⟩

section Nested

def nestedReport : Payload Float := .dict
  [(.atom .localPca, .tuple [.atom (.path ⟨.relative, ["a", "b"]⟩),
      .array (.ints (.ofMat #v[#v[1, 2, 3], #v[4, 5, 6]])), .atom (.cell (.flag true))]),
    (.atom (.int 1), .list [.atom (.readiness .ready), .dict [(.atom (.bool true), .atom .null)],
      .array (.numbers (.scalar 0.5))]),
    (.atom (.text "2"), .atom .localPca)]

theorem normal_forms_nested : nestedReport.Homogeneous ∧ nestedReport.normalized.Plain ∧
    nestedReport.normalized.normalized = nestedReport.normalized ∧
    nestedReport.toJson = .obj
      [("AssociationID.LOCAL_PCA", .arr [.str "a/b",
          .arr [.arr [.int 1, .int 2, .int 3], .arr [.int 4, .int 5, .int 6]], .bool true]),
        ("1", .arr [.str "ready", .obj [("True", .null)], .num 0.5]),
        ("2", .str "local_pca")] := by
  have inner : (dict [(.atom (.bool true), .atom .null)] : Payload Float).Homogeneous :=
    .dict (List.forall_mem_singleton.mpr (.atom _))
  have homogeneous : nestedReport.Homogeneous := by
    refine .dict (List.forall_mem_cons.mpr ⟨.tuple ?_, List.forall_mem_cons.mpr ⟨.list ?_,
      List.forall_mem_singleton.mpr (.atom _)⟩⟩)
    · exact List.forall_mem_cons.mpr ⟨.atom _, List.forall_mem_cons.mpr ⟨.array trivial,
        List.forall_mem_singleton.mpr (.atom _)⟩⟩
    · exact List.forall_mem_cons.mpr ⟨.atom _, List.forall_mem_cons.mpr ⟨inner,
        List.forall_mem_singleton.mpr (.array trivial)⟩⟩
  obtain ⟨plain, -, again, parts⟩ := normal_forms homogeneous
  exact ⟨homogeneous, plain, again, (parts (by decide)).trans rfl⟩

/-- Of entries whose keys have one text, the last value stands in the place of the first. -/
example : (dict [(.atom (.int 1), .atom .null), (.atom (.text "2"), .atom .null),
    (.atom (.text "1"), .atom (.bool true))] : Payload Float).toJson =
      .obj [("1", .bool true), ("2", .null)] := rfl

end Nested

end Payload

end LocalMetric
