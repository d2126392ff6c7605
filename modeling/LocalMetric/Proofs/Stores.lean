import Mathlib.Data.List.Induction
import LocalMetric.Associations
/-!
# What a store answers after each operation

Tables first, then associations. An operation is known by its answers: the values found and the
state of each kind. No later proof opens a table.
-/
namespace LocalMetric

section Tables

variable {κ ν : Type} [BEq κ] [LawfulBEq κ] {key other : κ}

theorem mem_of_findEntry {value : ν} {entries : List (κ × ν)}
    (found : findEntry key entries = some value) : (key, value) ∈ entries := by
  induction entries with
  | nil => cases found
  | cons entry rest ih =>
      rw [findEntry] at found
      split at found
      · rename_i same
        obtain rfl := eq_of_beq same
        obtain rfl := Option.some.inj found
        exact List.mem_cons_self
      · exact List.mem_cons_of_mem entry (ih found)

theorem findEntry_setEntry_self (key : κ) (value : ν) (entries : List (κ × ν)) :
    findEntry key (setEntry key value entries) = some value := by
  induction entries with
  | nil => simp only [setEntry, findEntry, beq_self_eq_true, if_true]
  | cons entry rest ih =>
      by_cases same : (entry.1 == key) = true
      · simp only [setEntry, findEntry, same, if_true]
      · simp only [setEntry, findEntry, same, if_false, ih, Bool.false_eq_true]

theorem findEntry_setEntry_of_ne (distinct : other ≠ key) (value : ν) (entries : List (κ × ν)) :
    findEntry other (setEntry key value entries) = findEntry other entries := by
  have apart : (key == other) = false := beq_false_of_ne distinct.symm
  induction entries with
  | nil => simp only [setEntry, findEntry, apart, Bool.false_eq_true, if_false]
  | cons entry rest ih =>
      by_cases same : (entry.1 == key) = true
      · have here := eq_of_beq same
        subst here
        simp only [setEntry, findEntry, beq_self_eq_true, if_true, apart, Bool.false_eq_true,
          if_false]
      · simp only [setEntry, findEntry, same, Bool.false_eq_true, if_false, ih]

omit [LawfulBEq κ] in
theorem length_setEntry (key : κ) (value : ν) (entries : List (κ × ν)) :
    (setEntry key value entries).length =
      if (findEntry key entries).isSome then entries.length else entries.length + 1 := by
  induction entries with
  | nil => rfl
  | cons entry rest ih =>
      by_cases same : (entry.1 == key) = true
      · simp [setEntry, findEntry, same]
      · simp only [setEntry, findEntry, same, Bool.false_eq_true, if_false, List.length_cons, ih]
        split <;> rfl

omit [LawfulBEq κ] in
theorem findEntry_filter_self (key : κ) (entries : List (κ × ν)) :
    findEntry key (entries.filter fun entry => !(entry.1 == key)) = none := by
  induction entries with
  | nil => rfl
  | cons entry rest ih =>
      by_cases same : (entry.1 == key) = true
      · simpa only [List.filter_cons, same, Bool.not_true, Bool.false_eq_true, if_false] using ih
      · simp only [List.filter_cons, same, Bool.not_false, if_true, findEntry, ih,
          Bool.false_eq_true, if_false]

theorem findEntry_filter_of_ne (distinct : other ≠ key) (entries : List (κ × ν)) :
    findEntry other (entries.filter fun entry => !(entry.1 == key)) =
      findEntry other entries := by
  induction entries with
  | nil => rfl
  | cons entry rest ih =>
      by_cases same : (entry.1 == key) = true
      · have apart : (entry.1 == other) = false := by
          rw [eq_of_beq same]
          exact beq_false_of_ne distinct.symm
        simp only [List.filter_cons, same, Bool.not_true, Bool.false_eq_true, if_false, findEntry,
          apart, ih]
      · simp only [List.filter_cons, same, Bool.not_false, if_true, findEntry, ih]

section Merged

variable {entries : List (κ × ν)} {entry : κ × ν}

/-- A new key comes last. -/
theorem setEntry_of_notMem (absent : key ∉ entries.map Prod.fst) (value : ν) :
    setEntry key value entries = entries ++ [(key, value)] := by
  induction entries with
  | nil => rfl
  | cons first rest ih =>
      rw [List.map_cons, List.mem_cons, not_or] at absent
      have apart : (first.1 == key) = false := beq_false_of_ne (Ne.symm absent.1)
      simp only [setEntry, apart, Bool.false_eq_true, if_false, ih absent.2, List.cons_append]

/-- A known key keeps its place. -/
theorem map_fst_setEntry_of_mem (known : key ∈ entries.map Prod.fst) (value : ν) :
    (setEntry key value entries).map Prod.fst = entries.map Prod.fst := by
  induction entries with
  | nil => cases known
  | cons first rest ih =>
      by_cases same : (first.1 == key) = true
      · simp only [setEntry, same, if_true, List.map_cons]
      · have later : key ∈ rest.map Prod.fst := by
          refine (List.mem_cons.mp known).resolve_left fun here => same ?_
          rw [here, beq_self_eq_true]
        simp only [setEntry, same, Bool.false_eq_true, if_false, List.map_cons, ih later]

theorem nodup_setEntry (distinct : (entries.map Prod.fst).Nodup) (key : κ) (value : ν) :
    ((setEntry key value entries).map Prod.fst).Nodup := by
  by_cases known : key ∈ entries.map Prod.fst
  · rwa [map_fst_setEntry_of_mem known]
  · rw [setEntry_of_notMem known, List.map_append, List.nodup_append]
    refine ⟨distinct, List.pairwise_singleton _ _, ?_⟩
    rintro name listed new here rfl
    obtain rfl : name = key := List.mem_singleton.mp here
    exact known listed

theorem mem_of_mem_setEntry {value : ν} (listed : entry ∈ setEntry key value entries) :
    entry = (key, value) ∨ entry ∈ entries := by
  induction entries with
  | nil => exact .inl (List.mem_singleton.mp listed)
  | cons first rest ih =>
      by_cases same : (first.1 == key) = true
      · obtain rfl := eq_of_beq same
        simp only [setEntry, beq_self_eq_true, if_true] at listed
        exact (List.mem_cons.mp listed).imp_right (List.mem_cons_of_mem first)
      · simp only [setEntry, same, Bool.false_eq_true, if_false] at listed
        rcases List.mem_cons.mp listed with here | later
        · exact .inr (here ▸ List.mem_cons_self)
        · exact (ih later).imp_right (List.mem_cons_of_mem first)

omit [LawfulBEq κ] in
theorem mergeEntries_concat (entries : List (κ × ν)) (entry : κ × ν) :
    mergeEntries (entries ++ [entry]) = setEntry entry.1 entry.2 (mergeEntries entries) :=
  List.foldl_append

theorem nodup_mergeEntries (entries : List (κ × ν)) :
    ((mergeEntries entries).map Prod.fst).Nodup := by
  induction entries using List.reverseRecOn with
  | nil => exact List.nodup_nil
  | append_singleton entries entry ih =>
      rw [mergeEntries_concat]
      exact nodup_setEntry ih entry.1 entry.2

theorem mem_of_mem_mergeEntries (listed : entry ∈ mergeEntries entries) : entry ∈ entries := by
  induction entries using List.reverseRecOn with
  | nil => exact listed
  | append_singleton entries last ih =>
      rw [mergeEntries_concat] at listed
      rcases mem_of_mem_setEntry listed with here | earlier
      · exact List.mem_append_right entries (List.mem_singleton.mpr here)
      · exact List.mem_append_left [last] (ih earlier)

theorem mergeEntries_of_nodup (distinct : (entries.map Prod.fst).Nodup) :
    mergeEntries entries = entries := by
  induction entries using List.reverseRecOn with
  | nil => rfl
  | append_singleton entries last ih =>
      rw [List.map_append, List.nodup_append] at distinct
      obtain ⟨apart, -, new⟩ := distinct
      have absent : last.1 ∉ entries.map Prod.fst := fun listed =>
        new last.1 listed last.1 (List.mem_singleton.mpr rfl) rfl
      rw [mergeEntries_concat, ih apart, setEntry_of_notMem absent]

end Merged

namespace Table

@[simp] theorem find?_set_self (t : Table κ ν) (key : κ) (value : ν) :
    (t.set key value).find? key = some value :=
  findEntry_setEntry_self key value t.entries

@[simp] theorem find?_set_of_ne (t : Table κ ν) (distinct : other ≠ key) (value : ν) :
    (t.set key value).find? other = t.find? other :=
  findEntry_setEntry_of_ne distinct value t.entries

omit [LawfulBEq κ] in
@[simp] theorem find?_erase_self (t : Table κ ν) (key : κ) : (t.erase key).find? key = none :=
  findEntry_filter_self key t.entries

@[simp] theorem find?_erase_of_ne (t : Table κ ν) (distinct : other ≠ key) :
    (t.erase key).find? other = t.find? other :=
  findEntry_filter_of_ne distinct t.entries

omit [LawfulBEq κ] in
theorem size_set (t : Table κ ν) (key : κ) (value : ν) :
    (t.set key value).size = if t.contains key then t.size else t.size + 1 :=
  length_setEntry key value t.entries

end Table

end Tables

namespace Associations

variable {V : Type} (s : Associations V) {kind other : Kind} {id point : Int}

@[simp] theorem find?_setState (kind other : Kind) (state : Readiness) (id : Int) :
    (s.setState kind state).find? other id = s.find? other id := rfl

@[simp] theorem state_setState_self (kind : Kind) (state : Readiness) :
    (s.setState kind state).state kind = state := by
  simp only [Associations.state, setState, Table.find?_set_self, Option.getD_some]

@[simp] theorem state_setState_of_ne (distinct : other ≠ kind) (state : Readiness) :
    (s.setState kind state).state other = s.state other := by
  simp only [Associations.state, setState, Table.find?_set_of_ne _ distinct]

@[simp] theorem state_set (kind other : Kind) (id : Int) (value : V) :
    (s.set kind id value).state other = s.state other := rfl

@[simp] theorem find?_set_self (kind : Kind) (id : Int) (value : V) :
    (s.set kind id value).find? kind id = some value := by
  simp only [Associations.find?, ofKind, Associations.set, Table.find?_set_self, Option.getD_some]

@[simp] theorem find?_set_of_kind_ne (distinct : other ≠ kind) (id point : Int) (value : V) :
    (s.set kind id value).find? other point = s.find? other point := by
  simp only [Associations.find?, ofKind, Associations.set, Table.find?_set_of_ne _ distinct]

@[simp] theorem find?_set_of_id_ne (kind : Kind) (distinct : point ≠ id) (value : V) :
    (s.set kind id value).find? kind point = s.find? kind point := by
  simp only [Associations.find?, ofKind, Associations.set, Table.find?_set_self, Option.getD_some,
    Table.find?_set_of_ne _ distinct]

@[simp] theorem find?_clear_self (kind : Kind) (id : Int) : (s.clear kind).find? kind id = none := by
  simp only [Associations.find?, ofKind, clear, Table.find?_erase_self, Option.getD_none]
  rfl

@[simp] theorem find?_clear_of_ne (distinct : other ≠ kind) (id : Int) :
    (s.clear kind).find? other id = s.find? other id := by
  simp only [Associations.find?, ofKind, clear, Table.find?_erase_of_ne _ distinct]

@[simp] theorem state_clear_self (kind : Kind) : (s.clear kind).state kind = .unset := by
  simp only [Associations.state, clear, Table.find?_erase_self, Option.getD_none]

@[simp] theorem state_clear_of_ne (distinct : other ≠ kind) :
    (s.clear kind).state other = s.state other := by
  simp only [Associations.state, clear, Table.find?_erase_of_ne _ distinct]

theorem count_set_self (kind : Kind) (id : Int) (value : V) :
    (s.set kind id value).count kind = if s.has kind id then s.count kind else s.count kind + 1 := by
  simp only [count, ofKind, Associations.set, Table.find?_set_self, Option.getD_some, Table.size_set]
  rfl

@[simp] theorem count_set_of_ne (distinct : other ≠ kind) (id : Int) (value : V) :
    (s.set kind id value).count other = s.count other := by
  simp only [count, ofKind, Associations.set, Table.find?_set_of_ne _ distinct]

@[simp] theorem count_setState (kind other : Kind) (state : Readiness) :
    (s.setState kind state).count other = s.count other := rfl

@[simp] theorem count_clear_self (kind : Kind) : (s.clear kind).count kind = 0 := by
  simp only [count, ofKind, clear, Table.find?_erase_self, Option.getD_none]
  rfl

@[simp] theorem count_clear_of_ne (distinct : other ≠ kind) :
    (s.clear kind).count other = s.count other := by
  simp only [count, ofKind, clear, Table.find?_erase_of_ne _ distinct]

@[simp] theorem isReady_iff (kind : Kind) : s.isReady kind = true ↔ s.state kind = .ready := by
  simp only [isReady, decide_eq_true_eq]

theorem has_iff_find? : s.has kind id = true ↔ ∃ value, s.find? kind id = some value := by
  simp only [has, Option.isSome_iff_exists]

/-- A stored value is never taken back by storing another one. -/
theorem has_set (stored : s.has kind id = true) (value : V) :
    (s.set other point value).has kind id = true := by
  by_cases sameKind : kind = other
  · subst sameKind
    by_cases sameId : id = point
    · subst sameId
      simp only [has, find?_set_self, Option.isSome_some]
    · simpa only [has, find?_set_of_id_ne _ _ sameId] using stored
  · simpa only [has, find?_set_of_kind_ne _ sameKind] using stored

theorem mem_missing {ids : List Int} :
    id ∈ s.missing kind ids ↔ id ∈ ids ∧ s.find? kind id = none := by
  simp only [missing, List.mem_filter, has, Bool.not_eq_true', Option.isSome_eq_false_iff,
    Option.isNone_iff_eq_none]

section SetAll

theorem state_setAll (kind other : Kind) (values : List (Int × V)) :
    (s.setAll kind values).state other = s.state other := by
  induction values generalizing s with
  | nil => rfl
  | cons entry rest ih =>
      exact (ih (s.set kind entry.1 entry.2)).trans (s.state_set kind other entry.1 entry.2)

theorem find?_setAll_of_kind_ne (distinct : other ≠ kind) (id : Int) (values : List (Int × V)) :
    (s.setAll kind values).find? other id = s.find? other id := by
  induction values generalizing s with
  | nil => rfl
  | cons entry rest ih =>
      exact (ih (s.set kind entry.1 entry.2)).trans (s.find?_set_of_kind_ne distinct _ _ _)

theorem find?_setAll_of_not_mem (kind : Kind) {values : List (Int × V)}
    (absent : id ∉ values.map Prod.fst) :
    (s.setAll kind values).find? kind id = s.find? kind id := by
  induction values generalizing s with
  | nil => rfl
  | cons entry rest ih =>
      rw [List.map_cons, List.mem_cons, not_or] at absent
      exact (ih (s.set kind entry.1 entry.2) absent.2).trans
        (s.find?_set_of_id_ne kind absent.1 _)

/-- Of distinct points each one keeps the value that is listed with it. -/
theorem find?_setAll_of_mem (kind : Kind) {values : List (Int × V)} {value : V}
    (distinct : (values.map Prod.fst).Nodup) (member : (id, value) ∈ values) :
    (s.setAll kind values).find? kind id = some value := by
  induction values generalizing s with
  | nil => cases member
  | cons entry rest ih =>
      rw [List.map_cons, List.nodup_cons] at distinct
      rcases List.mem_cons.mp member with rfl | later
      · exact ((s.set kind id value).find?_setAll_of_not_mem kind distinct.1).trans
          (s.find?_set_self kind id value)
      · exact ih (s.set kind entry.1 entry.2) distinct.2 later

end SetAll

end Associations

end LocalMetric
