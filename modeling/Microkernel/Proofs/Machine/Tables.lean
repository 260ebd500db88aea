import Microkernel.Machine.Basic

/-!
# Tables of records

Looking a record up after one record of its table was changed or dropped, and the records that a table lists.
-/

namespace Microkernel

variable {α : Type}

/-- A key is found where it compares equal, so only under itself. -/
theorem compare_eq_iff {κ : Type} [Ord κ] [Std.LawfulEqOrd κ] {key other : κ} : compare key other = .eq ↔ other = key :=
  Std.LawfulEqCmp.compare_eq_iff_eq.trans eq_comm

namespace Records

section

variable {records : Records α} {id : RecordId} {a : α}

/-- A number is in a table exactly if a record is found under it. -/
theorem contains_iff : records.contains id = true ↔ ∃ a, records[id]? = some a := by
  rw [Std.TreeMap.contains_eq_isSome_getElem?, Option.isSome_iff_exists]

/-- A number under which a record is found is in the table. -/
theorem contains_of_getElem? (h : records[id]? = some a) : records.contains id = true := contains_iff.2 ⟨a, h⟩

/-- Whether a record is there is seen by looking it up. -/
theorem contains_congr {records' : Records α} (h : records'[id]? = records[id]?) : records'.contains id = records.contains id := by
  rw [Std.TreeMap.contains_eq_isSome_getElem?, h, Std.TreeMap.contains_eq_isSome_getElem?]

/-- A record that is found is the one that is looked up. -/
theorem getD_of_getElem? (h : records[id]? = some a) (d : α) : records.getD id d = a := by
  rw [Std.TreeMap.getD_eq_getD_getElem?, h]
  rfl

/-- For a number in the table, what is looked up is found. -/
theorem getElem?_of_contains (h : records.contains id = true) (d : α) : records[id]? = some (records.getD id d) := by
  obtain ⟨a, ha⟩ := contains_iff.1 h
  rw [getD_of_getElem? ha, ha]

/-- The values of a table, in the order of their keys. -/
theorem values_eq : records.values = records.toList.map Prod.snd := by
  change records.foldr (fun _ a l => a :: l) [] = _
  rw [Std.TreeMap.foldr_eq_foldr_toList]
  induction records.toList with
  | nil => rfl
  | cons b rest ih => exact congrArg (b.2 :: ·) ih

/-- The records that a table lists are those that are found. -/
theorem mem_values : a ∈ records.values ↔ ∃ id : RecordId, records[id]? = some a := by
  rw [values_eq, List.mem_map]
  constructor
  · rintro ⟨⟨id, b⟩, hb, rfl⟩
    exact ⟨id, Std.TreeMap.mem_toList_iff_getElem?_eq_some.1 hb⟩
  · rintro ⟨id, hid⟩
    exact ⟨(id, a), Std.TreeMap.mem_toList_iff_getElem?_eq_some.2 hid, rfl⟩

end

/-! ## Changing one record -/

variable (records : Records α) (id other : RecordId) (a : α)

/-- A record that is inserted is found under its number, and the others as before. -/
theorem getElem?_insert : (records.insert id a)[other]? = if other = id then some a else records[other]? := by
  rw [Std.TreeMap.getElem?_insert]
  simp only [compare_eq_iff]

/-- Inserting a record adds its number. -/
theorem contains_insert : (records.insert id a).contains other = true ↔ other = id ∨ records.contains other = true := by
  rw [Std.TreeMap.contains_eq_isSome_getElem?, getElem?_insert, Std.TreeMap.contains_eq_isSome_getElem?]
  by_cases h : other = id
  · simp [h]
  · simp [h]

/-- A record that is inserted is looked up under its number, and the others as before. -/
theorem getD_insert (d : α) : (records.insert id a).getD other d = if other = id then a else records.getD other d := by
  rw [Std.TreeMap.getD_eq_getD_getElem?, getElem?_insert, Std.TreeMap.getD_eq_getD_getElem?]
  split <;> rfl

/-- A record that is erased is not found any more, and the others are as before. -/
theorem getElem?_erase : (records.erase id)[other]? = if other = id then none else records[other]? := by
  rw [Std.TreeMap.getElem?_erase]
  simp only [compare_eq_iff]

/-- Erasing a record takes its number away. -/
theorem contains_erase : (records.erase id).contains other = true ↔ other ≠ id ∧ records.contains other = true := by
  rw [Std.TreeMap.contains_eq_isSome_getElem?, getElem?_erase, Std.TreeMap.contains_eq_isSome_getElem?]
  by_cases h : other = id
  · simp [h]
  · simp [h]

/-- A record that is erased is looked up as the default, and the others as before. -/
theorem getD_erase (d : α) : (records.erase id).getD other d = if other = id then d else records.getD other d := by
  rw [Std.TreeMap.getD_eq_getD_getElem?, getElem?_erase, Std.TreeMap.getD_eq_getD_getElem?]
  split <;> rfl

end Records

namespace Machine

/-- Setting one process leaves the others. -/
theorem process_insert (s : Machine) (id other : RecordId) (p : Process) :
    { s with processes := s.processes.insert id p }.process other = if other = id then p else s.process other :=
  Records.getD_insert _ _ _ _ _

/-- Setting one kernel leaves the others. -/
theorem kernel_insert (s : Machine) (id other : RecordId) (k : Kernel) :
    { s with kernels := s.kernels.insert id k }.kernel other = if other = id then k else s.kernel other :=
  Records.getD_insert _ _ _ _ _

end Machine

end Microkernel
