import Xylophone.Infra.Ledger
import Xylophone.Scheduler.Structures

/-!
# `allocation-table.c`

The table in which a task records the blocks that `syscall_malloc` returned to it.

* `recorded_add` — a block is recorded where there is a free entry
* `recorded_remove` — a block that is recorded is removed
-/

namespace Xylophone

open Infra

/-- `ALLOCATION_MAX_COUNT`. -/
def allocationMaxCount : Nat := 512

/-- `find_free_entry`. -/
def findFreeEntry (table : AllocationTable) : Option Nat :=
  (List.range allocationMaxCount).find? fun i =>
    (table.data i).address = 0 ∧ (table.data i).size = 0

/-- `allocation_table_init`. -/
def allocationTableInit : AllocationTable := ⟨0, fun _ => ⟨0, 0⟩⟩

/-- `allocation_table_add`. -/
def allocationTableAdd (table : AllocationTable) (address size : Nat) : AllocationTable :=
  match findFreeEntry table with
  | none => table
  | some i => ⟨wrap32 (table.size + 1), Function.update table.data i ⟨address, size⟩⟩

/-- `allocation_table_remove`. -/
def allocationTableRemove (table : AllocationTable) (address : Nat) : AllocationTable :=
  match (List.range allocationMaxCount).find? fun i => (table.data i).address = address with
  | none => table
  | some i => ⟨sub32 table.size 1, Function.update table.data i ⟨0, 0⟩⟩

variable {table : AllocationTable} {address size i : Nat}

/-! ## The blocks in a table -/

/-- The block of an entry. `task_cleanup` frees no other entries. -/
def AllocationEntry.block (e : AllocationEntry) : Multiset Nat :=
  if 0 < e.size ∧ e.address ≠ 0 then {e.address} else 0

/-- The blocks that a table records. -/
def AllocationTable.recorded (table : AllocationTable) : Multiset Nat :=
  total allocationMaxCount fun i => (table.data i).block

/-- An entry with an address has a size. -/
def AllocationTable.Sized (table : AllocationTable) : Prop :=
  ∀ i, (table.data i).address ≠ 0 → 0 < (table.data i).size

theorem AllocationEntry.block_eq (hsize : 0 < size) (haddress : address ≠ 0) :
    AllocationEntry.block ⟨address, size⟩ = {address} := if_pos ⟨hsize, haddress⟩

theorem AllocationEntry.block_null : AllocationEntry.block ⟨0, size⟩ = 0 :=
  if_neg fun h => h.2 rfl

theorem recorded_init : allocationTableInit.recorded = 0 := by
  unfold AllocationTable.recorded
  exact total_zero fun _ _ => AllocationEntry.block_null

/-- One entry changes. -/
theorem recorded_update (table : AllocationTable) (hi : i < allocationMaxCount)
    (e : AllocationEntry) (n : Nat) :
    AllocationTable.recorded ⟨n, Function.update table.data i e⟩ + (table.data i).block =
      table.recorded + e.block := by
  have h := total_change (f := fun j => (table.data j).block)
    (g := fun j => (Function.update table.data i e j).block) hi fun j _ hji => by
      rw [Function.update_of_ne hji]
  rwa [Function.update_self] at h

theorem findFreeEntry_some (h : findFreeEntry table = some i) :
    i < allocationMaxCount ∧ table.data i = ⟨0, 0⟩ := by
  have hmem := List.mem_range.mp (List.mem_of_find?_eq_some h)
  have hfound := List.find?_some h
  have hfree := of_decide_eq_true hfound
  refine ⟨hmem, ?_⟩
  cases hdata : table.data i with
  | mk a n =>
    rw [hdata] at hfree
    obtain ⟨rfl, rfl⟩ : a = 0 ∧ n = 0 := hfree
    rfl

/-- An entry is added where there is a free one. -/
theorem recorded_add (h : findFreeEntry table ≠ none) :
    (allocationTableAdd table address size).recorded =
      table.recorded + AllocationEntry.block ⟨address, size⟩ := by
  obtain ⟨i, hi⟩ := Option.ne_none_iff_exists'.mp h
  obtain ⟨hlt, hfree⟩ := findFreeEntry_some hi
  have hupdate := recorded_update table hlt ⟨address, size⟩ (wrap32 (table.size + 1))
  rw [hfree, AllocationEntry.block_null, add_zero] at hupdate
  unfold allocationTableAdd
  rw [hi]
  exact hupdate

/-- `NULL` is never recorded as a block. -/
theorem recorded_add_null : (allocationTableAdd table 0 size).recorded = table.recorded := by
  cases hfree : findFreeEntry table with
  | none =>
    unfold allocationTableAdd
    rw [hfree]
  | some i =>
    rw [recorded_add (by rw [hfree]; exact Option.some_ne_none i), AllocationEntry.block_null,
      add_zero]

theorem AllocationTable.Sized.add (h : table.Sized) (hsize : 0 < size) :
    (allocationTableAdd table address size).Sized := by
  unfold allocationTableAdd
  cases findFreeEntry table with
  | none => exact h
  | some i =>
    intro j hj
    by_cases hji : j = i
    · subst hji
      simp only [Function.update_self]
      exact hsize
    · simp only [Function.update_of_ne hji] at hj ⊢
      exact h j hj

theorem AllocationTable.Sized.remove (h : table.Sized) :
    (allocationTableRemove table address).Sized := by
  unfold allocationTableRemove
  split
  · exact h
  · next i _ =>
    intro j hj
    by_cases hji : j = i
    · subst hji
      simp only [Function.update_self] at hj
      exact absurd rfl hj
    · simp only [Function.update_of_ne hji] at hj ⊢
      exact h j hj

/-- A recorded block has an entry. -/
theorem mem_recorded : address ∈ table.recorded ↔
    ∃ i, i < allocationMaxCount ∧ 0 < (table.data i).size ∧ (table.data i).address = address ∧
      address ≠ 0 := by
  unfold AllocationTable.recorded
  rw [mem_total]
  constructor
  · rintro ⟨i, hi, hmem⟩
    unfold AllocationEntry.block at hmem
    split at hmem
    · next hblock =>
      obtain rfl := Multiset.mem_singleton.mp hmem
      exact ⟨i, hi, hblock.1, rfl, hblock.2⟩
    · cases hmem
  · rintro ⟨i, hi, hsize, rfl, hne⟩
    refine ⟨i, hi, ?_⟩
    rw [show (table.data i).block = {(table.data i).address} from if_pos ⟨hsize, hne⟩]
    exact Multiset.mem_singleton_self _

/-- Whether the table has an entry for the block. -/
def AllocationTable.records (table : AllocationTable) (address : Nat) : Bool :=
  (List.range allocationMaxCount).any fun i =>
    0 < (table.data i).size ∧ (table.data i).address = address ∧ address ≠ 0

theorem records_iff : table.records address = true ↔ address ∈ table.recorded := by
  unfold AllocationTable.records
  rw [mem_recorded, List.any_eq_true]
  constructor
  · rintro ⟨i, hi, hentry⟩
    exact ⟨i, List.mem_range.mp hi, of_decide_eq_true hentry⟩
  · rintro ⟨i, hi, hentry⟩
    exact ⟨i, List.mem_range.mpr hi, decide_eq_true hentry⟩

/-- **A recorded block is removed.** -/
theorem recorded_remove (hsized : table.Sized) (h : address ∈ table.recorded) :
    table.recorded = address ::ₘ (allocationTableRemove table address).recorded := by
  obtain ⟨k, hk, -, haddress, hne⟩ := mem_recorded.mp h
  unfold allocationTableRemove
  split
  · next hnone =>
    have hmem : k ∈ List.range allocationMaxCount := List.mem_range.mpr hk
    exact absurd (decide_eq_true haddress) (List.find?_eq_none.mp hnone k hmem)
  · next i hi =>
    have hlt := List.mem_range.mp (List.mem_of_find?_eq_some hi)
    have hdecide := List.find?_some hi
    have hfound : (table.data i).address = address := of_decide_eq_true hdecide
    have hblock : (table.data i).block = {address} := by
      rw [← hfound] at hne ⊢
      exact if_pos ⟨hsized i hne, hne⟩
    have hupdate := recorded_update table hlt ⟨0, 0⟩ (sub32 table.size 1)
    rw [hblock, AllocationEntry.block_null, add_zero] at hupdate
    rw [← hupdate, add_comm, Multiset.singleton_add]

end Xylophone
