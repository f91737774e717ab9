import Xylophone.Infra.Run
import Xylophone.Tasks.AllocationTable

/-!
# Runs of `allocation-table.c`

`table->size` is to count the entries in use, and these are to be the additions less the removals.
An entry is free when both of its fields are 0, but `allocation_table_remove` looks at the address
only. So a removal of `NULL` can hit a free entry, and the counter goes down without an entry.

* `occupied_add`, `occupied_remove` — what the operations do to the entries in use
* `keepsCount_iff` — a step is right exactly when it does not remove a free entry
* `allocation_table_run_iff` — so is a whole run
-/

namespace Xylophone

open Infra

/-- A call of `allocation-table.c`. -/
inductive TableCall where
  | add (address size : Nat)
  | remove (address : Nat)
deriving DecidableEq, Repr

/-- The table after a call. -/
def AllocationTable.next (table : AllocationTable) : TableCall → AllocationTable
  | .add address size => allocationTableAdd table address size
  | .remove address => allocationTableRemove table address

/-- The entry as one that is in use: none, when both of its fields are 0. -/
def AllocationEntry.inUse (e : AllocationEntry) : Multiset AllocationEntry :=
  if e.address = 0 ∧ e.size = 0 then 0 else {e}

/-- The entries in use. -/
def AllocationTable.occupied (table : AllocationTable) : Multiset AllocationEntry :=
  total allocationMaxCount fun i => (table.data i).inUse

/-- The entry that `allocation_table_remove` clears. -/
def findEntry (table : AllocationTable) (address : Nat) : Option Nat :=
  (List.range allocationMaxCount).find? fun i => (table.data i).address = address

/-- What a call is to do to the entries in use: an addition is recorded where there is room, and a
removal takes out one entry with the address, or nothing changes. -/
def Records (table : AllocationTable) : TableCall → AllocationTable → Prop
  | .add address size, table' =>
    table'.occupied =
      if table.occupied.card < allocationMaxCount then ⟨address, size⟩ ::ₘ table.occupied
      else table.occupied
  | .remove address, table' =>
    (∃ e ∈ table.occupied, e.address = address ∧ table.occupied = e ::ₘ table'.occupied) ∨
      (∀ e ∈ table.occupied, e.address ≠ address) ∧ table' = table

/-- The call does what it is to do, and the counter is right afterwards. -/
def KeepsCount (table : AllocationTable) (call : TableCall) : Prop :=
  Records table call (table.next call) ∧
    (table.next call).size = (table.next call).occupied.card

/-- The call does not remove `NULL` while the first entry with that address is free. -/
def SparesFree (table : AllocationTable) : TableCall → Prop
  | .add _ _ => True
  | .remove address => address = 0 → ∀ i, findEntry table 0 = some i → (table.data i).size ≠ 0

variable {table : AllocationTable} {address size i n : Nat} {e : AllocationEntry}

/-! ## The entries in use -/

@[simp] theorem AllocationEntry.inUse_free : AllocationEntry.inUse ⟨0, 0⟩ = 0 := if_pos ⟨rfl, rfl⟩

theorem AllocationEntry.inUse_of (h : ¬(e.address = 0 ∧ e.size = 0)) : e.inUse = {e} := if_neg h

theorem occupied_init : allocationTableInit.occupied = 0 := by
  unfold AllocationTable.occupied
  exact total_zero fun _ _ => AllocationEntry.inUse_free

/-- One entry changes. -/
theorem occupied_update (table : AllocationTable) (hi : i < allocationMaxCount)
    (e : AllocationEntry) (n : Nat) :
    AllocationTable.occupied ⟨n, Function.update table.data i e⟩ + (table.data i).inUse =
      table.occupied + e.inUse := by
  have h := total_change (f := fun j => (table.data j).inUse)
    (g := fun j => (Function.update table.data i e j).inUse) hi fun j _ hji => by
      rw [Function.update_of_ne hji]
  rwa [Function.update_self] at h

theorem mem_occupied : e ∈ table.occupied ↔
    ∃ i, i < allocationMaxCount ∧ table.data i = e ∧ ¬(e.address = 0 ∧ e.size = 0) := by
  unfold AllocationTable.occupied total
  simp only [Multiset.mem_sum, Finset.mem_range]
  constructor
  · rintro ⟨i, hi, hmem⟩
    unfold AllocationEntry.inUse at hmem
    split at hmem
    · simp at hmem
    · next huse =>
      obtain rfl := Multiset.mem_singleton.mp hmem
      exact ⟨i, hi, rfl, huse⟩
  · rintro ⟨i, hi, rfl, huse⟩
    exact ⟨i, hi, by simp [AllocationEntry.inUse_of huse]⟩

/-- The number of the entries in use. -/
theorem card_occupied (table : AllocationTable) : table.occupied.card =
    ((Finset.range allocationMaxCount).filter fun i =>
      ¬((table.data i).address = 0 ∧ (table.data i).size = 0)).card := by
  unfold AllocationTable.occupied total
  rw [Multiset.card_sum, Finset.card_filter]
  refine Finset.sum_congr rfl fun i _ => ?_
  unfold AllocationEntry.inUse
  split <;> simp_all

theorem card_occupied_le (table : AllocationTable) : table.occupied.card ≤ allocationMaxCount := by
  rw [card_occupied]
  exact (Finset.card_filter_le _ _).trans (Finset.card_range _).le

/-- There is room exactly when an entry is free. -/
theorem findFreeEntry_eq_none :
    findFreeEntry table = none ↔ ¬table.occupied.card < allocationMaxCount := by
  have hall : table.occupied.card = allocationMaxCount ↔ ∀ i ∈ Finset.range allocationMaxCount,
      ¬((table.data i).address = 0 ∧ (table.data i).size = 0) := by
    rw [card_occupied, ← Finset.card_filter_eq_iff, Finset.card_range]
  have hle := card_occupied_le table
  rw [show (¬table.occupied.card < allocationMaxCount) ↔
    table.occupied.card = allocationMaxCount by omega, hall]
  unfold findFreeEntry
  simp

theorem findEntry_some (h : findEntry table address = some i) :
    i < allocationMaxCount ∧ (table.data i).address = address := by
  have hmem := List.mem_range.mp (List.mem_of_find?_eq_some h)
  have hdecide := List.find?_some h
  have hfound : (table.data i).address = address := of_decide_eq_true hdecide
  exact ⟨hmem, hfound⟩

theorem findEntry_none (h : findEntry table address = none) :
    ∀ e ∈ table.occupied, e.address ≠ address := by
  intro e he
  obtain ⟨i, hi, rfl, -⟩ := mem_occupied.mp he
  simpa using List.find?_eq_none.mp h i (List.mem_range.mpr hi)

/-! ## The calls -/

theorem next_add_none (hfree : findFreeEntry table = none) :
    table.next (.add address size) = table := by
  show allocationTableAdd table address size = _
  unfold allocationTableAdd
  rw [hfree]

theorem next_add_some (hfree : findFreeEntry table = some i) :
    table.next (.add address size) =
      ⟨wrap32 (table.size + 1), Function.update table.data i ⟨address, size⟩⟩ := by
  show allocationTableAdd table address size = _
  unfold allocationTableAdd
  rw [hfree]

theorem next_remove_none (hfind : findEntry table address = none) :
    table.next (.remove address) = table := by
  unfold findEntry at hfind
  show allocationTableRemove table address = _
  unfold allocationTableRemove
  rw [hfind]

theorem next_remove_some (hfind : findEntry table address = some i) :
    table.next (.remove address) =
      ⟨sub32 table.size 1, Function.update table.data i ⟨0, 0⟩⟩ := by
  unfold findEntry at hfind
  show allocationTableRemove table address = _
  unfold allocationTableRemove
  rw [hfind]

/-- **An addition is recorded where there is room.** -/
theorem keepsCount_add (hcount : table.size = table.occupied.card) (hsize : 0 < size) :
    KeepsCount table (.add address size) := by
  have hle := card_occupied_le table
  have huse : AllocationEntry.inUse ⟨address, size⟩ = {⟨address, size⟩} :=
    AllocationEntry.inUse_of fun h => absurd h.2 (Nat.ne_of_gt hsize)
  cases hfree : findFreeEntry table with
  | none =>
    rw [KeepsCount, next_add_none hfree]
    refine ⟨?_, hcount⟩
    exact (if_neg (findFreeEntry_eq_none.mp hfree)).symm
  | some i =>
    obtain ⟨hlt, hdata⟩ := findFreeEntry_some hfree
    have hroom : table.occupied.card < allocationMaxCount := by
      by_contra hfull
      rw [findFreeEntry_eq_none.mpr hfull] at hfree
      cases hfree
    have hupdate := occupied_update table hlt ⟨address, size⟩ (wrap32 (table.size + 1))
    rw [hdata, AllocationEntry.inUse_free, add_zero, huse,
      add_comm table.occupied, Multiset.singleton_add] at hupdate
    rw [KeepsCount, next_add_some hfree]
    refine ⟨?_, ?_⟩
    · rw [Records, hupdate, if_pos hroom]
    · rw [hupdate, Multiset.card_cons, ← hcount]
      unfold allocationMaxCount at hroom
      exact wrap32_of_lt (by omega)

/-- **A removal of an entry in use takes it out.** -/
theorem keepsCount_remove (hcount : table.size = table.occupied.card)
    (hfind : findEntry table address = some i)
    (huse : ¬((table.data i).address = 0 ∧ (table.data i).size = 0)) :
    KeepsCount table (.remove address) := by
  obtain ⟨hlt, haddress⟩ := findEntry_some hfind
  have hle := card_occupied_le table
  have hupdate := occupied_update table hlt ⟨0, 0⟩ (sub32 table.size 1)
  rw [AllocationEntry.inUse_free, add_zero, AllocationEntry.inUse_of huse, add_comm,
    Multiset.singleton_add] at hupdate
  have hcard := congrArg Multiset.card hupdate
  rw [Multiset.card_cons] at hcard
  rw [KeepsCount, next_remove_some hfind]
  refine ⟨Or.inl ⟨table.data i, mem_occupied.mpr ⟨i, hlt, rfl, huse⟩, haddress, hupdate.symm⟩, ?_⟩
  unfold allocationMaxCount at hle
  have hsub : sub32 table.size 1 = table.size - 1 := sub32_of_le (by omega) (by omega)
  simp only [hsub] at hcard ⊢
  omega

/-- A removal of an address that no entry has changes nothing. -/
theorem keepsCount_remove_none (hcount : table.size = table.occupied.card)
    (hfind : findEntry table address = none) : KeepsCount table (.remove address) := by
  rw [KeepsCount, next_remove_none hfind]
  exact ⟨Or.inr ⟨findEntry_none hfind, rfl⟩, hcount⟩

/-- **A removal of a free entry** leaves the entries and changes the counter. -/
theorem not_keepsCount_remove (hcount : table.size = table.occupied.card)
    (hfind : findEntry table address = some i) (hdata : table.data i = ⟨0, 0⟩) :
    ¬KeepsCount table (.remove address) := by
  rw [KeepsCount, next_remove_some hfind]
  rintro ⟨-, hsize⟩
  obtain ⟨hlt, -⟩ := findEntry_some hfind
  have hle := card_occupied_le table
  have hupdate := occupied_update table hlt ⟨0, 0⟩ (sub32 table.size 1)
  rw [hdata, AllocationEntry.inUse_free, add_zero, add_zero] at hupdate
  rw [hupdate, ← hcount] at hsize
  unfold allocationMaxCount at hle
  have hsub : sub32 table.size 1 = table.size := hsize
  rw [sub32] at hsub
  omega

/-- **A step is right exactly when it does not remove a free entry.** -/
theorem keepsCount_iff {call : TableCall} (hcount : table.size = table.occupied.card)
    (hsize : ∀ address size, call = .add address size → 0 < size) :
    KeepsCount table call ↔ SparesFree table call := by
  cases call with
  | add address size => exact iff_of_true (keepsCount_add hcount (hsize _ _ rfl)) trivial
  | remove address =>
    cases hfind : findEntry table address with
    | none =>
      refine iff_of_true (keepsCount_remove_none hcount hfind) ?_
      rintro rfl i hi
      rw [hfind] at hi
      cases hi
    | some i =>
      have haddress := (findEntry_some hfind).2
      by_cases huse : (table.data i).address = 0 ∧ (table.data i).size = 0
      · have hdata : table.data i = ⟨0, 0⟩ := by
          cases h : table.data i
          simp_all
        refine iff_of_false (not_keepsCount_remove hcount hfind hdata) fun hspares => ?_
        have hnull : address = 0 := haddress ▸ huse.1
        exact hspares hnull i (hnull ▸ hfind) huse.2
      · refine iff_of_true (keepsCount_remove hcount hfind huse) ?_
        rintro rfl j hj hzero
        obtain rfl := Option.some.inj (hfind.symm.trans hj)
        exact huse ⟨haddress, hzero⟩

/-! ## Runs -/

/-- **Runs of the table.** Every call from a new table on does what it is to do and leaves the
counter right, if and only if no call removes `NULL` while the first entry with that address is
free. -/
theorem allocation_table_run_iff {calls : List TableCall}
    (hsize : ∀ address size, .add address size ∈ calls → 0 < size) :
    EveryStep AllocationTable.next KeepsCount allocationTableInit calls ↔
      EveryStep AllocationTable.next SparesFree allocationTableInit calls := by
  refine everyStep_iff (I := fun table => table.size = table.occupied.card)
    (fun _ _ _ _ hkeeps => hkeeps.2) (fun table call hmem hcount => ?_) ?_
  · refine keepsCount_iff hcount fun address size hcall => hsize address size ?_
    rw [← hcall]
    exact hmem
  · rw [occupied_init]
    rfl

theorem allocation_table_run_iff_nullBlock :
    EveryStep AllocationTable.next KeepsCount allocationTableInit
        [.add 0 16, .remove 0, .add 0x1000 8, .remove 0x1000] ↔
      EveryStep AllocationTable.next SparesFree allocationTableInit
        [.add 0 16, .remove 0, .add 0x1000 8, .remove 0x1000] :=
  allocation_table_run_iff fun address size hmem => by
    simp only [List.mem_cons, TableCall.add.injEq, reduceCtorEq, false_or, List.not_mem_nil,
      or_false] at hmem
    omega

/-- **A removal of `NULL` from a new table.** The counter is 2³² - 1 then, and no entry is in
use. -/
theorem exists_wrong_count :
    ¬ ∀ calls : List TableCall, (∀ address size, .add address size ∈ calls → 0 < size) →
      EveryStep AllocationTable.next KeepsCount allocationTableInit calls := by
  intro hall
  have hstep := (hall [.remove 0] (by simp)).1
  have hfind : findEntry allocationTableInit 0 = some 0 := by
    unfold findEntry allocationMaxCount
    rw [List.range_eq_range', List.range'_succ, List.find?_cons_of_pos (by decide)]
  exact not_keepsCount_remove (by rw [occupied_init]; rfl) hfind rfl hstep

end Xylophone
