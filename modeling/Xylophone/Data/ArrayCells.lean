import Mathlib.Data.Multiset.AddSub
import Xylophone.Data.OrderedArray
import Xylophone.Infra.Run
import Xylophone.Infra.Word

/-!
# Runs of `ordered-array.c`

The ordered array with its cells: the binary search, and the loops that move the cells in place.
The items of the first `size` cells are those of the list model, `OrderedArray`.

* `searchCells_eq`, `shiftUp_apply`, `shiftDown_apply` — the loops
* `cellsInsert_items`, `cellsRemove_items` — the operations are those of the list model
* `ordered_array_run` — the order and the ledger of the items over every run
-/

namespace Xylophone

open Infra

/-! ## The array and its operations -/

/-- `ordered_array_t`, without the comparison handle. The items are words of 32 bits. -/
structure ArrayCells where
  array : Nat → Nat
  size : Nat
  maxSize : Nat

/-- The cells after the first `bytes` bytes of memory are set to 0. -/
def clearBytes (bytes : Nat) (array : Nat → Nat) : Nat → Nat := fun i =>
  array i / 256 ^ min 4 (bytes - 4 * i) * 256 ^ min 4 (bytes - 4 * i)

/-- `ordered_array_init` and `ordered_array_place`. The memory holds `array`. -/
def cellsInit (array : Nat → Nat) (maxSize : Nat) : ArrayCells where
  array := clearBytes (wrap32 (maxSize * 4)) array
  size := 0
  maxSize := maxSize

/-- The binary search of `ordered_array_insert`. Its guard keeps the indices from wrapping. -/
def searchCells (isLessThan : Nat → Nat → Bool) (array : Nat → Nat) (item left right : Nat) : Nat :=
  if left < right then
    let mid := left + (right - left) / 2
    if isLessThan (array mid) item then searchCells isLessThan array item (mid + 1) right
    else searchCells isLessThan array item left mid
  else left
termination_by right - left

/-- The loop of `ordered_array_insert` that moves the cells from `left` on up, from `i` down. -/
def shiftUp (left : Nat) : (i : Nat) → (Nat → Nat) → Nat → Nat
  | 0, array => array
  | i + 1, array =>
    if left < i + 1 then shiftUp left i (Function.update array (i + 1) (array i)) else array

/-- The loop of `ordered_array_remove` that moves the cells behind `i` down, up to `last`. -/
def shiftDown (last i : Nat) (array : Nat → Nat) : Nat → Nat :=
  if i < last then shiftDown last (i + 1) (Function.update array i (array (i + 1))) else array
termination_by last - i

/-- `ordered_array_insert`. -/
def cellsInsert (isLessThan : Nat → Nat → Bool) (oa : ArrayCells) (item : Nat) :
    ArrayCells × Bool :=
  if oa.maxSize ≤ oa.size then (oa, false)
  else
    let left := searchCells isLessThan oa.array item 0 oa.size
    ({ oa with
      array := Function.update (shiftUp left oa.size oa.array) left item
      size := wrap32 (oa.size + 1) }, true)

/-- `ordered_array_remove`. -/
def cellsRemove (oa : ArrayCells) (index : Nat) : ArrayCells :=
  if oa.size ≤ index then oa
  else { oa with array := shiftDown (sub32 oa.size 1) index oa.array, size := sub32 oa.size 1 }

/-- `ordered_array_clear`. It sets `max_size` bytes to 0, a quarter of the cells. -/
def cellsClear (oa : ArrayCells) : ArrayCells :=
  { oa with array := clearBytes oa.maxSize oa.array, size := 0 }

/-- The items of the array. -/
def ArrayCells.items (oa : ArrayCells) : List Nat := (List.range oa.size).map oa.array

/-- The array of the list model. -/
def ArrayCells.list (oa : ArrayCells) : OrderedArray Nat := ⟨oa.items, oa.maxSize⟩

/-! ## The loops -/

section Loops

variable {isLessThan : Nat → Nat → Bool} {array : Nat → Nat} {oa : ArrayCells}
  {item left right fuel i k last : Nat}

@[simp] theorem ArrayCells.length_items : oa.items.length = oa.size := by simp [ArrayCells.items]

@[simp] theorem ArrayCells.getElem_items (h : i < oa.items.length) : oa.items[i] = oa.array i := by
  simp [ArrayCells.items]

/-- **The binary search** is that of the list model. -/
theorem searchCells_eq (hright : right ≤ oa.size) (hfuel : right ≤ left + fuel) :
    searchCells isLessThan oa.array item left right =
      lowerBound isLessThan oa.items item fuel left right := by
  induction fuel generalizing left right with
  | zero =>
    unfold searchCells lowerBound
    rw [if_neg (by omega)]
  | succ fuel ih =>
    unfold searchCells lowerBound
    split
    · next hlt =>
      have hmid : left + (right - left) / 2 < oa.items.length := by
        rw [ArrayCells.length_items]
        omega
      simp only [List.getD_eq_getElem _ _ hmid, ArrayCells.getElem_items]
      split
      · exact ih hright (by omega)
      · exact ih (by omega) (by omega)
    · rfl

/-- **The loop of an insertion** moves the cells from `left` on one place up. -/
theorem shiftUp_apply : shiftUp left i array k =
    if left < k ∧ k ≤ i then array (k - 1) else array k := by
  induction i generalizing array with
  | zero =>
    rw [if_neg (by omega)]
    rfl
  | succ i ih =>
    unfold shiftUp
    split
    · rw [ih]
      by_cases hk : k = i + 1
      · subst hk
        rw [if_neg (by omega), if_pos (by omega)]
        simp
      · simp only [Function.update_of_ne hk]
        by_cases hmoved : left < k ∧ k ≤ i
        · rw [if_pos hmoved, if_pos (by omega), Function.update_of_ne (by omega)]
        · rw [if_neg hmoved, if_neg (by omega)]
    · rw [if_neg (by omega)]

/-- **The loop of a removal** moves the cells behind `i` one place down. -/
theorem shiftDown_apply : shiftDown last i array k =
    if i ≤ k ∧ k < last then array (k + 1) else array k := by
  induction h : last - i generalizing i array with
  | zero =>
    unfold shiftDown
    rw [if_neg (by omega), if_neg (by omega)]
  | succ n ih =>
    unfold shiftDown
    rw [if_pos (by omega), ih (by omega)]
    by_cases hk : k = i
    · subst hk
      rw [if_neg (by omega), if_pos (by omega)]
      simp
    · by_cases hmoved : i ≤ k ∧ k < last
      · rw [if_pos (by omega), if_pos hmoved, Function.update_of_ne (by omega)]
      · rw [if_neg (by omega), if_neg hmoved, Function.update_of_ne hk]

end Loops

/-! ## The operations -/

section Operations

variable {isLessThan : Nat → Nat → Bool} {oa : ArrayCells} {item index : Nat}

/-- The list with an item put in at `left`, place by place. -/
theorem getElem_take_cons_drop {l : List Nat} {left k : Nat} (hleft : left ≤ l.length)
    (hk : k < (l.take left ++ item :: l.drop left).length) :
    (l.take left ++ item :: l.drop left)[k] =
      if k < left then l.getD k 0 else if k = left then item else l.getD (k - 1) 0 := by
  have hlen : (l.take left).length = left := List.length_take_of_le hleft
  rw [List.length_append, hlen, List.length_cons, List.length_drop] at hk
  rw [List.getElem_append]
  split
  · next hbefore =>
    rw [hlen] at hbefore
    rw [if_pos hbefore, List.getElem_take, List.getD_eq_getElem _ _ (by omega)]
  · next hbefore =>
    rw [hlen] at hbefore
    simp only [hlen, if_neg hbefore]
    obtain ⟨j, rfl⟩ : ∃ j, k = left + j := ⟨k - left, by omega⟩
    cases j with
    | zero => simp
    | succ j =>
      rw [if_neg (by omega), List.getD_eq_getElem _ _ (by omega)]
      simp [Nat.add_succ_sub_one]

/-- The items after the cells from `left` on are moved up and the item is stored at `left`. -/
theorem items_insert {left maxSize : Nat} (hleft : left ≤ oa.size)
    (hsize : oa.size + 1 < 0x100000000) :
    (⟨Function.update (shiftUp left oa.size oa.array) left item, wrap32 (oa.size + 1), maxSize⟩ :
      ArrayCells).items = oa.items.take left ++ item :: oa.items.drop left := by
  have hnew : wrap32 (oa.size + 1) = oa.size + 1 := wrap32_of_lt hsize
  refine List.ext_getElem ?_ fun k hk hk' => ?_
  · simp [hnew]
    omega
  · rw [ArrayCells.length_items] at hk
    simp only [hnew] at hk
    rw [getElem_take_cons_drop (by rw [ArrayCells.length_items]; exact hleft),
      ArrayCells.getElem_items]
    by_cases hkleft : k = left
    · subst hkleft
      simp
    · simp only [Function.update_of_ne hkleft, shiftUp_apply]
      by_cases hlt : k < left
      · rw [if_neg (by omega), if_pos hlt, List.getD_eq_getElem _ _ (by simp; omega),
          ArrayCells.getElem_items]
      · rw [if_pos (by omega), if_neg hlt, if_neg hkleft,
          List.getD_eq_getElem _ _ (by simp; omega), ArrayCells.getElem_items]

/-- **An insertion** is that of the list model. -/
theorem cellsInsert_items (hmax : oa.maxSize < 0x100000000) :
    (cellsInsert isLessThan oa item).1.list = (orderedArrayInsert isLessThan oa.list item).1 ∧
      (cellsInsert isLessThan oa item).2 = (orderedArrayInsert isLessThan oa.list item).2 := by
  have hsize : orderedArraySize oa.list = oa.size := ArrayCells.length_items
  unfold cellsInsert orderedArrayInsert
  rw [hsize]
  by_cases hfull : oa.maxSize ≤ oa.size
  · rw [if_pos hfull, if_pos (show oa.list.maxSize ≤ oa.size from hfull)]
    exact ⟨rfl, rfl⟩
  · rw [if_neg hfull, if_neg (show ¬oa.list.maxSize ≤ oa.size from hfull)]
    refine ⟨?_, rfl⟩
    have hsearch : searchCells isLessThan oa.array item 0 oa.size =
        lowerBound isLessThan oa.items item oa.items.length 0 oa.items.length := by
      rw [ArrayCells.length_items]
      exact searchCells_eq (Nat.le_refl _) (by omega)
    have hle := lowerBound_le isLessThan oa.items item oa.items.length 0 oa.items.length
      (Nat.zero_le _)
    rw [ArrayCells.length_items] at hsearch hle
    rw [ArrayCells.list, OrderedArray.mk.injEq]
    refine ⟨?_, rfl⟩
    rw [hsearch]
    simp only [ArrayCells.list, ArrayCells.length_items]
    exact items_insert hle (by omega)

/-- **A removal** is that of the list model. -/
theorem cellsRemove_items (hsize : oa.size < 0x100000000) :
    (cellsRemove oa index).items = oa.items.eraseIdx index := by
  unfold cellsRemove
  split
  · next hle =>
    rw [List.eraseIdx_of_length_le (by simpa using hle)]
  · next hlt =>
    have hsub : sub32 oa.size 1 = oa.size - 1 := sub32_of_le (by omega) hsize
    refine List.ext_getElem ?_ fun k hk hk' => ?_
    · rw [List.length_eraseIdx_of_lt (by simp; omega)]
      simp [hsub]
    · rw [ArrayCells.length_items] at hk
      simp only [hsub] at hk
      rw [ArrayCells.getElem_items, List.getElem_eraseIdx]
      simp only [shiftDown_apply, hsub]
      by_cases hbefore : k < index
      · rw [if_neg (by omega), dif_pos hbefore, ArrayCells.getElem_items]
      · rw [if_pos (by omega), dif_neg hbefore, ArrayCells.getElem_items]

end Operations

/-! ## Runs -/

/-- An array in use: the comparison, as the memory stands, the array, the items that were put in
and those that were taken out. -/
structure ArrayRun where
  isLessThan : Nat → Nat → Bool
  oa : ArrayCells
  inserted : Multiset Nat
  removed : Multiset Nat

/-- What may happen to an array. Between the calls the memory that the comparison reads may
change. -/
inductive ArrayCall where
  | insert (item : Nat)
  | remove (index : Nat)
  | clear
  | write (isLessThan : Nat → Nat → Bool)

/-- A new array. -/
def ArrayRun.init (isLessThan : Nat → Nat → Bool) (array : Nat → Nat) (maxSize : Nat) :
    ArrayRun where
  isLessThan := isLessThan
  oa := cellsInit array maxSize
  inserted := 0
  removed := 0

/-- The next state. -/
def ArrayRun.next (s : ArrayRun) : ArrayCall → ArrayRun
  | .insert item =>
    let r := cellsInsert s.isLessThan s.oa item
    { s with oa := r.1, inserted := if r.2 then item ::ₘ s.inserted else s.inserted }
  | .remove index =>
    { s with
      oa := cellsRemove s.oa index
      removed := match s.oa.items[index]? with
        | none => s.removed
        | some item => item ::ₘ s.removed }
  | .clear => { s with oa := cellsClear s.oa, removed := (s.oa.items : Multiset Nat) + s.removed }
  | .write isLessThan => { s with isLessThan := isLessThan }

/-- The keys of the stored items are not changed, and the comparison stays a strict weak order. -/
def ArrayRun.Allows (s : ArrayRun) : ArrayCall → Prop
  | .write isLessThan => IsStrictWeak isLessThan ∧
      ∀ a ∈ s.oa.items, ∀ b ∈ s.oa.items, isLessThan a b = s.isLessThan a b
  | _ => True

/-- The items are in order and in the ledger, and there are no more than there is room for. -/
structure ArrayRun.Sound (maxSize : Nat) (s : ArrayRun) : Prop where
  strictWeak : IsStrictWeak s.isLessThan
  sorted : SortedBy s.isLessThan s.oa.items
  ledger : (s.oa.items : Multiset Nat) + s.removed = s.inserted
  maxSize_eq : s.oa.maxSize = maxSize
  size_le : s.oa.size ≤ maxSize

/-- What a call does to the items. -/
def ArrayRun.Does (s : ArrayRun) : ArrayCall → Prop
  | .insert item =>
    if s.oa.size = s.oa.maxSize then cellsInsert s.isLessThan s.oa item = (s.oa, false)
    else ∃ before after, s.oa.items = before ++ after ∧
      (cellsInsert s.isLessThan s.oa item).1.items = before ++ item :: after ∧
      (cellsInsert s.isLessThan s.oa item).2 = true ∧
      (∀ a ∈ before, s.isLessThan a item = true) ∧ ∀ b ∈ after, s.isLessThan b item = false
  | .remove index =>
    if s.oa.size ≤ index then cellsRemove s.oa index = s.oa
    else (cellsRemove s.oa index).items = s.oa.items.eraseIdx index
  | .clear => (cellsClear s.oa).items = []
  | .write _ => True

section Runs

variable {s : ArrayRun} {isLessThan : Nat → Nat → Bool} {maxSize item index : Nat}

theorem ArrayRun.sound_init (hw : IsStrictWeak isLessThan) (array : Nat → Nat) (maxSize : Nat) :
    (ArrayRun.init isLessThan array maxSize).Sound maxSize where
  strictWeak := hw
  sorted := List.Pairwise.nil
  ledger := rfl
  maxSize_eq := rfl
  size_le := Nat.zero_le _

/-- What an insertion does, and what it leaves. -/
theorem ArrayRun.Sound.insert (h : s.Sound maxSize) (hmax : maxSize < 0x100000000) (item : Nat) :
    s.Does (.insert item) ∧ (s.next (.insert item)).Sound maxSize := by
  have hle := h.size_le
  have heq := h.maxSize_eq
  by_cases hfull : s.oa.size = s.oa.maxSize
  · have hinsert : cellsInsert s.isLessThan s.oa item = (s.oa, false) := by
      unfold cellsInsert
      exact if_pos hfull.ge
    have hnext : s.next (.insert item) = s := by
      simp [ArrayRun.next, hinsert]
    rw [hnext]
    exact ⟨(if_pos hfull).mpr hinsert, h⟩
  · obtain ⟨hlist, hflag⟩ :=
      @cellsInsert_items s.isLessThan s.oa item (by omega)
    have hroom : s.oa.list.array.length < s.oa.list.maxSize := by
      show s.oa.items.length < s.oa.maxSize
      rw [ArrayCells.length_items]
      omega
    have hput : (cellsInsert s.isLessThan s.oa item).2 = true := by
      rw [hflag, orderedArrayInsert]
      exact congrArg Prod.snd (if_neg (Nat.not_le.mpr hroom))
    have hitems : (cellsInsert s.isLessThan s.oa item).1.items =
        (orderedArrayInsert s.isLessThan s.oa.list item).1.array := by rw [← hlist]; rfl
    have hmaxSize : (cellsInsert s.isLessThan s.oa item).1.maxSize = s.oa.maxSize := by
      have hkeep := congrArg OrderedArray.maxSize hlist
      rwa [orderedArrayInsert_maxSize] at hkeep
    have hperm := @orderedArrayInsert_perm _ s.isLessThan _ item hroom
    have hlength := hperm.length_eq
    rw [← hitems, ArrayCells.length_items, List.length_cons] at hlength
    obtain ⟨before, after, hsplit, hinsert, hbefore, hafter⟩ :=
      @orderedArrayInsert_split _ _ _ item h.strictWeak h.sorted hroom
    refine ⟨(if_neg hfull).mpr ⟨before, after, hsplit, hitems.trans hinsert, hput, hbefore, hafter⟩,
      h.strictWeak, ?_, ?_, hmaxSize.trans heq, ?_⟩
    · show SortedBy s.isLessThan (cellsInsert s.isLessThan s.oa item).1.items
      rw [hitems]
      exact orderedArrayInsert_sorted h.strictWeak h.sorted
    · simp only [ArrayRun.next, hput, if_true, hitems]
      rw [Multiset.coe_eq_coe.mpr hperm, ← Multiset.cons_coe, Multiset.cons_add]
      exact congrArg (item ::ₘ ·) h.ledger
    · have hlen : s.oa.list.array.length = s.oa.size := ArrayCells.length_items
      show (cellsInsert s.isLessThan s.oa item).1.size ≤ maxSize
      omega

/-- What a removal does, and what it leaves. -/
theorem ArrayRun.Sound.remove (h : s.Sound maxSize) (hmax : maxSize < 0x100000000) (index : Nat) :
    s.Does (.remove index) ∧ (s.next (.remove index)).Sound maxSize := by
  have hle := h.size_le
  have hitems : (cellsRemove s.oa index).items = s.oa.items.eraseIdx index :=
    cellsRemove_items (by omega)
  have hmaxSize : (cellsRemove s.oa index).maxSize = s.oa.maxSize := by
    unfold cellsRemove
    split <;> rfl
  have hsize : (cellsRemove s.oa index).size ≤ s.oa.size := by
    have hlength := List.length_eraseIdx_le s.oa.items index
    rwa [← hitems, ArrayCells.length_items, ArrayCells.length_items] at hlength
  refine ⟨?_, h.strictWeak, ?_, ?_, hmaxSize.trans h.maxSize_eq, hsize.trans hle⟩
  · by_cases hout : s.oa.size ≤ index
    · exact (if_pos hout).mpr (if_pos hout)
    · exact (if_neg hout).mpr hitems
  · show SortedBy s.isLessThan (cellsRemove s.oa index).items
    rw [hitems]
    exact h.sorted.sublist (List.eraseIdx_sublist _ _)
  · have hledger := h.ledger
    simp only [ArrayRun.next, hitems]
    cases hget : s.oa.items[index]? with
    | none =>
      rw [List.eraseIdx_of_length_le (List.getElem?_eq_none_iff.mp hget)]
      exact hledger
    | some item =>
      obtain ⟨hlt, rfl⟩ := List.getElem?_eq_some_iff.mp hget
      rw [← hledger, Multiset.add_cons, ← Multiset.cons_add, Multiset.cons_coe]
      congr 1
      exact Multiset.coe_eq_coe.mpr (List.getElem_cons_eraseIdx_perm hlt)

theorem ArrayRun.Sound.clear (h : s.Sound maxSize) : (s.next .clear).Sound maxSize where
  strictWeak := h.strictWeak
  sorted := List.Pairwise.nil
  ledger := (Multiset.zero_add _).trans h.ledger
  maxSize_eq := h.maxSize_eq
  size_le := Nat.zero_le _

theorem ArrayRun.Sound.write (h : s.Sound maxSize) (hallows : s.Allows (.write isLessThan)) :
    (s.next (.write isLessThan)).Sound maxSize where
  strictWeak := hallows.1
  sorted := h.sorted.imp_of_mem fun ha hb hab => (hallows.2 _ hb _ ha).trans hab
  ledger := h.ledger
  maxSize_eq := h.maxSize_eq
  size_le := h.size_le

theorem ArrayRun.Sound.step (h : s.Sound maxSize) (hmax : maxSize < 0x100000000) {call : ArrayCall}
    (hallows : s.Allows call) : s.Does call ∧ (s.next call).Sound maxSize := by
  cases call with
  | insert item => exact h.insert hmax item
  | remove index => exact h.remove hmax index
  | clear => exact ⟨rfl, h.clear⟩
  | write isLessThan => exact ⟨trivial, h.write hallows⟩

/-- **Runs of the ordered array.** In every run from a new array, the items are in order and are
those put in less those taken out, there are never more than `max_size`, and every call does what
it is to do. -/
theorem ordered_array_run (hw : IsStrictWeak isLessThan) (hmax : maxSize < 0x100000000)
    (array : Nat → Nat) {calls : List ArrayCall}
    (hallows : EveryStep ArrayRun.next ArrayRun.Allows (ArrayRun.init isLessThan array maxSize)
      calls) :
    EveryStep ArrayRun.next
      (fun s call => s.Sound maxSize ∧ s.Does call ∧ (s.next call).Sound maxSize)
      (ArrayRun.init isLessThan array maxSize) calls :=
  hallows.imp (fun _ _ _ h ha => (h.step hmax ha).2) (fun _ _ _ h ha => ⟨h, h.step hmax ha⟩)
    (ArrayRun.sound_init hw array maxSize)

theorem ordered_array_run_threeItems :
    EveryStep ArrayRun.next (fun s call => s.Sound 2 ∧ s.Does call ∧ (s.next call).Sound 2)
      (ArrayRun.init (fun a b => decide (a < b)) (fun _ => 7) 2)
      [.insert 5, .insert 3, .insert 4, .remove 0, .clear] :=
  ordered_array_run (isStrictWeak_key id) (by decide) _
    ⟨trivial, trivial, trivial, trivial, trivial, trivial⟩

end Runs

end Xylophone
