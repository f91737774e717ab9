import Mathlib.Data.List.GetD
import Mathlib.Data.List.Nodup

/-!
# `ordered-array.c`

An array of items kept in the order of a comparison handle. The handle is a parameter of each
function and not a field: the heap compares two headers through the memory they stand in, and
that memory changes between two calls.

The cells from `size` on are never read, so `array` holds the first `size` cells only.

* `lowerBound_spec` — the binary search splits a sorted array at the item
* `orderedArrayInsert_split` — where an item is put
* `orderedArrayInsert_sorted` — inserting keeps the order
* `orderedArrayInsert_perm` — inserting adds the item and nothing else, sorted or not
-/

namespace Xylophone

variable {α : Type}

/-- `ordered_array_t`, without the comparison handle. -/
structure OrderedArray (α : Type) where
  array : List α
  maxSize : Nat

/-- `ordered_array_init` followed by `ordered_array_place`: no item, room for `maxSize`. -/
def orderedArrayInit (maxSize : Nat) : OrderedArray α := { array := [], maxSize := maxSize }

def orderedArraySize (oa : OrderedArray α) : Nat := oa.array.length

def orderedArrayGet [Inhabited α] (oa : OrderedArray α) (index : Nat) : α :=
  oa.array.getD index default

/--
The binary search of `ordered_array_insert`. The fuel bounds the number of rounds; every round
shrinks `right - left`, so `right - left` rounds are enough.
-/
def lowerBound (isLessThan : α → α → Bool) (array : List α) (item : α) :
    (fuel left right : Nat) → Nat
  | 0, left, _ => left
  | fuel + 1, left, right =>
    if left < right then
      let mid := left + (right - left) / 2
      if isLessThan (array.getD mid item) item then
        lowerBound isLessThan array item fuel (mid + 1) right
      else lowerBound isLessThan array item fuel left mid
    else left

/-- `ordered_array_insert`. The flag is the value returned: whether there was room. -/
def orderedArrayInsert (isLessThan : α → α → Bool) (oa : OrderedArray α) (item : α) :
    OrderedArray α × Bool :=
  if oa.maxSize ≤ orderedArraySize oa then (oa, false)
  else
    let left := lowerBound isLessThan oa.array item oa.array.length 0 oa.array.length
    -- the cells from `left` on move one place up, and the item is stored at `left`
    ({ oa with array := oa.array.take left ++ item :: oa.array.drop left }, true)

/-- `ordered_array_remove`. -/
def orderedArrayRemove (oa : OrderedArray α) (index : Nat) : OrderedArray α :=
  if orderedArraySize oa ≤ index then oa else { oa with array := oa.array.eraseIdx index }

/-- `ordered_array_clear`. -/
def orderedArrayClear (oa : OrderedArray α) : OrderedArray α := { oa with array := [] }

/-! ## The binary search -/

/-- The comparison is a strict weak order: asymmetric, and negatively transitive. -/
structure IsStrictWeak (isLessThan : α → α → Bool) : Prop where
  asymm : ∀ {a b}, isLessThan a b = true → isLessThan b a = false
  split : ∀ {a c} (b), isLessThan a c = true → isLessThan a b = true ∨ isLessThan b c = true

/-- No item is less than one that stands before it. -/
def SortedBy (isLessThan : α → α → Bool) (l : List α) : Prop :=
  l.Pairwise (fun a b => isLessThan b a = false)

/-- Comparing two items by a number is a strict weak order. -/
theorem isStrictWeak_key (key : α → Nat) : IsStrictWeak (fun a b => decide (key a < key b)) where
  asymm := by
    intro a b h
    simp only [decide_eq_true_eq] at h
    simp only [decide_eq_false_iff_not]
    omega
  split := by
    intro a c b h
    simp only [decide_eq_true_eq] at *
    omega

theorem sortedBy_key {key : α → Nat} {l : List α} :
    SortedBy (fun a b => decide (key a < key b)) l ↔ l.Pairwise (fun a b => key a ≤ key b) := by
  simp [SortedBy]

theorem SortedBy.getElem {isLessThan : α → α → Bool} {l : List α} (h : SortedBy isLessThan l)
    {i j : Nat} (hi : i < l.length) (hj : j < l.length) (hij : i < j) :
    isLessThan l[j] l[i] = false :=
  List.pairwise_iff_getElem.mp h i j hi hj hij

theorem lowerBound_le (isLessThan : α → α → Bool) (array : List α) (item : α) :
    ∀ (fuel left right : Nat), left ≤ right → lowerBound isLessThan array item fuel left right ≤ right
  | 0, _, _, h => h
  | fuel + 1, left, right, h => by
    rw [lowerBound]
    split
    · next hlt =>
      simp only []
      split
      · exact lowerBound_le isLessThan array item fuel _ _ (by omega)
      · exact Nat.le_trans (lowerBound_le isLessThan array item fuel _ _ (by omega)) (by omega)
    · exact h

/--
The search narrows `[left, right)` and keeps two facts: the items before `left` are less than
the item, and those from `right` on are not.
-/
theorem lowerBound_loop {isLessThan : α → α → Bool} (hw : IsStrictWeak isLessThan)
    {array : List α} (hs : SortedBy isLessThan array) (item : α) :
    ∀ (fuel left right : Nat), right - left ≤ fuel → left ≤ right → right ≤ array.length →
      (∀ i (h : i < array.length), i < left → isLessThan array[i] item = true) →
      (∀ i (h : i < array.length), right ≤ i → isLessThan array[i] item = false) →
      ∀ i (h : i < array.length),
        (i < lowerBound isLessThan array item fuel left right → isLessThan array[i] item = true) ∧
        (lowerBound isLessThan array item fuel left right ≤ i → isLessThan array[i] item = false) := by
  intro fuel
  induction fuel with
  | zero =>
    intro left right hfuel hle _ hl hr i hi
    obtain rfl : left = right := by omega
    exact ⟨hl i hi, hr i hi⟩
  | succ fuel ih =>
    intro left right hfuel hle hlen hl hr
    rw [lowerBound]
    split
    · next hlt =>
      simp only []
      have hmid : left + (right - left) / 2 < array.length := by omega
      rw [List.getD_eq_getElem _ _ hmid]
      split
      · next hless =>
        refine ih _ _ (by omega) (by omega) hlen ?_ hr
        intro i hi hile
        rcases Nat.lt_or_ge i (left + (right - left) / 2) with him | him
        · rcases hw.split array[i] hless with hbad | hgood
          · rw [hs.getElem hi hmid him] at hbad
            cases hbad
          · exact hgood
        · obtain rfl : i = left + (right - left) / 2 := by omega
          exact hless
      · next hnot =>
        refine ih _ _ (by omega) (by omega) (by omega) hl ?_
        intro i hi hge
        rcases Nat.lt_or_ge (left + (right - left) / 2) i with him | him
        · cases hq : isLessThan array[i] item with
          | false => rfl
          | true =>
            rcases hw.split array[left + (right - left) / 2] hq with hbad | hbad
            · rw [hs.getElem hmid hi him] at hbad
              cases hbad
            · exact absurd hbad hnot
        · obtain rfl : i = left + (right - left) / 2 := by omega
          simpa using hnot
    · next hnlt =>
      obtain rfl : left = right := by omega
      exact fun i hi => ⟨hl i hi, hr i hi⟩

/-- On a sorted array the search returns the place of the first item not less than `item`. -/
theorem lowerBound_spec {isLessThan : α → α → Bool} (hw : IsStrictWeak isLessThan)
    {array : List α} (hs : SortedBy isLessThan array) (item : α) {i : Nat} (hi : i < array.length) :
    (i < lowerBound isLessThan array item array.length 0 array.length ↔
      isLessThan array[i] item = true) := by
  have h := lowerBound_loop hw hs item array.length 0 array.length (by omega) (by omega)
    (Nat.le_refl _) (by omega) (by omega) i hi
  constructor
  · exact h.1
  · intro hless
    rcases Nat.lt_or_ge i (lowerBound isLessThan array item array.length 0 array.length)
      with hlt | hge
    · exact hlt
    · rw [h.2 hge] at hless
      cases hless

/-! ## Insertion -/

variable {isLessThan : α → α → Bool} {oa : OrderedArray α} {item : α}

theorem orderedArrayInsert_maxSize :
    (orderedArrayInsert isLessThan oa item).1.maxSize = oa.maxSize := by
  unfold orderedArrayInsert
  split <;> rfl

theorem orderedArrayInsert_init {maxSize : Nat} (h : 0 < maxSize) :
    (orderedArrayInsert isLessThan (orderedArrayInit maxSize) item).1.array = [item] := by
  unfold orderedArrayInsert
  rw [if_neg (show ¬ (orderedArrayInit maxSize).maxSize ≤ orderedArraySize
    (@orderedArrayInit α maxSize) from Nat.not_le.mpr h)]
  rfl

/-- A full array is left alone. -/
theorem orderedArrayInsert_full (h : oa.maxSize ≤ oa.array.length) :
    (orderedArrayInsert isLessThan oa item).1 = oa := by
  unfold orderedArrayInsert
  rw [if_pos (show oa.maxSize ≤ orderedArraySize oa from h)]

/-- With room for it the item is added and nothing else changes, whatever the order was. -/
theorem orderedArrayInsert_perm (h : oa.array.length < oa.maxSize) :
    (orderedArrayInsert isLessThan oa item).1.array.Perm (item :: oa.array) := by
  unfold orderedArrayInsert
  rw [if_neg (show ¬ oa.maxSize ≤ orderedArraySize oa from Nat.not_le.mpr h)]
  refine List.perm_middle.trans ?_
  rw [List.take_append_drop]

theorem mem_orderedArrayInsert {x : α} (h : x ∈ (orderedArrayInsert isLessThan oa item).1.array) :
    x = item ∨ x ∈ oa.array := by
  rcases Nat.lt_or_ge oa.array.length oa.maxSize with hroom | hfull
  · simpa using (orderedArrayInsert_perm hroom).mem_iff.mp h
  · rw [orderedArrayInsert_full hfull] at h
    exact Or.inr h

theorem mem_orderedArrayInsert_of_mem {x : α} (h : x ∈ oa.array) :
    x ∈ (orderedArrayInsert isLessThan oa item).1.array := by
  rcases Nat.lt_or_ge oa.array.length oa.maxSize with hroom | hfull
  · exact (orderedArrayInsert_perm hroom).mem_iff.mpr (List.mem_cons_of_mem _ h)
  · rw [orderedArrayInsert_full hfull]
    exact h

theorem orderedArrayInsert_nodup (hnd : oa.array.Nodup) (hnew : item ∉ oa.array) :
    (orderedArrayInsert isLessThan oa item).1.array.Nodup := by
  rcases Nat.lt_or_ge oa.array.length oa.maxSize with hroom | hfull
  · exact (orderedArrayInsert_perm hroom).nodup_iff.mpr (List.nodup_cons.mpr ⟨hnew, hnd⟩)
  · rw [orderedArrayInsert_full hfull]
    exact hnd

/-- Where there is room the item is put before the items that are not less than it. -/
theorem orderedArrayInsert_split (hw : IsStrictWeak isLessThan) (hs : SortedBy isLessThan oa.array)
    (hroom : oa.array.length < oa.maxSize) :
    ∃ before after, oa.array = before ++ after ∧
      (orderedArrayInsert isLessThan oa item).1.array = before ++ item :: after ∧
      (∀ a ∈ before, isLessThan a item = true) ∧ ∀ b ∈ after, isLessThan b item = false := by
  unfold orderedArrayInsert
  rw [if_neg (show ¬ oa.maxSize ≤ orderedArraySize oa from Nat.not_le.mpr hroom)]
  have hspec := fun {i : Nat} (hi : i < oa.array.length) => lowerBound_spec hw hs item hi
  simp only []
  generalize lowerBound isLessThan oa.array item oa.array.length 0 oa.array.length = left at hspec
  refine ⟨oa.array.take left, oa.array.drop left, (List.take_append_drop ..).symm, rfl, ?_, ?_⟩
  · intro a ha
    obtain ⟨i, hi, rfl⟩ := List.mem_iff_getElem.mp ha
    rw [List.length_take] at hi
    rw [List.getElem_take]
    exact (hspec (by omega)).mp (by omega)
  · intro b hb
    obtain ⟨i, hi, rfl⟩ := List.mem_iff_getElem.mp hb
    rw [List.length_drop] at hi
    rw [List.getElem_drop]
    have hlt : left + i < oa.array.length := by omega
    cases hq : isLessThan oa.array[left + i] item with
    | false => rfl
    | true => exact absurd ((hspec hlt).mpr hq) (by omega)

/-- **Inserting into a sorted array keeps it sorted.** -/
theorem orderedArrayInsert_sorted (hw : IsStrictWeak isLessThan)
    (hs : SortedBy isLessThan oa.array) :
    SortedBy isLessThan (orderedArrayInsert isLessThan oa item).1.array := by
  rcases Nat.lt_or_ge oa.array.length oa.maxSize with hroom | hfull
  · obtain ⟨before, after, hsplit, hinsert, hbefore, hafter⟩ := orderedArrayInsert_split hw hs hroom
    rw [hsplit] at hs
    rw [hinsert]
    obtain ⟨h1, h2, h3⟩ := List.pairwise_append.mp hs
    refine List.pairwise_append.mpr ⟨h1, List.pairwise_cons.mpr ⟨hafter, h2⟩, ?_⟩
    intro a ha b hb
    rcases List.mem_cons.mp hb with rfl | hb
    · exact hw.asymm (hbefore a ha)
    · exact h3 a ha b hb
  · rwa [orderedArrayInsert_full hfull]

/-! ## Removal -/

theorem orderedArrayRemove_array (oa : OrderedArray α) (index : Nat) :
    (orderedArrayRemove oa index).array = oa.array.eraseIdx index := by
  unfold orderedArrayRemove
  split
  · next h => rw [List.eraseIdx_of_length_le h]
  · rfl

/-- When no item occurs twice, removing the item at `index` takes out that item only. -/
theorem mem_orderedArrayRemove {oa : OrderedArray α} (hnd : oa.array.Nodup) {index : Nat}
    (hi : index < oa.array.length) {x : α} :
    x ∈ (orderedArrayRemove oa index).array ↔ x ≠ oa.array[index] ∧ x ∈ oa.array := by
  classical
  rw [orderedArrayRemove_array, ← hnd.erase_getElem index hi]
  exact hnd.mem_erase_iff

theorem orderedArrayRemove_maxSize (oa : OrderedArray α) (index : Nat) :
    (orderedArrayRemove oa index).maxSize = oa.maxSize := by
  unfold orderedArrayRemove
  split <;> rfl

end Xylophone
