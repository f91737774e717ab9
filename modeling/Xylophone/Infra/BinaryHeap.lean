import Mathlib.Data.Multiset.Range
import Mathlib.Logic.Equiv.Basic
import Mathlib.Order.Lattice

/-!
# Binary heaps in an array

A heap of `n` elements in the first `n` places of an array `d : Nat → α`, ordered by a key: the
children of place `i` are the places `2 * i + 1` and `2 * i + 2`, and no key is smaller than the
key of the place above.

* `contents_siftUp`, `contents_siftDown` — the moves keep the elements
* `siftUp_ordered` — moving the last element up makes a heap one longer
* `siftDown_ordered` — moving the root down repairs a heap whose root was replaced
* `HeapOrdered.root_le` — the root has the smallest key
-/

namespace Infra

variable {α β : Type*}

/-! ## The elements of an array -/

/-- The elements in the first `n` places. -/
def contents (d : Nat → α) (n : Nat) : Multiset α := (Multiset.range n).map d

/-- Exchange the elements of two places. -/
def swapAt (d : Nat → α) (i j : Nat) : Nat → α :=
  Function.update (Function.update d i (d j)) j (d i)

section Contents

variable {d d' : Nat → α} {n i j : Nat}

@[simp] theorem contents_zero : contents d 0 = 0 := rfl

theorem contents_succ : contents d (n + 1) = d n ::ₘ contents d n := by
  unfold contents
  rw [Multiset.range_succ, Multiset.map_cons]

theorem mem_contents {a : α} : a ∈ contents d n ↔ ∃ i, i < n ∧ d i = a := by
  unfold contents
  rw [Multiset.mem_map]
  constructor
  · rintro ⟨i, hi, rfl⟩
    exact ⟨i, Multiset.mem_range.mp hi, rfl⟩
  · rintro ⟨i, hi, rfl⟩
    exact ⟨i, Multiset.mem_range.mpr hi, rfl⟩

theorem contents_congr (h : ∀ i, i < n → d' i = d i) : contents d' n = contents d n := by
  unfold contents
  exact Multiset.map_congr rfl fun i hi => h i (Multiset.mem_range.mp hi)

/-- Writing behind the last element. -/
theorem contents_update_self (a : α) :
    contents (Function.update d n a) (n + 1) = a ::ₘ contents d n := by
  rw [contents_succ, Function.update_self]
  congr 1
  exact contents_congr fun i hi => Function.update_of_ne (by omega) _ _

theorem swapAt_eq_comp : swapAt d i j = d ∘ Equiv.swap i j := by
  funext k
  unfold swapAt
  by_cases hj : k = j
  · subst hj
    rw [Function.update_self, Function.comp_apply, Equiv.swap_apply_right]
  · rw [Function.update_of_ne hj]
    by_cases hi : k = i
    · subst hi
      rw [Function.update_self, Function.comp_apply, Equiv.swap_apply_left]
    · rw [Function.update_of_ne hi, Function.comp_apply, Equiv.swap_apply_of_ne_of_ne hi hj]

theorem swapAt_left : swapAt d i j i = d j := by
  rw [swapAt_eq_comp, Function.comp_apply, Equiv.swap_apply_left]

theorem swapAt_right : swapAt d i j j = d i := by
  rw [swapAt_eq_comp, Function.comp_apply, Equiv.swap_apply_right]

theorem swapAt_of_ne {k : Nat} (hi : k ≠ i) (hj : k ≠ j) : swapAt d i j k = d k := by
  rw [swapAt_eq_comp, Function.comp_apply, Equiv.swap_apply_of_ne_of_ne hi hj]

/-- A swap of two places keeps the elements. -/
theorem contents_swapAt (hi : i < n) (hj : j < n) : contents (swapAt d i j) n = contents d n := by
  have hrange : (Multiset.range n).map (Equiv.swap i j) = Multiset.range n := by
    have hnodup : ((Multiset.range n).map (Equiv.swap i j)).Nodup :=
      (Multiset.nodup_range n).map (Equiv.swap i j).injective
    refine (Multiset.Nodup.ext hnodup (Multiset.nodup_range n)).mpr fun k => ?_
    rw [Multiset.mem_map]
    constructor
    · rintro ⟨a, ha, rfl⟩
      rw [Multiset.mem_range] at *
      rw [Equiv.swap_apply_def]
      split
      · exact hj
      · split
        · exact hi
        · exact ha
    · intro hk
      refine ⟨Equiv.swap i j k, ?_, Equiv.swap_apply_self i j k⟩
      rw [Multiset.mem_range] at *
      rw [Equiv.swap_apply_def]
      split
      · exact hj
      · split
        · exact hi
        · exact hk
  calc contents (swapAt d i j) n
      = ((Multiset.range n).map (Equiv.swap i j)).map d := by
        rw [contents, swapAt_eq_comp, Multiset.map_map]
    _ = contents d n := by rw [hrange, contents]

/-- The root is taken out, and the last element put in its place. -/
theorem contents_replaceRoot (hpos : 0 < n) :
    contents d (n + 1) = d 0 ::ₘ contents (Function.update d 0 (d n)) n := by
  have hswap := @contents_swapAt α d (n + 1) 0 n (by omega) (by omega)
  rw [contents_succ, swapAt_right] at hswap
  rw [← hswap]
  congr 1
  refine contents_congr fun i hi => ?_
  unfold swapAt
  rw [Function.update_of_ne (by omega)]

end Contents

/-! ## The moves -/

section Moves

variable [LinearOrder β] (key : α → β)

/-- Move the element of place `i` up while its key is smaller than the key above. The fuel `i` is
enough. -/
def siftUp : (fuel : Nat) → (Nat → α) → (i : Nat) → Nat → α
  | 0, d, _ => d
  | fuel + 1, d, i =>
    if i = 0 then d
    else if key (d ((i - 1) / 2)) ≤ key (d i) then d
    else siftUp fuel (swapAt d ((i - 1) / 2) i) ((i - 1) / 2)

/-- The place among `i` and its children with the smallest key. -/
def smallestAt (n : Nat) (d : Nat → α) (i : Nat) : Nat :=
  let smallest := if i * 2 + 1 < n ∧ key (d (i * 2 + 1)) < key (d i) then i * 2 + 1 else i
  if i * 2 + 2 < n ∧ key (d (i * 2 + 2)) < key (d smallest) then i * 2 + 2 else smallest

/-- Move the element of place `i` down while a key below is smaller. The fuel `n` is enough. -/
def siftDown (n : Nat) : (fuel : Nat) → (Nat → α) → (i : Nat) → Nat → α
  | 0, d, _ => d
  | fuel + 1, d, i =>
    let smallest := smallestAt key n d i
    if smallest = i then d else siftDown n fuel (swapAt d i smallest) smallest

variable {key} {d : Nat → α} {n i : Nat}

theorem contents_siftUp : ∀ (fuel : Nat) {d : Nat → α} {i : Nat}, i < n →
    contents (siftUp key fuel d i) n = contents d n
  | 0, _, _, _ => rfl
  | fuel + 1, d, i, hi => by
    rw [siftUp]
    split
    · rfl
    · split
      · rfl
      · rw [contents_siftUp fuel (by omega), contents_swapAt (by omega) hi]

/-- What the smallest place is. -/
theorem smallestAt_spec : (smallestAt key n d i = i ∨
      ((smallestAt key n d i = i * 2 + 1 ∨ smallestAt key n d i = i * 2 + 2) ∧
        smallestAt key n d i < n ∧ key (d (smallestAt key n d i)) < key (d i))) ∧
    (i * 2 + 1 < n → key (d (smallestAt key n d i)) ≤ key (d (i * 2 + 1))) ∧
    (i * 2 + 2 < n → key (d (smallestAt key n d i)) ≤ key (d (i * 2 + 2))) := by
  unfold smallestAt
  simp only []
  by_cases hleft : i * 2 + 1 < n ∧ key (d (i * 2 + 1)) < key (d i)
  · simp only [hleft.1, hleft.2, and_self, if_true]
    by_cases hright : i * 2 + 2 < n ∧ key (d (i * 2 + 2)) < key (d (i * 2 + 1))
    · rw [if_pos hright]
      exact ⟨Or.inr ⟨Or.inr rfl, hright.1, hright.2.trans hleft.2⟩, fun _ => hright.2.le,
        fun _ => le_refl _⟩
    · rw [if_neg hright]
      exact ⟨Or.inr ⟨Or.inl rfl, hleft.1, hleft.2⟩, fun _ => le_refl _,
        fun hn => not_lt.mp fun hlt => hright ⟨hn, hlt⟩⟩
  · rw [if_neg hleft]
    have hnotLeft : i * 2 + 1 < n → key (d i) ≤ key (d (i * 2 + 1)) :=
      fun hn => not_lt.mp fun hlt => hleft ⟨hn, hlt⟩
    by_cases hright : i * 2 + 2 < n ∧ key (d (i * 2 + 2)) < key (d i)
    · rw [if_pos hright]
      exact ⟨Or.inr ⟨Or.inr rfl, hright.1, hright.2⟩,
        fun hn => hright.2.le.trans (hnotLeft hn), fun _ => le_refl _⟩
    · rw [if_neg hright]
      exact ⟨Or.inl rfl, hnotLeft, fun hn => not_lt.mp fun hlt => hright ⟨hn, hlt⟩⟩

theorem contents_siftDown : ∀ (fuel : Nat) {d : Nat → α} {i : Nat}, i < n →
    contents (siftDown key n fuel d i) n = contents d n
  | 0, _, _, _ => rfl
  | fuel + 1, d, i, hi => by
    rw [siftDown]
    split
    · rfl
    · next hne =>
      obtain ⟨hsmall, -⟩ := @smallestAt_spec α β _ key d n i
      rcases hsmall with he | ⟨-, hlt, -⟩
      · exact absurd he hne
      · rw [contents_siftDown fuel hlt, contents_swapAt hi hlt]

end Moves

/-! ## The order -/

section Order

variable [LinearOrder β] {key : α → β} {d d' : Nat → α} {n i : Nat}

/-- No key is smaller than the key of the place above. -/
def HeapOrdered (key : α → β) (d : Nat → α) (n : Nat) : Prop :=
  ∀ i, 0 < i → i < n → key (d ((i - 1) / 2)) ≤ key (d i)

theorem heapOrdered_zero : HeapOrdered key d 0 := fun _ _ h => absurd h (Nat.not_lt_zero _)

theorem HeapOrdered.congr (h : HeapOrdered key d n) {m : Nat} (hle : m ≤ n)
    (hd : ∀ i, i < m → d' i = d i) : HeapOrdered key d' m := by
  intro i hpos hi
  rw [hd i hi, hd _ (by omega)]
  exact h i hpos (by omega)

/-- The order under another key that agrees on the elements. -/
theorem HeapOrdered.congr_key {key' : α → β} (h : HeapOrdered key d n)
    (hkey : ∀ i, i < n → key' (d i) = key (d i)) : HeapOrdered key' d n := by
  intro i hpos hi
  rw [hkey i hi, hkey _ (by omega)]
  exact h i hpos hi

/-- The root has the smallest key. -/
theorem HeapOrdered.root_le (h : HeapOrdered key d n) : ∀ i, i < n → key (d 0) ≤ key (d i) := by
  intro i
  induction i using Nat.strong_induction_on with
  | _ i ih =>
    intro hi
    by_cases hzero : i = 0
    · rw [hzero]
    · exact (ih ((i - 1) / 2) (by omega) (by omega)).trans (h i (by omega) hi)

/-- Ordered but for the key of place `i`, which may be too small. -/
structure OrderedUpTo (key : α → β) (d : Nat → α) (n i : Nat) : Prop where
  others : ∀ j, 0 < j → j < n → j ≠ i → key (d ((j - 1) / 2)) ≤ key (d j)
  /-- The keys below `i` are no smaller than the key above it. -/
  around : 0 < i → ∀ j, 0 < j → j < n → (j - 1) / 2 = i → key (d ((i - 1) / 2)) ≤ key (d j)

theorem OrderedUpTo.swap (h : OrderedUpTo key d n i) (hpos : 0 < i)
    (hlt : key (d i) < key (d ((i - 1) / 2))) :
    OrderedUpTo key (swapAt d ((i - 1) / 2) i) n ((i - 1) / 2) := by
  have habove : ∀ j, j ≠ (i - 1) / 2 → j ≠ i → swapAt d ((i - 1) / 2) i j = d j :=
    fun j h1 h2 => swapAt_of_ne h1 h2
  refine ⟨fun j hjpos hj hne => ?_, fun hup j hjpos hj hparent => ?_⟩
  · by_cases hji : j = i
    · rw [hji, swapAt_left, swapAt_right]
      exact hlt.le
    · rw [habove j hne hji]
      by_cases hjp : (j - 1) / 2 = i
      · rw [hjp, swapAt_right]
        exact h.around hpos j hjpos hj hjp
      · by_cases hsib : (j - 1) / 2 = (i - 1) / 2
        · -- the other place below
          rw [hsib, swapAt_left]
          have := h.others j hjpos hj hji
          rw [hsib] at this
          exact hlt.le.trans this
        · rw [habove _ hsib hjp]
          exact h.others j hjpos hj hji
  · have hgrand := h.others ((i - 1) / 2) hup (by omega) (by omega)
    rw [habove (((i - 1) / 2 - 1) / 2) (by omega) (by omega)]
    by_cases hji : j = i
    · rw [hji, swapAt_right]
      exact hgrand
    · rw [habove j (by omega) hji]
      have := h.others j hjpos hj hji
      rw [hparent] at this
      exact hgrand.trans this

theorem siftUp_orderedUpTo : ∀ (fuel : Nat) {d : Nat → α} {i : Nat}, i ≤ fuel → i < n →
    OrderedUpTo key d n i → HeapOrdered key (siftUp key fuel d i) n
  | 0, d, i, hfuel, _, h => by
    intro j hpos hj
    exact h.others j hpos hj (by omega)
  | fuel + 1, d, i, hfuel, hi, h => by
    rw [siftUp]
    split
    · next hzero =>
      intro j hpos hj
      exact h.others j hpos hj (by omega)
    · next hzero =>
      split
      · next hle =>
        intro j hpos hj
        by_cases hji : j = i
        · rw [hji]
          exact hle
        · exact h.others j hpos hj hji
      · next hle =>
        exact siftUp_orderedUpTo fuel (by omega) (by omega)
          (h.swap (by omega) (not_le.mp hle))

/-- **One more element.** The last of `n + 1` elements is moved up. -/
theorem siftUp_ordered (h : HeapOrdered key d n) :
    HeapOrdered key (siftUp key n d n) (n + 1) := by
  refine siftUp_orderedUpTo n (le_refl n) (by omega) ⟨fun j hpos hj hne => ?_, fun _ j _ hj hp => ?_⟩
  · exact h j hpos (by omega)
  · omega

/-- Ordered but for the key of place `i`, which may be too large. -/
structure OrderedDownFrom (key : α → β) (d : Nat → α) (n i : Nat) : Prop where
  others : ∀ j, 0 < j → j < n → (j - 1) / 2 ≠ i → key (d ((j - 1) / 2)) ≤ key (d j)
  /-- The keys below `i` are no smaller than the key above it. -/
  around : 0 < i → ∀ j, 0 < j → j < n → (j - 1) / 2 = i → key (d ((i - 1) / 2)) ≤ key (d j)

theorem OrderedDownFrom.swap {c : Nat} (h : OrderedDownFrom key d n i)
    (hchild : c = i * 2 + 1 ∨ c = i * 2 + 2) (hc : c < n) (hlt : key (d c) < key (d i))
    (hleft : i * 2 + 1 < n → key (d c) ≤ key (d (i * 2 + 1)))
    (hright : i * 2 + 2 < n → key (d c) ≤ key (d (i * 2 + 2))) :
    OrderedDownFrom key (swapAt d i c) n c := by
  refine ⟨fun j hpos hj hne => ?_, fun _ j hpos hj hparent => ?_⟩
  · by_cases hji : (j - 1) / 2 = i
    · -- a place below `i`, which now holds the smallest of the three
      rw [hji, swapAt_left]
      by_cases hjc : j = c
      · rw [hjc, swapAt_right]
        exact hlt.le
      · rw [swapAt_of_ne (by omega) hjc]
        rcases (show j = i * 2 + 1 ∨ j = i * 2 + 2 by omega) with rfl | rfl
        · exact hleft hj
        · exact hright hj
    · by_cases hji' : j = i
      · subst hji'
        rw [swapAt_left, swapAt_of_ne hji (by omega)]
        exact h.around hpos c (by omega) hc (by omega)
      · have hjc : j ≠ c := by omega
        rw [swapAt_of_ne hji' hjc, swapAt_of_ne hji hne]
        exact h.others j hpos hj hji
  · have hci : (c - 1) / 2 = i := by omega
    rw [hci, swapAt_left, swapAt_of_ne (by omega) (by omega)]
    have := h.others j hpos hj (by omega)
    rwa [hparent] at this

theorem siftDown_orderedDownFrom : ∀ (fuel : Nat) {d : Nat → α} {i : Nat}, n ≤ i + fuel →
    OrderedDownFrom key d n i → HeapOrdered key (siftDown key n fuel d i) n
  | 0, d, i, hfuel, h => by
    intro j hpos hj
    exact h.others j hpos hj (by omega)
  | fuel + 1, d, i, hfuel, h => by
    rw [siftDown]
    obtain ⟨hsmall, hleft, hright⟩ := @smallestAt_spec α β _ key d n i
    split
    · next he =>
      rw [he] at hleft hright
      intro j hpos hj
      by_cases hji : (j - 1) / 2 = i
      · rw [hji]
        rcases (show j = i * 2 + 1 ∨ j = i * 2 + 2 by omega) with rfl | rfl
        · exact hleft hj
        · exact hright hj
      · exact h.others j hpos hj hji
    · next hne =>
      rcases hsmall with he | ⟨hchild, hlt, hkey⟩
      · exact absurd he hne
      · exact siftDown_orderedDownFrom fuel (by omega) (h.swap hchild hlt hkey hleft hright)

/-- **A new root.** The root of a heap was replaced; it is moved down. -/
theorem siftDown_ordered
    (h : ∀ j, 0 < j → j < n → (j - 1) / 2 ≠ 0 → key (d ((j - 1) / 2)) ≤ key (d j)) :
    HeapOrdered key (siftDown key n n d 0) n :=
  siftDown_orderedDownFrom n (by omega) ⟨h, fun hpos => absurd hpos (Nat.lt_irrefl 0)⟩

end Order

end Infra
