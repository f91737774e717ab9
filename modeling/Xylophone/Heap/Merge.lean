import Xylophone.Heap.Bounds
import Xylophone.Heap.WellFormed

/-!
# Freeing a block of a well-formed heap

A freed block is to become a hole, merged with the holes beside it. The hole on the left is found
through its footer. For the hole on the right `unallocate` adds the size of a footer to a pointer to a
footer, which counts footers, and looks 56 bytes too far: a hole on the right stays what it is.

* `FreeExact` — the blocks that are freed well
* `free_well_iff` — exactly these, as long as the word on the right does not look like a hole
* `exists_unmerged_hole` — a block with a hole on its right
-/

namespace Xylophone

open Infra

variable {W : Type} {ops : PagingOps W} {s s' : HeapState W} {ts xs ys xs' ys' : List HeapTile}
  {t : HeapTile} {lo hi header size address i₀ : Nat}

/-! ## What a free is to do -/

/-- The tiles on the left of the block `t`, and where the hole starts that the block goes into. -/
inductive LeftMerge (t : HeapTile) : List HeapTile → List HeapTile → Nat → Prop where
  | hole (xs : List HeapTile) (l : HeapTile) (isHole : l.kind = true) :
    LeftMerge t (xs ++ [l]) xs l.start
  | alone (xs : List HeapTile) (noHole : ∀ l ∈ xs.getLast?, l.kind = false) :
    LeftMerge t xs xs t.start

/-- The tiles on the right of the block `t`, and where the hole stops that the block goes into. -/
inductive RightMerge (t : HeapTile) : List HeapTile → List HeapTile → Nat → Prop where
  | hole (r : HeapTile) (ys : List HeapTile) (isHole : r.kind = true) :
    RightMerge t (r :: ys) ys r.stop
  | alone (ys : List HeapTile) (noHole : ∀ r ∈ ys.head?, r.kind = false) :
    RightMerge t ys ys t.stop

/-- The hole that the block `t` becomes: one at the end of the heap reaches the end that the heap has
now. -/
def mergedHole (s s' : HeapState W) (lo hi : Nat) : HeapTile :=
  ⟨lo, (if hi = s.heap.endAddress then s'.heap.endAddress else hi) - lo, true⟩

/-- The heap is well formed again, and the block `t` has become one hole with its neighbours that are
holes. -/
structure FreedInto (s s' : HeapState W) (xs : List HeapTile) (t : HeapTile)
    (ys xs' ys' : List HeapTile) (lo hi : Nat) : Prop where
  left : LeftMerge t xs xs' lo
  right : RightMerge t ys ys' hi
  wellFormed : WellFormed s' (xs' ++ mergedHole s s' lo hi :: ys')
  /-- The blocks are the old ones without `t`. -/
  blocks : ∀ u, u.kind = false → (u ∈ xs' ++ mergedHole s s' lo hi :: ys' ↔ u ∈ xs ∨ u ∈ ys)
  sizes : ((xs' ++ mergedHole s s' lo hi :: ys').map (·.size)).sum =
    s'.heap.endAddress - s'.heap.startAddress

def FreedWell (s s' : HeapState W) (xs : List HeapTile) (t : HeapTile) (ys : List HeapTile) :
    Prop :=
  ∃ xs' ys' lo hi, FreedInto s s' xs t ys xs' ys' lo hi

/-- The block `t` is freed well. -/
structure FreeExact (s : HeapState W) (t : HeapTile) (ys : List HeapTile) : Prop where
  /-- The bytes before the first block do not look like the footer of a hole. -/
  first : t.start = s.heap.startAddress → leftIsHole (markedHole s t.start) t.start = false
  /-- There is no hole on the right. -/
  right : ∀ r ∈ ys.head?, r.kind = false
  /-- The word that is taken for the header on the right does not look like that of a hole. -/
  looks : rightLooksHole s t = false
  /-- The contraction leaves room for the tags of the hole, and the end does not wrap around. -/
  stop : t.stop = s.heap.endAddress → mergedHeader s t.start + 20 ≤ releasedEnd s t.start ∧
    releasedEnd s t.start < 0x100000000
  /-- The entry of the hole on the left keeps its place, or there is room for a new one. -/
  index : FreeIndexOk s (t.start + 12)

/-! ## What it comes to -/

/-- The blocks are the old ones without `t`. -/
theorem LeftMerge.blocks (h : LeftMerge t xs xs' lo) {u : HeapTile} (hu : u.kind = false) :
    u ∈ xs' ↔ u ∈ xs := by
  cases h with
  | hole _ l isHole =>
    have hne : u ≠ l := fun he => by
      rw [he, isHole] at hu
      cases hu
    simp [hne]
  | alone => exact Iff.rfl

theorem RightMerge.blocks (h : RightMerge t ys ys' hi) {u : HeapTile} (hu : u.kind = false) :
    u ∈ ys' ↔ u ∈ ys := by
  cases h with
  | hole r _ isHole =>
    have hne : u ≠ r := fun he => by
      rw [he, isHole] at hu
      cases hu
    simp [hne]
  | alone => exact Iff.rfl

/-- A heap that is well formed again has the old blocks, and the sizes sum up. -/
theorem FreedInto.of_wellFormed (hleft : LeftMerge t xs xs' lo) (hright : RightMerge t ys ys' hi)
    (h : WellFormed s' (xs' ++ mergedHole s s' lo hi :: ys')) :
    FreedInto s s' xs t ys xs' ys' lo hi := by
  refine ⟨hleft, hright, h, fun u hu => ?_, ?_⟩
  · have hne : u ≠ mergedHole s s' lo hi := by
      rintro rfl
      cases hu
    simp [hne, hleft.blocks hu, hright.blocks hu]
  · exact Nat.eq_sub_of_add_eq' h.tiles.sum_size

theorem LeftMerge.unique {xs₁ xs₂ : List HeapTile} {lo₁ lo₂ : Nat} (h₁ : LeftMerge t xs xs₁ lo₁)
    (h₂ : LeftMerge t xs xs₂ lo₂) : xs₁ = xs₂ ∧ lo₁ = lo₂ := by
  cases h₁ with
  | hole xs₁ l isHole =>
    generalize heq : xs₁ ++ [l] = xs at h₂
    cases h₂ with
    | hole xs₂ l' _ =>
      obtain ⟨rfl, h⟩ := List.append_inj' heq rfl
      obtain rfl := List.singleton_injective h
      exact ⟨rfl, rfl⟩
    | alone _ noHole =>
      rw [noHole l (by rw [← heq]; simp)] at isHole
      cases isHole
  | alone _ noHole =>
    cases h₂ with
    | hole xs₂ l isHole =>
      rw [noHole l (by simp)] at isHole
      cases isHole
    | alone => exact ⟨rfl, rfl⟩

theorem RightMerge.unique {ys₁ ys₂ : List HeapTile} {hi₁ hi₂ : Nat} (h₁ : RightMerge t ys ys₁ hi₁)
    (h₂ : RightMerge t ys ys₂ hi₂) : ys₁ = ys₂ ∧ hi₁ = hi₂ := by
  cases h₁ with
  | hole r _ isHole =>
    cases h₂ with
    | hole => exact ⟨rfl, rfl⟩
    | alone _ noHole =>
      rw [noHole r rfl] at isHole
      cases isHole
  | alone _ noHole =>
    cases h₂ with
    | hole r _ isHole =>
      rw [noHole r rfl] at isHole
      cases isHole
    | alone => exact ⟨rfl, rfl⟩

/-! ## The entries that a free takes out of the index -/

/-- `l'` is `l` without some entries `x`. -/
structure LosesOnly (x : Nat) (l l' : List Nat) : Prop where
  sub : ∀ a ∈ l', a ∈ l
  keep : ∀ a ∈ l, a ≠ x → a ∈ l'

theorem LosesOnly.refl (x : Nat) (l : List Nat) : LosesOnly x l l :=
  ⟨fun _ ha => ha, fun _ ha _ => ha⟩

theorem LosesOnly.trans {x : Nat} {l l' l'' : List Nat} (h : LosesOnly x l l')
    (h' : LosesOnly x l' l'') : LosesOnly x l l'' :=
  ⟨fun a ha => h.sub a (h'.sub a ha), fun a ha hne => h'.keep a (h.keep a ha hne) hne⟩

/-- The search stops at the entry it looks for, or behind the last one. -/
theorem searchFrom_getElem {array : List Nat} {i : Nat}
    (h : searchFrom array header i < array.length) :
    array[searchFrom array header i] = header := by
  have hsearch : i < array.length ∧
      searchFrom array header i = i + (array.drop i).findIdx (fun a => a == header) := by
    unfold searchFrom at h ⊢
    by_cases hi : i < array.length
    · exact ⟨hi, if_pos hi⟩
    · rw [if_neg hi] at h
      exact absurd h hi
  obtain ⟨hi, heq⟩ := hsearch
  have hlt : (array.drop i).findIdx (fun a => a == header) < (array.drop i).length := by
    rw [List.length_drop]
    omega
  have hfound := List.findIdx_getElem (w := hlt)
  rw [List.getElem_drop, beq_iff_eq] at hfound
  simp only [heq]
  exact hfound

/-- Removing the entry that has been searched for. -/
theorem losesOnly_removeHole (s : HeapState W) (header i : Nat) :
    LosesOnly header s.index (removeHole s (searchFrom s.heap.heapArray.array header i)).index := by
  have hindex : (removeHole s (searchFrom s.heap.heapArray.array header i)).index =
      s.index.eraseIdx (searchFrom s.heap.heapArray.array header i) :=
    orderedArrayRemove_array ..
  rw [hindex]
  refine ⟨fun a ha => List.mem_of_mem_eraseIdx ha, fun a ha hne => ?_⟩
  obtain ⟨k, hk, rfl⟩ := List.mem_iff_getElem.mp ha
  refine List.mem_eraseIdx_iff_getElem.mpr ⟨k, hk, fun he => hne ?_, rfl⟩
  subst he
  exact searchFrom_getElem hk

theorem losesOnly_mergeRight (s : HeapState W) (header footer i : Nat) :
    LosesOnly (wrap32 (footer + 64)) s.index (mergeRight s header footer i).1.index := by
  unfold mergeRight
  split
  · exact losesOnly_removeHole { s with mem := _ } _ _
  · exact LosesOnly.refl ..

theorem losesOnly_shrinkHole (s : HeapState W) (header testHeader i removed : Nat) :
    LosesOnly testHeader s.index (shrinkHole s header testHeader i removed).index := by
  unfold shrinkHole
  generalize sub32 (headerSize s.mem header) removed = size
  by_cases hsize : 0 < size
  · simp only [hsize, if_true]
    exact LosesOnly.refl ..
  · simp only [hsize, if_false]
    split
    · exact losesOnly_removeHole s _ _
    · exact LosesOnly.refl ..

theorem contract_heapArray (ops : PagingOps W) (s : HeapState W) (newSize : Nat) :
    (contract ops s newSize).1.heap.heapArray = s.heap.heapArray := by
  unfold contract
  dsimp only

/-- What the end of a free comes to: the last hole is shrunk in a state with the same index. -/
theorem releaseEnd_eq (ops : PagingOps W) (s : HeapState W) (header testHeader i : Nat) :
    ∃ s₁ removed, releaseEnd ops s header testHeader i = shrinkHole s₁ header testHeader i removed ∧
      s₁.heap.heapArray = s.heap.heapArray :=
  ⟨_, _, rfl, contract_heapArray ..⟩

theorem losesOnly_releaseEnd (ops : PagingOps W) (s : HeapState W) (header testHeader i : Nat) :
    LosesOnly testHeader s.index (releaseEnd ops s header testHeader i).index := by
  obtain ⟨s₁, removed, heq, harray⟩ := releaseEnd_eq ops s header testHeader i
  have hshrink := losesOnly_shrinkHole s₁ header testHeader i removed
  rw [HeapState.index, harray] at hshrink
  rw [heq]
  exact hshrink

theorem mem_insertHole {a : Nat} (h : a ∈ s.index) (header : Nat) :
    a ∈ (insertHole s header).index := by
  show a ∈ (orderedArrayInsert (isLessThan s.mem) s.heap.heapArray header).1.array
  exact mem_orderedArrayInsert_of_mem h

/-- **What a free does to the entries.** At most the entry of the word on the right is lost; and when
there is a hole on the left, none is added. -/
theorem index_unallocate (hfree : unallocate ops s address i₀ = s') :
    (∀ a ∈ s.index, a ≠ wrap32 (sub32 (wrap32 (sub32 address 12 +
        headerSize s.mem (sub32 address 12))) 8 + 64) → a ∈ s'.index) ∧
    (leftIsHole (markedHole s (sub32 address 12)) (sub32 address 12) = true →
      ∀ a ∈ s'.index, a ∈ s.index) := by
  unfold unallocate at hfree
  split at hfree
  · subst hfree
    exact ⟨fun a ha _ => ha, fun _ a ha => ha⟩
  unfold markedHole
  simp only [] at hfree
  generalize sub32 address 12 = header at hfree ⊢
  generalize sub32 (wrap32 (header + headerSize s.mem header)) 8 = footer at hfree ⊢
  generalize setHeaderIsHole s.mem header 1 = m at hfree ⊢
  generalize mergeLeft m header footer = l at hfree ⊢
  have hmerge : LosesOnly (wrap32 (footer + 64)) s.index
      (mergeRight { s with mem := l.1 } l.2 footer i₀).1.index :=
    losesOnly_mergeRight { s with mem := l.1 } l.2 footer i₀
  generalize mergeRight { s with mem := l.1 } l.2 footer i₀ = r at hmerge hfree
  have hrelease := losesOnly_releaseEnd ops r.1 l.2 (wrap32 (footer + 64)) r.2.2
  generalize releaseEnd ops r.1 l.2 (wrap32 (footer + 64)) r.2.2 = s₁ at hrelease hfree
  generalize wrap32 (footer + 64) = x at hmerge hrelease hfree ⊢
  have hloses : LosesOnly x s.index
      (if wrap32 (r.2.1 + 8) = r.1.heap.endAddress then s₁ else r.1).index := by
    split
    · exact hmerge.trans hrelease
    · exact hmerge
  generalize (if wrap32 (r.2.1 + 8) = r.1.heap.endAddress then s₁ else r.1) = s₂ at hloses hfree
  cases hleft : leftIsHole m header with
  | true =>
    simp only [hleft, Bool.not_true, Bool.false_eq_true, if_false] at hfree
    subst hfree
    exact ⟨hloses.keep, fun _ => hloses.sub⟩
  | false =>
    simp only [hleft, Bool.not_false, if_true] at hfree
    subst hfree
    exact ⟨fun a ha hne => mem_insertHole (hloses.keep a ha hne) _, nofun⟩

theorem endAddress_releaseEnd (ops : PagingOps W) (s : HeapState W) (header testHeader i : Nat) :
    (releaseEnd ops s header testHeader i).heap.endAddress =
      contractedEnd s (sub32 header s.heap.startAddress) := by
  unfold releaseEnd
  exact ((contracted_contract ops s _).trans (SameBounds.shrinkHole ..)).endAddress

theorem contractedLength_lt {n : Nat} (h : n < 0x100000000) : contractedLength n < 0x100000000 := by
  unfold contractedLength heapMinSize
  split
  · decide
  · rw [roundToPage_eq_wrap h]
    exact wrap32_lt _

/-! ## The left neighbour -/

section Neighbours

variable (h : WellFormed s (xs ++ t :: ys))
include h

theorem WellFormed.freeable : Freeable s (xs ++ t :: ys) t where
  mem := by simp
  end_lt := h.end_lt
  tiles := h.tiles
  tags := h.tags t (by simp)
  leftTags := fun l hl _ => h.tags l hl

theorem WellFormed.not_mem_index (hk : t.kind = false) : t.start ∉ s.index := by
  intro hmem
  obtain ⟨u, hu, he, huk⟩ := (h.index _).mp hmem
  rw [h.tiles.eq_of_start h.pos hu (by simp) he, hk] at huk
  cases huk

/-- The tiles beside the block that the code finds are those that stand there. -/
theorem MergeSplit.leftMerge {xs₀ vs ys₀ : List HeapTile}
    (hs : MergeSplit s (xs ++ t :: ys) t xs₀ vs ys₀ header) :
    LeftMerge t xs xs₀ header ∧ ys₀ = ys := by
  have hnot : t ∉ xs ∧ t ∉ ys :=
    ⟨fun ht => h.start_ne (Or.inl ht) rfl, fun ht => h.start_ne (Or.inr ht) rfl⟩
  obtain ⟨htiles, hleft, -, -, -, hmerged⟩ := hs
  rcases hmerged with ⟨rfl, rfl, hno⟩ | ⟨l, rfl, rfl, hlk, -⟩
  · rw [List.append_assoc, List.singleton_append,
      List.append_cons_inj_of_notMem hnot.1 hnot.2] at htiles
    obtain ⟨rfl, -, rfl⟩ := htiles
    refine ⟨.alone _ fun l hl => ?_, rfl⟩
    obtain ⟨ws, rfl⟩ := List.getLast?_eq_some_iff.mp hl
    obtain ⟨-, hstop⟩ := tiles_split.mp hleft
    have hstop : l.stop = t.start := hstop
    rw [← h.freeable.leftIsHole_eq (by simp) hstop, hno]
  · have htiles : xs ++ t :: ys = (xs₀ ++ [l]) ++ t :: ys₀ := by simpa using htiles
    rw [List.append_cons_inj_of_notMem hnot.1 hnot.2] at htiles
    obtain ⟨rfl, -, rfl⟩ := htiles
    exact ⟨.hole xs₀ l hlk, rfl⟩

/-- The tile of an entry lies on one side of the block, or it is the hole that the block goes into. -/
theorem MergeSplit.entry {xs₀ vs ys₀ : List HeapTile} (hk : t.kind = false)
    (hs : MergeSplit s (xs ++ t :: ys) t xs₀ vs ys₀ header) {a : Nat} (ha : a ∈ s.index) :
    a = header ∨ ∃ u, (u ∈ xs₀ ∨ u ∈ ys₀) ∧ u.start = a ∧ u.kind = true := by
  obtain ⟨u, hu, rfl, huk⟩ := (h.index a).mp ha
  have hut : u ≠ t := by
    rintro rfl
    rw [hk] at huk
    cases huk
  rw [hs.tiles] at hu
  rcases hs.merged with ⟨rfl, -, -⟩ | ⟨l, rfl, rfl, -, -⟩
  · exact Or.inr ⟨u, by simpa [hut] using hu, rfl, huk⟩
  · by_cases hul : u = l
    · exact Or.inl (by rw [hul])
    · exact Or.inr ⟨u, by simpa [hut, hul] using hu, rfl, huk⟩

/-- The tiles on both sides keep their tags. -/
theorem FreeEffect.keep {xs₀ vs ys₀ : List HeapTile}
    (hs : MergeSplit s (xs ++ t :: ys) t xs₀ vs ys₀ header) (he : FreeEffect s s' t header size)
    {u : HeapTile} (hu : u ∈ xs₀ ∨ u ∈ ys₀) : TileTags s'.mem u := by
  have hmem : u ∈ xs ++ t :: ys := by
    rw [hs.tiles]
    rcases hu with hu | hu
    · simp [hu]
    · simp [hu]
  refine (h.tags u hmem).frame he.agree ?_ (Nat.le_of_lt (h.stop_lt hmem))
  rcases hu with hu | hu
  · exact Or.inl (hs.left.mem_bounds hu).2
  · have hbounds := hs.right.mem_bounds hu
    have hroom := h.room hmem
    rw [if_neg]
    · exact Or.inr hbounds.1
    · unfold Tile.stop at *
      omega

/-- The sizes that the headers of the entries say after a free. -/
theorem FreeEffect.headerSize_eq {xs₀ vs ys₀ : List HeapTile} (hk : t.kind = false)
    (hs : MergeSplit s (xs ++ t :: ys) t xs₀ vs ys₀ header) (he : FreeEffect s s' t header size)
    {a : Nat} (ha : a ∈ s.index) : headerSize s'.mem a = sizeWith s header size a := by
  unfold sizeWith
  by_cases hheader : a = header
  · rw [if_pos hheader, hheader]
    exact he.tags.header.size
  · rw [if_neg hheader]
    obtain ⟨u, hu, rfl, -⟩ := (hs.entry h hk ha).resolve_left hheader
    have hmem : u ∈ xs ++ t :: ys := by
      rw [hs.tiles]
      rcases hu with hu | hu
      · simp [hu]
      · simp [hu]
    rw [(he.keep h hs hu).header.size, h.size_headerSize hmem]

/-- The index is in order with these sizes. -/
theorem FreeEffect.index_iff {xs₀ vs ys₀ : List HeapTile}
    (hs : MergeSplit s (xs ++ t :: ys) t xs₀ vs ys₀ header) (he : FreeEffect s s' t header size) :
    FreeIndexOk s (t.start + 12) ↔
      (leftIsHole (markedHole s t.start) t.start = true → OrderedWith s header size) ∧
      (leftIsHole (markedHole s t.start) t.start = false → IndexRoom s) := by
  have hsize : mergedSize s t.start = size := by
    have hsize := he.size_eq
    unfold mergedSize
    rw [h.size_headerSize (by simp), ← hs.header_eq]
    show (if t.stop = s.heap.endAddress then releasedEnd s t.start else t.stop) - header = size
    omega
  constructor
  · rintro ⟨hmerged, halone⟩
    rw [Nat.add_sub_cancel, ← hs.header_eq, hsize] at hmerged
    rw [Nat.add_sub_cancel] at halone
    exact ⟨hmerged, halone⟩
  · rintro ⟨hmerged, halone⟩
    refine ⟨?_, ?_⟩
    · rw [Nat.add_sub_cancel, ← hs.header_eq, hsize]
      exact hmerged
    · rw [Nat.add_sub_cancel]
      exact halone

/-- The tiles after a free cover the heap. -/
theorem FreeEffect.tiles {xs₀ vs ys₀ : List HeapTile}
    (hs : MergeSplit s (xs ++ t :: ys) t xs₀ vs ys₀ header) (he : FreeEffect s s' t header size) :
    Tiles s'.heap.startAddress (xs₀ ++ ⟨header, size, true⟩ :: ys₀) s'.heap.endAddress := by
  rw [tiles_split, he.startAddress, he.endAddress]
  refine ⟨hs.left, ?_⟩
  rw [Tile.stop_mk, he.size_eq]
  by_cases hlast : t.stop = s.heap.endAddress
  · rw [if_pos hlast, if_pos hlast]
    -- nothing stands on the right of a block at the end
    have hnil : ys₀ = [] := by
      have hright := hs.right
      rw [hlast] at hright
      cases ys₀ with
      | nil => rfl
      | cons u us =>
        have hbounds := hright.mem_bounds (List.mem_cons_self (a := u))
        have hroom := h.room (t := u) (by rw [hs.tiles]; simp)
        unfold Tile.stop at hbounds
        omega
    rw [hnil]
    rfl
  · rw [if_neg hlast, if_neg hlast]
    exact hs.right

/-- The entries after a free. -/
theorem FreeEffect.mem_index {xs₀ vs ys₀ : List HeapTile}
    (hs : MergeSplit s (xs ++ t :: ys) t xs₀ vs ys₀ header) (he : FreeEffect s s' t header size)
    (halone : leftIsHole (markedHole s t.start) t.start = false → IndexRoom s) (a : Nat) :
    a ∈ s'.index ↔ a = header ∨ a ∈ s.index := by
  rw [HeapState.index, he.array]
  rcases hs.merged with ⟨-, -, hno⟩ | ⟨l, rfl, rfl, hlk, hyes⟩
  · rw [if_neg (by simp [hno])]
    exact (orderedArrayInsert_perm (halone hno)).mem_iff.trans List.mem_cons
  · rw [if_pos hyes]
    have hl : l.start ∈ s.index := (h.index _).mpr ⟨l, by rw [hs.tiles]; simp, rfl, hlk⟩
    exact ⟨Or.inr, fun ha => ha.elim (fun he => he ▸ hl) id⟩

/-- **A free that goes well leaves a well-formed heap.** -/
theorem FreeEffect.wellFormed {xs₀ vs ys₀ : List HeapTile} (hk : t.kind = false)
    (hs : MergeSplit s (xs ++ t :: ys) t xs₀ vs ys₀ header) (he : FreeEffect s s' t header size)
    (hmerged : leftIsHole (markedHole s t.start) t.start = true → OrderedWith s header size)
    (halone : leftIsHole (markedHole s t.start) t.start = false → IndexRoom s) :
    WellFormed s' (xs₀ ++ ⟨header, size, true⟩ :: ys₀) := by
  have hmem := he.mem_index h hs halone
  have hkeep : ∀ u, u ∈ xs₀ ∨ u ∈ ys₀ → u.kind = true → u.start ∈ s.index := by
    intro u hu huk
    refine (h.index _).mpr ⟨u, ?_, rfl, huk⟩
    rw [hs.tiles]
    rcases hu with hu | hu
    · simp [hu]
    · simp [hu]
  have hsizes : ∀ a ∈ s.index, headerSize s'.mem a = sizeWith s header size a :=
    fun a ha => he.headerSize_eq h hk hs ha
  have harray := he.array
  have hnew : leftIsHole (markedHole s t.start) t.start = false → header ∉ s.index := by
    intro hno
    rcases hs.merged with ⟨-, rfl, -⟩ | ⟨l, -, -, -, hyes⟩
    · exact h.not_mem_index hk
    · rw [hno] at hyes
      cases hyes
  refine ⟨he.end_lt, he.tiles h hs, fun u hu => ?_, fun a => ?_, ?_, ?_, ?_⟩
  · simp only [List.mem_append, List.mem_cons] at hu
    rcases hu with hu | rfl | hu
    · exact he.keep h hs (Or.inl hu)
    · exact he.tags
    · exact he.keep h hs (Or.inr hu)
  · rw [hmem]
    constructor
    · rintro (rfl | ha)
      · exact ⟨⟨a, size, true⟩, by simp, rfl, rfl⟩
      · rcases hs.entry h hk ha with rfl | ⟨u, hu, hstart, huk⟩
        · exact ⟨⟨a, size, true⟩, by simp, rfl, rfl⟩
        · refine ⟨u, ?_, hstart, huk⟩
          rcases hu with hu | hu
          · simp [hu]
          · simp [hu]
    · rintro ⟨u, hu, rfl, huk⟩
      simp only [List.mem_append, List.mem_cons] at hu
      rcases hu with hu | rfl | hu
      · exact Or.inr (hkeep u (Or.inl hu) huk)
      · exact Or.inl rfl
      · exact Or.inr (hkeep u (Or.inr hu) huk)
  · cases hleft : leftIsHole (markedHole s t.start) t.start with
    | true =>
      rw [hleft, if_pos rfl] at harray
      rw [HeapState.index, harray]
      exact h.once
    | false =>
      rw [hleft, if_neg Bool.false_ne_true] at harray
      rw [HeapState.index, harray]
      exact orderedArrayInsert_nodup h.once (hnew hleft)
  · cases hleft : leftIsHole (markedHole s t.start) t.start with
    | true =>
      rw [hleft, if_pos rfl] at harray
      rw [HeapState.index, harray]
      refine (hmerged hleft).imp_of_mem fun {a b} ha hb hle => ?_
      rw [hsizes a ha, hsizes b hb]
      exact hle
    | false =>
      rw [hleft, if_neg Bool.false_ne_true] at harray
      rw [HeapState.index, harray]
      refine insert_sorted (h.sorted.imp_of_mem fun {a b} ha hb hle => ?_)
      have hne : ∀ {c}, c ∈ s.index → c ≠ header := by
        rintro c hc rfl
        exact hnew hleft hc
      rw [hsizes a ha, hsizes b hb, sizeWith, if_neg (hne ha), sizeWith, if_neg (hne hb)]
      exact hle
  · cases hleft : leftIsHole (markedHole s t.start) t.start with
    | true =>
      rw [hleft, if_pos rfl] at harray
      rw [HeapState.index, harray]
      exact h.capacity
    | false =>
      rw [hleft, if_neg Bool.false_ne_true] at harray
      rw [HeapState.index, harray]
      exact orderedArrayInsert_length h.capacity

/-- **The blocks that are freed well.** -/
theorem FreeExact.freedWell (hstatus : s.heap.status = .initialized) (hk : t.kind = false)
    (hok : FreeExact s t ys) (ops : PagingOps W) (i₀ : Nat) :
    FreedWell s (heapManagerFree ops s (t.start + 12) i₀) xs t ys := by
  have hcall : heapManagerFree ops s (t.start + 12) i₀ = unallocate ops s (t.start + 12) i₀ :=
    if_pos hstatus
  rw [hcall]
  obtain ⟨xs₀, vs, ys₀, header, size, hs, he⟩ :=
    h.freeable.unallocate ops hok.first hok.looks hok.stop i₀
  obtain ⟨hleft, rfl⟩ := hs.leftMerge h
  obtain ⟨hmerged, halone⟩ := (he.index_iff h hs).mp hok.index
  refine ⟨xs₀, ys₀, header, t.stop, .of_wellFormed hleft (.alone ys₀ hok.right) ?_⟩
  have hsize : mergedHole s (unallocate ops s (t.start + 12) i₀) header t.stop =
      ⟨header, size, true⟩ := by
    have hsize := he.size_eq
    unfold mergedHole
    rw [he.endAddress]
    congr 1
    split
    · next hlast =>
      rw [if_pos hlast] at hsize
      omega
    · next hne =>
      rw [if_neg hne] at hsize
      omega
  rw [hsize]
  exact he.wellFormed h hk hs hmerged halone

/-! ## What a free that went well tells -/

theorem WellFormed.index_free (hstatus : s.heap.status = .initialized) (ops : PagingOps W)
    (i₀ : Nat) :
    (∀ a ∈ s.index, a ≠ wrap32 (t.stop + 56) →
      a ∈ (heapManagerFree ops s (t.start + 12) i₀).index) ∧
    (leftIsHole (markedHole s t.start) t.start = true →
      ∀ a ∈ (heapManagerFree ops s (t.start + 12) i₀).index, a ∈ s.index) := by
  have hcall : unallocate ops s (t.start + 12) i₀ = heapManagerFree ops s (t.start + 12) i₀ :=
    (if_pos hstatus).symm
  have hroom := h.room (t := t) (by simp)
  have hlt := h.stop_lt (t := t) (by simp)
  have hstop : t.stop = t.start + t.size := rfl
  have hindex := index_unallocate hcall
  have hheader : sub32 (t.start + 12) 12 = t.start := by
    rw [sub32_of_le (by omega) (by omega), Nat.add_sub_cancel]
  have hfooter : sub32 (wrap32 (t.start + t.size)) 8 + 64 = t.stop + 56 := by
    rw [wrap32_of_lt (by omega), sub32_of_le (by omega) (by omega)]
    omega
  rw [hheader, h.size_headerSize (by simp), hfooter] at hindex
  exact hindex

/-- **There was no hole on the right**: it would still have its entry. -/
theorem FreedWell.right (hstatus : s.heap.status = .initialized)
    (hw : FreedWell s (heapManagerFree ops s (t.start + 12) i₀) xs t ys) :
    ∀ r ∈ ys.head?, r.kind = false := by
  intro r hr
  by_contra hhole
  rw [Bool.not_eq_false] at hhole
  obtain ⟨ys₁, rfl⟩ := List.head?_eq_some_iff.mp hr
  obtain ⟨xs', ys', lo, hi, hinto⟩ := hw
  have htiles := (tiles_split.mp h.tiles).2
  have hstart : r.start = t.stop := htiles.1
  have hkept : r.start ∈ (heapManagerFree ops s (t.start + 12) i₀).index := by
    refine (h.index_free hstatus ops i₀).1 r.start ((h.index _).mpr ⟨r, by simp, rfl, hhole⟩) ?_
    rw [hstart]
    unfold wrap32
    omega
  generalize heapManagerFree ops s (t.start + 12) i₀ = s' at *
  have hwell := hinto.wellFormed
  cases hinto.right with
  | alone _ noHole =>
    rw [noHole r rfl] at hhole
    cases hhole
  | hole _ _ _ =>
    -- the entry stands for a tile, which lies inside the hole
    have hlo : lo ≤ t.start := by
      cases hinto.left with
      | hole xs₀ l _ =>
        have hbounds := (tiles_split.mp h.tiles).1.mem_bounds (t := l) (by simp)
        unfold Tile.stop at hbounds
        omega
      | alone => exact Nat.le_refl _
    have hroom := h.room (t := t) (by simp)
    have hlt : lo < r.start := by
      rw [hstart]
      unfold Tile.stop
      omega
    obtain ⟨u, hu, hustart, -⟩ := (hwell.index _).mp hkept
    have huroom := hwell.room hu
    have hustop := (hwell.tiles.mem_bounds hu).2
    refine hwell.not_mem_index_inside (t := mergedHole s s' lo r.stop) (by simp) hlt ?_ hkept
    have hrroom := h.room (t := r) (by simp)
    show r.start < lo + ((if r.stop = s.heap.endAddress then s'.heap.endAddress else r.stop) - lo)
    unfold Tile.stop at hustop ⊢
    split <;> omega

/-- **The bytes before the first block did not look like the footer of a hole.** -/
theorem FreedWell.first (hstatus : s.heap.status = .initialized) (hk : t.kind = false)
    (hw : FreedWell s (heapManagerFree ops s (t.start + 12) i₀) xs t ys)
    (hfirst : t.start = s.heap.startAddress) :
    leftIsHole (markedHole s t.start) t.start = false := by
  by_contra hhole
  rw [Bool.not_eq_false] at hhole
  obtain ⟨xs', ys', lo, hi, hinto⟩ := hw
  have hxs : xs = [] := by
    have hleft := (tiles_split.mp h.tiles).1
    rw [hfirst] at hleft
    cases xs with
    | nil => rfl
    | cons u us =>
      have hbounds := hleft.mem_bounds (List.mem_cons_self (a := u))
      have hroom := h.room (t := u) (by simp)
      unfold Tile.stop at hbounds
      omega
  have hlo : lo = t.start := by
    have hleft := hinto.left
    rw [hxs] at hleft
    generalize hnil : ([] : List HeapTile) = xs₀ at hleft
    cases hleft with
    | hole xs₁ l _ => simp at hnil
    | alone => rfl
  subst hlo
  refine h.not_mem_index hk ((h.index_free hstatus ops i₀).2 hhole t.start ?_)
  exact (hinto.wellFormed.index _).mpr ⟨_, List.mem_append_right _ List.mem_cons_self, rfl, rfl⟩

/-- The tile that the block has become, when there was no hole on the right. -/
theorem FreedWell.exists_hole (hstatus : s.heap.status = .initialized)
    (hw : FreedWell s (heapManagerFree ops s (t.start + 12) i₀) xs t ys) :
    ∃ xs' lo, LeftMerge t xs xs' lo ∧ WellFormed (heapManagerFree ops s (t.start + 12) i₀)
      (xs' ++ mergedHole s (heapManagerFree ops s (t.start + 12) i₀) lo t.stop :: ys) := by
  have hright := hw.right h hstatus
  obtain ⟨xs', ys', lo, hi, hinto⟩ := hw
  obtain ⟨rfl, rfl⟩ := hinto.right.unique (.alone ys hright)
  exact ⟨xs', lo, hinto.left, hinto.wellFormed⟩

/-- Where the heap ends after the last block has been freed. -/
theorem WellFormed.endAddress_free (hstatus : s.heap.status = .initialized)
    (hfirst : t.start = s.heap.startAddress → leftIsHole (markedHole s t.start) t.start = false)
    (hlooks : rightLooksHole s t = false) (hlast : t.stop = s.heap.endAddress) (ops : PagingOps W)
    (i₀ : Nat) : (heapManagerFree ops s (t.start + 12) i₀).heap.endAddress =
      wrap32 (releasedEnd s t.start) := by
  have hcall : heapManagerFree ops s (t.start + 12) i₀ = unallocate ops s (t.start + 12) i₀ :=
    if_pos hstatus
  obtain ⟨xs₀, vs, ys₀, header, m, hs, -, hmerge⟩ := h.freeable.mergeLeft hfirst
  have hfree := h.freeable.unallocate_eq ops hlooks hmerge i₀ rfl (if_pos hlast)
  have hrelease := endAddress_releaseEnd ops { s with mem := m } header (wrap32 (t.stop - 8 + 64)) i₀
  generalize releaseEnd ops { s with mem := m } header (wrap32 (t.stop - 8 + 64)) i₀ = s₁
    at hfree hrelease
  have hend : (unallocate ops s (t.start + 12) i₀).heap.endAddress = s₁.heap.endAddress := by
    rw [hfree]
    split
    · rfl
    · exact (SameBounds.insertHole s₁ header).endAddress
  have hle : s.heap.startAddress ≤ header := hs.left.le
  have hlt : header < 0x100000000 := by
    have hmid := hs.mid.le
    have hstop := h.stop_lt (t := t) (by simp)
    omega
  have hlength : sub32 header s.heap.startAddress = header - s.heap.startAddress :=
    sub32_of_le hle hlt
  rw [hcall, hend, hrelease]
  show wrap32 (s.heap.startAddress + contractedLength (sub32 header s.heap.startAddress)) = _
  rw [hlength, hs.header_eq]
  rfl

/-- **The end of the heap.** -/
theorem FreedWell.stop (hstatus : s.heap.status = .initialized) (hk : t.kind = false)
    (hw : FreedWell s (heapManagerFree ops s (t.start + 12) i₀) xs t ys)
    (hlooks : rightLooksHole s t = false) (hlast : t.stop = s.heap.endAddress) :
    mergedHeader s t.start + 20 ≤ releasedEnd s t.start ∧
      releasedEnd s t.start < 0x100000000 := by
  have hfirst := hw.first h hstatus hk
  have hend := h.endAddress_free hstatus hfirst hlooks hlast ops i₀
  obtain ⟨xs', lo, hleft, hwell⟩ := hw.exists_hole h hstatus
  obtain ⟨xs₀, vs, ys₀, header, m, hs, -, -⟩ := h.freeable.mergeLeft hfirst
  obtain ⟨-, rfl⟩ := hleft.unique (hs.leftMerge h).1
  have hroom : 20 ≤ (mergedHole s (heapManagerFree ops s (t.start + 12) i₀) lo t.stop).size :=
    hwell.room (List.mem_append_right _ List.mem_cons_self)
  unfold mergedHole at hroom
  rw [if_pos hlast, hend] at hroom
  have hle : s.heap.startAddress ≤ lo := hs.left.le
  have hmid := hs.mid.le
  have hstop := h.stop_lt (t := t) (by simp)
  have hlt := contractedLength_lt (show lo - s.heap.startAddress < 0x100000000 by omega)
  have hreleased : releasedEnd s t.start =
      s.heap.startAddress + contractedLength (lo - s.heap.startAddress) := by
    unfold releasedEnd
    rw [hs.header_eq]
  rw [← hs.header_eq]
  rw [hreleased] at hroom ⊢
  simp only [wrap32] at hroom
  omega

/-- **The index.** -/
theorem FreedWell.index (hstatus : s.heap.status = .initialized) (hk : t.kind = false)
    (hw : FreedWell s (heapManagerFree ops s (t.start + 12) i₀) xs t ys)
    (hlooks : rightLooksHole s t = false) : FreeIndexOk s (t.start + 12) := by
  have hcall : heapManagerFree ops s (t.start + 12) i₀ = unallocate ops s (t.start + 12) i₀ :=
    if_pos hstatus
  obtain ⟨xs₀, vs, ys₀, header, size, hs, he⟩ := h.freeable.unallocate ops
    (hw.first h hstatus hk) hlooks (hw.stop h hstatus hk hlooks) i₀
  obtain ⟨xs', lo, hleft, hwell⟩ := hw.exists_hole h hstatus
  obtain ⟨-, rfl⟩ := hleft.unique (hs.leftMerge h).1
  rw [hcall] at hwell
  have harray := he.array
  have hmem : lo ∈ (unallocate ops s (t.start + 12) i₀).index :=
    (hwell.index _).mpr ⟨_, List.mem_append_right _ List.mem_cons_self, rfl, rfl⟩
  refine (he.index_iff h hs).mpr ⟨fun hyes => ?_, fun hno => ?_⟩
  · have hsorted := hwell.sorted
    rw [if_pos hyes] at harray
    rw [HeapState.index, harray] at hsorted
    refine List.Pairwise.imp_of_mem (fun {a b} ha hb hle => ?_) hsorted
    rw [he.headerSize_eq h hk hs ha, he.headerSize_eq h hk hs hb] at hle
    exact hle
  · by_contra hfull
    rw [if_neg (by simp [hno]), orderedArrayInsert_full (Nat.le_of_not_lt hfull)] at harray
    rw [HeapState.index, harray] at hmem
    rcases hs.merged with ⟨-, rfl, -⟩ | ⟨l, -, -, -, hyes⟩
    · exact h.not_mem_index hk hmem
    · rw [hno] at hyes
      cases hyes

end Neighbours

/--
**Which blocks are freed well.** `FreeExact` is enough, and it is needed as far as `unallocate` does not
take the word on the right for the header of a hole.
-/
theorem free_well_iff (h : WellFormed s (xs ++ t :: ys)) (hstatus : s.heap.status = .initialized)
    (hk : t.kind = false) (ops : PagingOps W) (i₀ : Nat) :
    (FreeExact s t ys → FreedWell s (heapManagerFree ops s (t.start + 12) i₀) xs t ys) ∧
    (FreedWell s (heapManagerFree ops s (t.start + 12) i₀) xs t ys →
      (∀ r ∈ ys.head?, r.kind = false) ∧
      (t.start = s.heap.startAddress → leftIsHole (markedHole s t.start) t.start = false) ∧
      (rightLooksHole s t = false → FreeExact s t ys)) := by
  refine ⟨fun hok => hok.freedWell h hstatus hk ops i₀, fun hw => ?_⟩
  have hfirst := hw.first h hstatus hk
  have hright := hw.right h hstatus
  exact ⟨hright, hfirst, fun hlooks =>
    ⟨hfirst, hright, hlooks, hw.stop h hstatus hk hlooks, hw.index h hstatus hk hlooks⟩⟩

/-- The middle one of three blocks. -/
theorem free_well_iff_threeBlocks :
    let s := heapOf 0xC0481000 0xC0500000
      [⟨0xC0481000, 0x100, true⟩, ⟨0xC0481100, 0x100, false⟩, ⟨0xC0481200, 0x7EE00, false⟩]
    let t : HeapTile := ⟨0xC0481100, 0x100, false⟩
    let s' := heapManagerFree servingOps s 0xC048110C 0
    FreeExact s t [⟨0xC0481200, 0x7EE00, false⟩] ∧
      FreedWell s s' [⟨0xC0481000, 0x100, true⟩] t [⟨0xC0481200, 0x7EE00, false⟩] := by
  intro s t s'
  have h : WellFormed s ([⟨0xC0481000, 0x100, true⟩] ++ t :: [⟨0xC0481200, 0x7EE00, false⟩]) :=
    wellFormed_heapOf ⟨rfl, rfl, rfl, rfl⟩ (by decide) (by decide) (by simp) (by decide)
  have hok : FreeExact s t [⟨0xC0481200, 0x7EE00, false⟩] :=
    ⟨by decide, by simp, by decide +kernel, by decide, by decide +kernel⟩
  exact ⟨hok, (free_well_iff h rfl rfl servingOps 0).1 hok⟩

/-- A block with a hole on its right: the two holes stay apart. -/
theorem exists_unmerged_hole : ∃ (s : HeapState Unit) (xs : List HeapTile) (t : HeapTile)
    (ys : List HeapTile), WellFormed s (xs ++ t :: ys) ∧ s.heap.status = .initialized ∧
      t.kind = false ∧ ¬ FreedWell s (heapManagerFree servingOps s (t.start + 12) 0) xs t ys := by
  have h : WellFormed
      (heapOf 0xC0481000 0xC0500000 [⟨0xC0481000, 0x200, false⟩, ⟨0xC0481200, 0x7EE00, true⟩])
      ([] ++ ⟨0xC0481000, 0x200, false⟩ :: [⟨0xC0481200, 0x7EE00, true⟩]) :=
    wellFormed_heapOf ⟨rfl, rfl, rfl⟩ (by decide) (by decide) (by simp) (by decide)
  refine ⟨_, _, _, _, h, rfl, rfl, fun hw => ?_⟩
  have hright := hw.right h rfl ⟨0xC0481200, 0x7EE00, true⟩ rfl
  cases hright

end Xylophone
