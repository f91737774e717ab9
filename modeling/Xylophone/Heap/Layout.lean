import Xylophone.Heap.Manager
import Xylophone.Infra.Tiling

/-!
# The layout of the heap

What the boundary tags are meant to say: `[start_address, end_address)` is cut into tiles, each
a block or a hole, each with a header at its start and a footer at its end. `HeapLayout s ts`
says that the memory of `s` describes the tiles `ts` and that the index of `s` lists holes of
`ts`. No operation of the heap does more than replace some neighbouring tiles by others, so
every proof that an operation keeps the layout goes through one lemma, `HeapLayout.splice`.

The first hole of the heap has no footer until it is cut for the first time: `heap_manager_init`
does not write it. It reaches the end of the heap, so no block to the right of it can miss it.
-/

namespace Xylophone

open Infra

variable {W : Type}

/-- The addresses in the index of the heap. -/
abbrev HeapState.index (s : HeapState W) : List Nat := s.heap.heapArray.array

/-- A block (`false`) or a hole (`true`) of the heap. -/
abbrev HeapTile := Tile Bool

/-- Header and footer of the tile are in memory, and long enough to stand side by side. -/
structure TileTags (m : Memory) (t : HeapTile) : Prop where
  room : 20 ≤ t.size
  header : HeaderAt m t.start t.size t.kind
  footer : FooterAt m (t.stop - 8) t.start

/-- The memory and the index of `s` describe the heap cut into the tiles `ts`. -/
structure HeapLayout (s : HeapState W) (ts : List HeapTile) : Prop where
  aligned : s.heap.startAddress % 0x1000 = 0
  start_pos : 0x1000 ≤ s.heap.startAddress
  end_lt : s.heap.endAddress < 0x100000000
  tiles : Tiles s.heap.startAddress ts s.heap.endAddress
  room : ∀ t ∈ ts, 20 ≤ t.size
  headers : ∀ t ∈ ts, HeaderAt s.mem t.start t.size t.kind
  /-- Only an indexed hole at the end of the heap may be without footer. -/
  footers : ∀ t ∈ ts, FooterAt s.mem (t.stop - 8) t.start ∨
    (t.kind = true ∧ t.stop = s.heap.endAddress ∧ t.start ∈ s.index)
  indexed : ∀ h ∈ s.index, ∃ t ∈ ts, t.start = h ∧ t.kind = true
  nodup : s.index.Nodup

theorem TileTags.frame {m m' : Memory} {t : HeapTile} {lo hi : Nat} (h : TileTags m t)
    (hag : Memory.AgreeOff lo hi m m') (hout : t.stop ≤ lo ∨ hi ≤ t.start)
    (hw : t.stop ≤ 0x100000000) : TileTags m' t := by
  have hroom := h.room
  unfold Tile.stop at *
  exact ⟨hroom, h.header.frame hag (by omega) (by omega), h.footer.frame hag
    (by unfold Tile.stop; omega) (by unfold Tile.stop; omega)⟩

/-- A header and a footer written around `size` bytes make a tile. -/
theorem tileTags_write (m : Memory) (pos size : Nat) (hole : Bool) (hroom : 20 ≤ size)
    (hw : pos + size < 0x100000000) :
    TileTags (writeFooter (writeHeader m pos size hole.toNat) (pos + size - 8) pos)
        ⟨pos, size, hole⟩ ∧
      Memory.AgreeOff pos (pos + size) m
        (writeFooter (writeHeader m pos size hole.toNat) (pos + size - 8) pos) := by
  have hh : HeaderAt (writeHeader m pos size hole.toNat) pos size hole :=
    headerAt_writeHeader m hole (by omega) (by omega)
  have ha : Memory.AgreeOff pos (pos + 12) m (writeHeader m pos size hole.toNat) :=
    agreeOff_writeHeader (Nat.le_refl _) (Nat.le_refl _) (by omega)
  generalize writeHeader m pos size hole.toNat = m1 at hh ha ⊢
  have hf : FooterAt (writeFooter m1 (pos + size - 8) pos) (pos + size - 8) pos :=
    footerAt_writeFooter m1 (by omega) (by omega)
  have ha' : Memory.AgreeOff (pos + size - 8) (pos + size) m1
      (writeFooter m1 (pos + size - 8) pos) :=
    agreeOff_writeFooter (Nat.le_refl _) (by omega) (by omega)
  exact ⟨⟨hroom, hh.frame ha' (by omega) (by omega), hf⟩,
    (ha.mono (Nat.le_refl _) (by omega)).trans (ha'.mono (by omega) (Nat.le_refl _))⟩

namespace HeapLayout

variable {s s' : HeapState W} {ts xs vs us ys : List HeapTile} {t u : HeapTile}

theorem pos (h : HeapLayout s ts) : ∀ t ∈ ts, 0 < t.size :=
  fun t ht => Nat.lt_of_lt_of_le (by decide) (h.room t ht)

theorem bounds (h : HeapLayout s ts) (ht : t ∈ ts) :
    s.heap.startAddress ≤ t.start ∧ t.stop ≤ s.heap.endAddress := h.tiles.mem_bounds ht

theorem size_headerSize (h : HeapLayout s ts) (ht : t ∈ ts) : headerSize s.mem t.start = t.size :=
  (h.headers t ht).size

/-- A tile that does not reach the end of the heap has its footer. -/
theorem tags (h : HeapLayout s ts) (ht : t ∈ ts) (hlt : t.stop < s.heap.endAddress) :
    TileTags s.mem t := by
  refine ⟨h.room t ht, h.headers t ht, ?_⟩
  rcases h.footers t ht with hf | ⟨-, he, -⟩
  · exact hf
  · omega

/-- A block has its footer. -/
theorem tags_of_block (h : HeapLayout s ts) (ht : t ∈ ts) (hk : t.kind = false) :
    TileTags s.mem t := by
  refine ⟨h.room t ht, h.headers t ht, ?_⟩
  rcases h.footers t ht with hf | ⟨he, -, -⟩
  · exact hf
  · rw [hk] at he; cases he

theorem eq_of_start (h : HeapLayout s ts) (ht : t ∈ ts) (hu : u ∈ ts) (he : t.start = u.start) :
    t = u := h.tiles.eq_of_start h.pos ht hu he

/--
**Replacing neighbouring tiles.** The tiles `vs` between `xs` and `ys` become `us`, which start
at the same place `lo`. Where something stands to the right (`ys` is not empty) the new tiles
also stop at the same place; otherwise the end of the heap may move.

Outside `[lo, top)` the memory is unchanged. The index may lose entries, and an entry it gains
is the start of a new hole.
-/
theorem splice {lo hi top : Nat} (h : HeapLayout s (xs ++ vs ++ ys))
    (hstart : s'.heap.startAddress = s.heap.startAddress)
    (hend : s'.heap.endAddress < 0x100000000)
    (hx : Tiles s.heap.startAddress xs lo) (hu : Tiles lo us hi)
    (hy : Tiles hi ys s'.heap.endAddress)
    (hlast : lo < s.heap.endAddress ∨ s.index = [])
    (hsame : ys ≠ [] → s'.heap.endAddress = s.heap.endAddress ∧ top ≤ hi)
    (hag : Memory.AgreeOff lo top s.mem s'.mem) (htags : ∀ u ∈ us, TileTags s'.mem u)
    (hidx : ∀ a ∈ s'.index, (a ∈ s.index ∧ ∀ v ∈ vs, v.start ≠ a) ∨
      ∃ u ∈ us, u.start = a ∧ u.kind = true)
    (hkeep : ∀ a ∈ s.index, (∃ y ∈ ys, y.start = a) → a ∈ s'.index)
    (hnd : s'.index.Nodup) : HeapLayout s' (xs ++ us ++ ys) := by
  have htop : lo ≤ s'.heap.endAddress := Nat.le_trans hu.le hy.le
  -- the tiles to the left and to the right keep their tags
  have hheader : ∀ t, t ∈ xs ∨ t ∈ ys → HeaderAt s'.mem t.start t.size t.kind := by
    rintro t (ht | ht)
    · have hroom := h.room t (by simp [ht])
      have hle := (hx.mem_bounds ht).2
      unfold Tile.stop at hle
      exact (h.headers t (by simp [ht])).frame hag (by omega) (by omega)
    · have hroom := h.room t (by simp [ht])
      have hle := hy.mem_bounds ht
      obtain ⟨-, hth⟩ := hsame (List.ne_nil_of_mem ht)
      unfold Tile.stop at hle
      exact (h.headers t (by simp [ht])).frame hag (by omega) (by omega)
  refine ⟨by rw [hstart]; exact h.aligned, by rw [hstart]; exact h.start_pos, hend, ?_, ?_, ?_, ?_,
    ?_, hnd⟩
  · rw [hstart]
    exact tiles_append.mpr ⟨hi, tiles_append.mpr ⟨lo, hx, hu⟩, hy⟩
  · intro t ht
    simp only [List.mem_append] at ht
    rcases ht with (ht | ht) | ht
    · exact h.room t (by simp [ht])
    · exact (htags t ht).room
    · exact h.room t (by simp [ht])
  · intro t ht
    simp only [List.mem_append] at ht
    rcases ht with (ht | ht) | ht
    · exact hheader t (Or.inl ht)
    · exact (htags t ht).header
    · exact hheader t (Or.inr ht)
  · intro t ht
    simp only [List.mem_append] at ht
    rcases ht with (ht | ht) | ht
    · -- a tile on the left does not reach the old end, or the index is empty
      have hroom := h.room t (by simp [ht])
      have hle := (hx.mem_bounds ht).2
      rcases h.footers t (by simp [ht]) with hf | ⟨-, he, hin⟩
      · unfold Tile.stop at *
        exact Or.inl (hf.frame hag (by omega) (by omega))
      · rcases hlast with hlt | hnil
        · omega
        · rw [hnil] at hin; cases hin
    · exact Or.inl (htags t ht).footer
    · have hroom := h.room t (by simp [ht])
      have hle := hy.mem_bounds ht
      obtain ⟨hee, hth⟩ := hsame (List.ne_nil_of_mem ht)
      rcases h.footers t (by simp [ht]) with hf | ⟨hk, he, hin⟩
      · unfold Tile.stop at *
        exact Or.inl (hf.frame hag (by omega) (by omega))
      · exact Or.inr ⟨hk, by rw [hee]; exact he, hkeep _ hin ⟨t, ht, rfl⟩⟩
  · intro a ha
    rcases hidx a ha with ⟨hold, hnew⟩ | ⟨u, hu, he, hk⟩
    · obtain ⟨t, ht, he, hk⟩ := h.indexed a hold
      simp only [List.mem_append] at ht
      rcases ht with (ht | ht) | ht
      · exact ⟨t, by simp [ht], he, hk⟩
      · exact absurd he (hnew t ht)
      · exact ⟨t, by simp [ht], he, hk⟩
    · exact ⟨u, by simp [hu], he, hk⟩

end HeapLayout

end Xylophone
