import Xylophone.Heap.KernelMemory

/-!
# `kernel_realloc`

A block is moved to a new one: `kernel_realloc` copies as many bytes as the new block is asked for, and
frees the old block. When the block grows, bytes behind its payload are read.

* `read8_memcpy` — what the loop of `memcpy` copies
* `AllocateStep.contents`, `freeCorrect_of_ok` — the calls of the heap keep the contents of the blocks
* `realloc_iff` — when a block is moved well
* `exists_read_outside` — a block that grows
-/

namespace Xylophone

open Infra

variable {W : Type} {ops : PagingOps W} {s s' s₁ : HeapState W} {ts ts' xs ys : List HeapTile}
  {t b : HeapTile} {n new i₀ : Nat} {m m' : Memory}

/-! ## `memcpy` -/

/-- `memcpy`: the memory after `count` turns of its loop. -/
def memcpy (m : Memory) (dest src : Nat) : (count : Nat) → Memory
  | 0 => m
  | i + 1 => (memcpy m dest src i).write8 (dest + i) ((memcpy m dest src i).read8 (src + i))

/-- The addresses that `memcpy` reads. -/
def memcpyReads (src count : Nat) : List Nat := (List.range count).map fun i => wrap32 (src + i)

variable {dest src : Nat}

/-- Nothing but the destination changes. -/
theorem agreeOff_memcpy (m : Memory) (dest src : Nat) : ∀ {count : Nat},
    dest + count ≤ 0x100000000 → Memory.AgreeOff dest (dest + count) m (memcpy m dest src count)
  | 0, _ => .refl _ _ m
  | i + 1, h =>
    ((agreeOff_memcpy m dest src (by omega)).mono (Nat.le_refl _) (by omega)).trans
      (Memory.agreeOff_write8 _ _ (by omega) (by omega) (by omega))

/-- **What `memcpy` copies**, when the source lies on one side of the destination. -/
theorem read8_memcpy (m : Memory) : ∀ {count : Nat}, dest + count ≤ 0x100000000 →
    src + count ≤ 0x100000000 → src + count ≤ dest ∨ dest + count ≤ src → ∀ k, k < count →
      (memcpy m dest src count).read8 (dest + k) = m.read8 (src + k)
  | 0, _, _, _, k, hk => absurd hk (Nat.not_lt_zero k)
  | i + 1, hdest, hsrc, hapart, k, hk => by
    rw [memcpy]
    by_cases hki : k = i
    · subst hki
      have hread : (memcpy m dest src k).read8 (src + k) = m.read8 (src + k) :=
        (agreeOff_memcpy m dest src (by omega)).read8 (by omega) (by omega)
      rw [Memory.read8_write8_self, hread, Nat.mod_eq_of_lt (Memory.read8_lt ..)]
    · rw [Memory.read8_write8_ne]
      · exact read8_memcpy m (by omega) (by omega) (by omega) k (by omega)
      · rw [wrap32_of_lt (by omega), wrap32_of_lt (by omega)]
        omega

/-! ## `kernel_realloc` -/

/-- What `kernel_realloc` leaves and returns, and the addresses its copy reads. -/
structure Reallocated (W : Type) where
  state : HeapState W
  ptr : Nat
  reads : List Nat

/-- `kernel_realloc`. -/
def kernelRealloc (ops : PagingOps W) (s : HeapState W) (ptr size i₀ : Nat) :
    Option (Reallocated W) :=
  if ptr = 0 then (kernelAmalloc ops s size).map fun r => ⟨r.1, r.2, []⟩
  else if size = 0 then some ⟨kernelFree ops s ptr i₀, 0, []⟩
  else (kernelAmalloc ops s size).map fun r =>
    if r.2 = 0 then ⟨r.1, 0, []⟩
    else
      ⟨kernelFree ops { r.1 with mem := memcpy r.1.mem r.2 ptr size } ptr i₀, r.2,
        memcpyReads ptr size⟩

/-! ## The heap below -/

/-- The payload of the block holds the same bytes. -/
def SamePayload (m m' : Memory) (b : HeapTile) : Prop :=
  ∀ k, k + 20 < b.size → m'.read8 (b.start + 12 + k) = m.read8 (b.start + 12 + k)

theorem SamePayload.trans {m'' : Memory} (h : SamePayload m m' b) (h' : SamePayload m' m'' b) :
    SamePayload m m'' b := fun k hk => (h' k hk).trans (h k hk)

theorem samePayload_of_agree {lo hi : Nat} (hag : Memory.AgreeOff lo hi m m')
    (hout : b.stop ≤ lo ∨ hi ≤ b.start) (hw : b.stop ≤ 0x100000000) : SamePayload m m' b := by
  intro k hk
  unfold Tile.stop at *
  exact hag.read8 (by omega) (by omega)

/-- The request has left the heap in order, and the blocks as they were; the block that it may have
given is a new one. -/
structure Given (s s' : HeapState W) (ts ts' : List HeapTile) (n address : Nat) : Prop where
  layout : HeapLayout s' ts'
  allocated : Allocated ts ts' n address
  contents : ∀ b ∈ ts, b.kind = false → SamePayload s.mem s'.mem b

/-- The heap serves the request for `n` bytes correctly. -/
def MallocCorrect (ops : PagingOps W) (s : HeapState W) (ts : List HeapTile) (n : Nat) : Prop :=
  ∃ s' address ts', kernelAmalloc ops s n = some (s', address) ∧ Given s s' ts ts' n address

/-- The heap frees the block `t` correctly: the others stay as they are. -/
def FreeCorrect (ops : PagingOps W) (s : HeapState W) (ts : List HeapTile) (t : HeapTile)
    (i₀ : Nat) : Prop :=
  ∃ ts', HeapLayout (kernelFree ops s (t.start + 12) i₀) ts' ∧ ∀ b ∈ ts, b.kind = false → b ≠ t →
    b ∈ ts' ∧ SamePayload s.mem (kernelFree ops s (t.start + 12) i₀).mem b

/-- A block outside of a tile keeps its contents when the tile is cut. -/
theorem CutOut.contents {i size address : Nat} {shouldAlign : Bool}
    (h : HeapLayout s (xs ++ t :: ys)) (hc : CutOut s s' xs t ys i size shouldAlign address)
    (hb : b ∈ xs ++ t :: ys) (hk : b.kind = false) : SamePayload s.mem s'.mem b := by
  have hlt := Nat.le_trans (h.bounds hb).2 (Nat.le_of_lt h.end_lt)
  refine samePayload_of_agree hc.carved.agree ?_ hlt
  rcases h.tiles.disjoint (t := t) (by simp) hb with rfl | hd | hd
  · rw [hc.kind] at hk
    cases hk
  · exact Or.inr hd
  · exact Or.inl hd

/-- The blocks of a heap that grows keep their contents. -/
theorem GrownLayout.contents {newSize : Nat} (hg : Grown s s' newSize)
    (hl : GrownLayout s s' ts xs newSize) (hb : b ∈ ts) (hk : b.kind = false) :
    b ∈ xs ∧ SamePayload s.mem s'.mem b := by
  have hx : b ∈ xs := by
    rcases hl.keep b hb with hx | ⟨hhole, -⟩
    · exact hx
    · rw [hk] at hhole
      cases hhole
  obtain ⟨hleft, -⟩ := tiles_split.mp hl.layout.tiles
  have hlt := (hl.layout.bounds (t := b) (by simp [hx])).2
  exact ⟨hx, samePayload_of_agree hg.agree (Or.inl (hleft.mem_bounds hx).2)
    (Nat.le_trans hlt (Nat.le_of_lt hl.layout.end_lt))⟩

/-- **An allocation that goes well keeps the contents of the blocks.** -/
theorem AllocateStep.contents {size address : Nat} {shouldAlign : Bool} (h : HeapLayout s ts)
    (hstep : AllocateStep s s' ts size shouldAlign address) (hb : b ∈ ts) (hk : b.kind = false) :
    SamePayload s.mem s'.mem b := by
  cases hstep with
  | refused same _ =>
    subst same
    exact fun _ _ => rfl
  | cut i xs t ys tiles _ cut =>
    subst tiles
    exact cut.contents h hb hk
  | grown xs _ _ grown layout _ _ => exact (layout.contents grown hb hk).2
  | grownCut s₁ xs i _ _ grown layout _ cut =>
    obtain ⟨hx, hsame⟩ := layout.contents grown hb hk
    exact hsame.trans (cut.contents layout.layout (by simp [hx]) hk)

theorem amalloc_cases (hops : ops.Serves) (h : HeapLayout s ts)
    (hstatus : s.heap.status = .initialized) (hok : AllocateOk s n true) :
    ∃ s' address, kernelAmalloc ops s n = some (s', address) ∧
      AllocateStep s s' ts n true address := by
  unfold kernelAmalloc heapManagerMalloc
  rw [hstatus]
  exact allocate_cases hops h hok

theorem mallocCorrect_of_ok (hops : ops.Serves) (h : HeapLayout s ts)
    (hstatus : s.heap.status = .initialized) (hok : AllocateOk s n true) :
    MallocCorrect ops s ts n := by
  obtain ⟨s', address, hcall, hstep⟩ := amalloc_cases hops h hstatus hok
  obtain ⟨ts', hlayout, hallocated⟩ := hstep.layout h
  exact ⟨s', address, ts', hcall, hlayout, hallocated, fun b hb hk => hstep.contents h hb hk⟩

theorem freeCorrect_of_ok (h : HeapLayout s ts) (hstatus : s.heap.status = .initialized)
    (ht : t ∈ ts)
    (hk : t.kind = false) (hok : FreeOk s (t.start + 12)) : FreeCorrect ops s ts t i₀ := by
  obtain ⟨xs, vs, ys, header, size, hfreed, heffect⟩ := unallocate_spec ops h ht hk hok i₀
  have hcall : kernelFree ops s (t.start + 12) i₀ = unallocate ops s (t.start + 12) i₀ :=
    if_pos hstatus
  unfold FreeCorrect
  rw [hcall]
  refine ⟨_, hfreed.layout, fun b hb hbk hne => ⟨hfreed.keep hb hbk hne, ?_⟩⟩
  have hlt := (h.bounds hb).2
  refine samePayload_of_agree heffect.agree ?_ (Nat.le_trans hlt (Nat.le_of_lt h.end_lt))
  obtain ⟨hts, hx, hv, hy, -, hmerged⟩ := hfreed.split
  rw [hts] at hb
  simp only [List.mem_append] at hb
  rcases hb with (hb | hb) | hb
  · exact Or.inl (hx.mem_bounds hb).2
  · rcases hmerged with ⟨hvs, -, -⟩ | ⟨l, hvs, -, hlk, -⟩
    · rw [hvs] at hb
      exact absurd (List.mem_singleton.mp hb) hne
    · rw [hvs] at hb
      simp only [List.mem_cons, List.not_mem_nil, or_false] at hb
      rcases hb with rfl | rfl
      · rw [hlk] at hbk
        cases hbk
      · exact absurd rfl hne
  · refine Or.inr ?_
    have hbounds := hy.mem_bounds hb
    have hroom := h.room b (by rw [hts]; simp [hb])
    rw [if_neg]
    · exact hbounds.1
    · unfold Tile.stop at *
      omega

/-! ## Moving a block -/

/-- Bytes written into the payload of a block leave the layout alone. -/
theorem HeapLayout.write_payload (h : HeapLayout s ts) (hb : b ∈ ts) (hroom : n + 20 ≤ b.size)
    (hag : Memory.AgreeOff (b.start + 12) (b.start + 12 + n) s.mem m) :
    HeapLayout { s with mem := m } ts := by
  have hend := h.end_lt
  -- a tag lies beside the payload, also that of the block itself
  have hout : ∀ u ∈ ts, u.stop < 0x100000000 ∧ 20 ≤ u.size ∧
      (u.start + 12 ≤ b.start + 12 ∨ b.start + 12 + n ≤ u.start) ∧
      (u.stop ≤ b.start + 12 ∨ b.start + 12 + n ≤ u.stop - 8) := by
    intro u hu
    have hle := (h.bounds hu).2
    have hsize := h.room u hu
    rcases h.tiles.disjoint hb hu with rfl | hd | hd
    · unfold Tile.stop at *
      omega
    · unfold Tile.stop at *
      omega
    · unfold Tile.stop at *
      omega
  refine ⟨h.aligned, h.start_pos, h.end_lt, h.tiles, h.room, fun u hu => ?_, fun u hu => ?_,
    h.indexed, h.nodup⟩
  · obtain ⟨hlt, hsize, hheader, -⟩ := hout u hu
    unfold Tile.stop at hlt
    exact (h.headers u hu).frame hag hheader (by omega)
  · obtain ⟨hlt, hsize, -, hfooter⟩ := hout u hu
    refine (h.footers u hu).imp_left fun hf => hf.frame hag ?_ ?_
    · unfold Tile.stop at *
      omega
    · omega

/-- Outside of a block, payloads are the same. -/
theorem HeapLayout.samePayload (h : HeapLayout s ts) (hb : b ∈ ts) (ht : t ∈ ts) (hne : t ≠ b)
    (hroom : n + 20 ≤ b.size) (hag : Memory.AgreeOff (b.start + 12) (b.start + 12 + n) s.mem m) :
    SamePayload s.mem m t := by
  have hlt := Nat.le_trans (h.bounds ht).2 (Nat.le_of_lt h.end_lt)
  have hag' : Memory.AgreeOff b.start b.stop s.mem m := by
    unfold Tile.stop
    exact hag.mono (by omega) (by omega)
  refine samePayload_of_agree hag' ?_ hlt
  rcases h.tiles.disjoint ht hb with he | hd | hd
  · exact absurd he hne
  · exact Or.inl hd
  · exact Or.inr hd

/-- The heap after the copy. -/
def HeapState.copied (s : HeapState W) (new ptr n : Nat) : HeapState W :=
  { s with mem := memcpy s.mem new ptr n }

/-- When the block `t` has been copied, the heap frees it correctly. -/
def FreeMovedCorrect (ops : PagingOps W) (s : HeapState W) (t : HeapTile) (n i₀ : Nat) : Prop :=
  ∀ s₁ new ts₁, kernelAmalloc ops s n = some (s₁, new) → new ≠ 0 →
    HeapLayout (s₁.copied new (t.start + 12) n) ts₁ → t ∈ ts₁ →
    FreeCorrect ops (s₁.copied new (t.start + 12) n) ts₁ t i₀

/-- `kernel_realloc` of the block `t` to `n` bytes does what it is for. -/
structure ReallocOk (s : HeapState W) (ts : List HeapTile) (t : HeapTile) (n : Nat)
    (r : Reallocated W) (ts' : List HeapTile) : Prop where
  layout : HeapLayout r.state ts'
  /-- No byte outside of the payload is read. -/
  reads : ∀ a ∈ r.reads, t.start + 12 ≤ a ∧ a < t.stop - 8
  /-- The other blocks are as they were, and so is the old one when there is no new one. -/
  blocks : ∀ b ∈ ts, b.kind = false → b ≠ t ∨ r.ptr = 0 → b ∈ ts' ∧ SamePayload s.mem r.state.mem b
  new : r.ptr ≠ 0 → ∃ b ∈ ts', b.kind = false ∧ r.ptr = b.start + 12 ∧ n + 20 ≤ b.size ∧
    ∀ k, k < min (t.size - 20) n →
      r.state.mem.read8 (r.ptr + k) = s.mem.read8 (t.start + 12 + k)

/-- The call comes back, having done that. -/
def ReallocCorrect (ops : PagingOps W) (s : HeapState W) (ts : List HeapTile) (t : HeapTile)
    (n i₀ : Nat) : Prop :=
  ∃ r ts', kernelRealloc ops s (t.start + 12) n i₀ = some r ∧ ReallocOk s ts t n r ts'

/-- No block is cut out for the request: no hole is chosen, or its payload would be at address 0. -/
def NoBlock (ops : PagingOps W) (s : HeapState W) (n : Nat) : Prop :=
  ∀ s₁ i, Chosen ops s n true s₁ i → payloadAddress true (orderedArrayGet s₁.heap.heapArray i) = 0

theorem noBlock_iff (hstatus : s.heap.status = .initialized)
    (h : kernelAmalloc ops s n = some (s', new)) : NoBlock ops s n ↔ new = 0 := by
  constructor
  · intro hnone
    by_cases hchosen : ∃ s₁ i, Chosen ops s n true s₁ i
    · obtain ⟨s₁, i, hchosen⟩ := hchosen
      rw [(hchosen.outcome hstatus h).2, carve_address]
      exact hnone s₁ i hchosen
    · exact malloc_of_not_chosen hstatus (fun s₁ i hc => hchosen ⟨s₁, i, hc⟩) h
  · intro hzero s₁ i hchosen
    have haddress := (hchosen.outcome hstatus h).2
    rw [carve_address] at haddress
    exact haddress.symm.trans hzero

theorem kernelRealloc_refused (hptr : t.start + 12 ≠ 0) (hn : 0 < n)
    (h : kernelAmalloc ops s n = some (s', 0)) :
    kernelRealloc ops s (t.start + 12) n i₀ = some ⟨s', 0, []⟩ := by
  unfold kernelRealloc
  rw [if_neg hptr, if_neg (Nat.ne_of_gt hn), h]
  rfl

theorem kernelRealloc_moved (hptr : t.start + 12 ≠ 0) (hn : 0 < n) (hnew : new ≠ 0)
    (h : kernelAmalloc ops s n = some (s', new)) :
    kernelRealloc ops s (t.start + 12) n i₀ =
      some ⟨kernelFree ops (s'.copied new (t.start + 12) n) (t.start + 12) i₀, new,
        memcpyReads (t.start + 12) n⟩ := by
  unfold kernelRealloc
  rw [if_neg hptr, if_neg (Nat.ne_of_gt hn), h]
  exact congrArg some (if_neg hnew)

/-- **A block that grows**: the bytes behind its payload are read. -/
theorem not_reallocCorrect (hlt : t.stop < 0x100000000) (hroom : 20 ≤ t.size) (hnew : new ≠ 0)
    (h : kernelAmalloc ops s n = some (s', new)) (hn : t.size < n + 20) :
    ¬ ReallocCorrect ops s ts t n i₀ := by
  rintro ⟨r, ts', hcall, hok⟩
  rw [kernelRealloc_moved (by omega) (by omega) hnew h] at hcall
  obtain rfl := Option.some.inj hcall
  have hread := hok.reads (t.stop - 8) (by
    refine List.mem_map.mpr ⟨t.size - 20, List.mem_range.mpr (by omega), ?_⟩
    unfold Tile.stop at *
    rw [wrap32_of_lt (by omega)]
    omega)
  omega

/-- **A block that does not grow** is moved well. -/
theorem Given.moved (ht : t ∈ ts) (hk : t.kind = false) (hn : n + 20 ≤ t.size)
    (hg : Given s s₁ ts ts' n new) (hnew : new ≠ 0)
    (hfree : ∀ ts₂, HeapLayout (s₁.copied new (t.start + 12) n) ts₂ → t ∈ ts₂ →
      FreeCorrect ops (s₁.copied new (t.start + 12) n) ts₂ t i₀) :
    ∃ ts₂, ReallocOk s ts t n
      ⟨kernelFree ops (s₁.copied new (t.start + 12) n) (t.start + 12) i₀, new,
        memcpyReads (t.start + 12) n⟩ ts₂ := by
  obtain ⟨b, hb, hbk, rfl, hroom, hfresh⟩ := hg.allocated.block hnew
  have htb : t ≠ b := by
    rintro rfl
    exact hfresh t ht hk rfl
  have ht' := hg.allocated.keep t ht hk
  have hbstop := (hg.layout.bounds hb).2
  have htstop := (hg.layout.bounds ht').2
  have hend := hg.layout.end_lt
  unfold Tile.stop at hbstop htstop
  have hag : Memory.AgreeOff (b.start + 12) (b.start + 12 + n) s₁.mem
      (memcpy s₁.mem (b.start + 12) (t.start + 12) n) := agreeOff_memcpy _ _ _ (by omega)
  have hcopied : HeapLayout (s₁.copied (b.start + 12) (t.start + 12) n) ts' :=
    hg.layout.write_payload hb hroom hag
  obtain ⟨ts₂, hlayout, hkeep⟩ := hfree ts' hcopied ht'
  refine ⟨ts₂, hlayout, fun a ha => ?_, fun u hu huk hor => ?_, fun _ => ?_⟩
  · obtain ⟨i, hi, rfl⟩ := List.mem_map.mp ha
    have hi := List.mem_range.mp hi
    unfold Tile.stop
    rw [wrap32_of_lt (by omega)]
    omega
  · have hut : u ≠ t := hor.resolve_right hnew
    have hu' := hg.allocated.keep u hu huk
    obtain ⟨hu₂, hsame⟩ := hkeep u hu' huk hut
    have hub : u ≠ b := by
      rintro rfl
      exact hfresh u hu huk rfl
    have hcopy : SamePayload s₁.mem (s₁.copied (b.start + 12) (t.start + 12) n).mem u :=
      hg.layout.samePayload hb hu' hub hroom hag
    exact ⟨hu₂, ((hg.contents u hu huk).trans hcopy).trans hsame⟩
  · obtain ⟨hb₂, hsame⟩ := hkeep b hb hbk (Ne.symm htb)
    refine ⟨b, hb₂, hbk, rfl, hroom, fun k hk' => ?_⟩
    have hkn : k < n := Nat.lt_of_lt_of_le hk' (Nat.min_le_right _ _)
    have hcopied : (memcpy s₁.mem (b.start + 12) (t.start + 12) n).read8 (b.start + 12 + k) =
        s₁.mem.read8 (t.start + 12 + k) := by
      refine read8_memcpy s₁.mem (by omega) (by omega) ?_ k hkn
      rcases hg.layout.tiles.disjoint ht' hb with he | hd | hd
      · exact absurd he htb
      · unfold Tile.stop at hd
        omega
      · unfold Tile.stop at hd
        omega
    calc _ = (s₁.copied (b.start + 12) (t.start + 12) n).mem.read8 (b.start + 12 + k) :=
          hsame k (by omega)
      _ = s₁.mem.read8 (t.start + 12 + k) := hcopied
      _ = s.mem.read8 (t.start + 12 + k) := hg.contents t ht hk k (by omega)

/--
**When a block is moved well.** The heap serves the request and frees the old block correctly. Then
`kernel_realloc` is correct exactly if the block does not grow or there is no block for the request.
-/
theorem realloc_iff (h : HeapLayout s ts) (hstatus : s.heap.status = .initialized) (ht : t ∈ ts)
    (hk : t.kind = false) (hn : 0 < n) (hmalloc : MallocCorrect ops s ts n)
    (hfree : FreeMovedCorrect ops s t n i₀) :
    ReallocCorrect ops s ts t n i₀ ↔ n + 20 ≤ t.size ∨ NoBlock ops s n := by
  obtain ⟨s₁, new, ts₁, hcall, hg⟩ := hmalloc
  have hroom := h.room t ht
  have hlt := Nat.lt_of_le_of_lt (h.bounds ht).2 h.end_lt
  have hptr : t.start + 12 ≠ 0 := by omega
  rw [noBlock_iff hstatus hcall]
  by_cases hnew : new = 0
  · subst hnew
    refine ⟨fun _ => Or.inr rfl, fun _ => ⟨_, ts₁, kernelRealloc_refused hptr hn hcall, hg.layout,
      by simp, fun b hb hbk _ => ⟨hg.allocated.keep b hb hbk, hg.contents b hb hbk⟩,
      fun hne => absurd rfl hne⟩⟩
  · constructor
    · intro hok
      refine Or.inl (Nat.le_of_not_lt fun hgrow => ?_)
      exact not_reallocCorrect hlt hroom hnew hcall hgrow hok
    · intro hor
      obtain ⟨ts₂, hok⟩ := hg.moved ht hk (hor.resolve_right hnew) hnew fun ts₂ =>
        hfree s₁ new ts₂ hcall hnew
      exact ⟨_, ts₂, kernelRealloc_moved hptr hn hnew hcall, hok⟩

/-! ## A block and a hole -/

theorem WellFormed.layout (h : WellFormed s ts) (haligned : s.heap.startAddress % 0x1000 = 0)
    (hstart : 0x1000 ≤ s.heap.startAddress) : HeapLayout s ts where
  aligned := haligned
  start_pos := hstart
  end_lt := h.end_lt
  tiles := h.tiles
  room := fun _ ht => h.room ht
  headers := fun t ht => (h.tags t ht).header
  footers := fun t ht => Or.inl (h.tags t ht).footer
  indexed := fun a ha => (h.index a).mp ha
  nodup := h.once

/-- A block with a payload of 16 bytes. -/
def smallBlock : HeapTile := ⟨0xC0481000, 36, false⟩

/-- The tiles of a heap with that block. -/
def blockHeapTiles : List HeapTile := [smallBlock, ⟨0xC0481024, 0x7EFDC, true⟩]

def blockHeap : HeapState Unit := heapOf 0xC0481000 0xC0500000 blockHeapTiles

theorem layout_blockHeap : HeapLayout blockHeap blockHeapTiles :=
  have htiles : Tiles 0xC0481000 blockHeapTiles 0xC0500000 := ⟨rfl, rfl, rfl⟩
  (wellFormed_heapOf htiles (by decide) (by decide) (by decide) (by decide)).layout rfl (by decide)

theorem amalloc_blockHeap (h : findSmallestHole blockHeap (wrap32 (n + 20)) true = some 0) :
    kernelAmalloc servingOps blockHeap n = some (carve blockHeap 0 n (wrap32 (n + 20)) true) :=
  (Chosen.malloc (.first h) rfl).1

/-- The heap below serves the request correctly. -/
theorem blockHeap_correct (h : findSmallestHole blockHeap (wrap32 (n + 20)) true = some 0)
    (hmalloc : AllocateOk blockHeap n true)
    (hfree : FreeOk ((carve blockHeap 0 n (wrap32 (n + 20)) true).1.copied
      (carve blockHeap 0 n (wrap32 (n + 20)) true).2 (smallBlock.start + 12) n)
      (smallBlock.start + 12)) :
    MallocCorrect servingOps blockHeap blockHeapTiles n ∧
      FreeMovedCorrect servingOps blockHeap smallBlock n 0 := by
  refine ⟨mallocCorrect_of_ok servingOps_serves layout_blockHeap rfl hmalloc, ?_⟩
  intro s₁ new ts₁ hcall _ hlayout ht
  obtain ⟨s', address, hcall', hstep⟩ :=
    amalloc_cases servingOps_serves layout_blockHeap rfl hmalloc
  obtain ⟨rfl, rfl⟩ := Prod.mk.inj (Option.some.inj (hcall'.symm.trans hcall))
  have hcarve := Option.some.inj ((amalloc_blockHeap h).symm.trans hcall)
  rw [hcarve] at hfree
  exact freeCorrect_of_ok hlayout hstep.status ht rfl hfree

theorem realloc_iff_blockHeap : ReallocCorrect servingOps blockHeap blockHeapTiles smallBlock 8 0 :=
  have hcorrect := @blockHeap_correct 8 (by decide) (by decide) (by decide)
  (realloc_iff layout_blockHeap rfl List.mem_cons_self rfl (by decide) hcorrect.1 hcorrect.2).mpr
    (Or.inl (by decide))

/-- **A block that grows from 16 bytes to 32.** -/
theorem exists_read_outside : HeapLayout blockHeap blockHeapTiles ∧
    MallocCorrect servingOps blockHeap blockHeapTiles 32 ∧
    FreeMovedCorrect servingOps blockHeap smallBlock 32 0 ∧
    ¬ ReallocCorrect servingOps blockHeap blockHeapTiles smallBlock 32 0 := by
  have hhole : findSmallestHole blockHeap (wrap32 (32 + 20)) true = some 0 := by decide
  obtain ⟨hmalloc, hfree⟩ := blockHeap_correct hhole (by decide) (by decide)
  refine ⟨layout_blockHeap, hmalloc, hfree, ?_⟩
  exact not_reallocCorrect (by decide) (by decide) (by decide) (amalloc_blockHeap hhole) (by decide)

end Xylophone
