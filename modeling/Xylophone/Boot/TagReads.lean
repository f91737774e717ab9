import Xylophone.Boot.AvailableMemory

/-!
# What `multiboot2_get_physical_memory_size` reads

The walk over the tags goes on from the sizes it finds in them, and reads `total_size` without
looking at it. Here the reads are recorded along the walk.

* `tagReads_isSome`, `mapReads_isSome` — the reads are those of the walk
* `mapReads_within_iff`, `tagReads_within_iff` — when a loop ends and stays below an address
* `memory_size_reads_iff` — when the walk ends and stays in the information structure
* `HoldsInfo.infoFits` — it does when the tags are well formed
* `exists_endless_walk` — a tag without a size
-/

namespace Xylophone

open Infra

/-- A read of some bytes. The fields of a structure have the addresses behind that of the
structure, also where that passes the end of memory. -/
structure Access where
  address : Nat
  bytes : Nat
deriving DecidableEq, Repr

/-- The read is below the address. -/
def Access.Below (stop : Nat) (r : Access) : Prop := r.address + r.bytes ≤ stop

/-- What a turn of the loop over the entries reads of its entry. -/
def entryReads (m : Memory) (a : Nat) : List Access :=
  ⟨a + 16, 4⟩ ::
    if (readEntry m a).type ≠ multibootMemoryAvailable then []
    else ⟨a, 8⟩ :: if (readEntry m a).addr = 0 then [] else [⟨a + 8, 8⟩]

/-- The reads of the loop over the entries. Its condition reads the size of the tag, and its step
the size of the entries. -/
def mapReads (m : Memory) (tag : Nat) : (fuel mmap : Nat) → Option (List Access)
  | 0, _ => none
  | fuel + 1, mmap =>
    if mmap < wrap32 (tag + m.read32 (tag + 4)) then
      (mapReads m tag fuel (wrap32 (mmap + m.read32 (tag + 8)))).map fun reads =>
        ⟨tag + 4, 4⟩ :: (entryReads m mmap ++ ⟨tag + 8, 4⟩ :: reads)
    else some [⟨tag + 4, 4⟩]

/-- The reads of the loop over the tags. -/
def tagReads (m : Memory) : (fuel tag : Nat) → Option (List Access)
  | 0, _ => none
  | fuel + 1, tag =>
    if m.read32 tag = multibootTagTypeEnd then some [⟨tag, 4⟩]
    else if m.read32 tag = multibootTagTypeMmap then
      (mapReads m tag (fuel + 1) (wrap32 (tag + 16))).map fun reads => ⟨tag, 4⟩ :: reads
    else
      (tagReads m fuel (wrap32 (tag + alignTag (m.read32 (tag + 4))))).map fun reads =>
        ⟨tag, 4⟩ :: ⟨tag + 4, 4⟩ :: reads

/-- The reads of `multiboot2_get_physical_memory_size`, of `total_size` first. -/
def memorySizeReads (m : Memory) (fuel addr : Nat) : Option (List Access) :=
  (tagReads m fuel (wrap32 (addr + 8))).map fun reads => ⟨addr, 4⟩ :: reads

/-! ## Where the walk comes -/

/-- The entry that the loop over the entries of a tag comes to in its turn `k`. -/
def entryAt (m : Memory) (tag k : Nat) : Nat := wrap32 (tag + 16 + k * m.read32 (tag + 8))

/-- The tag that the walk from `tag` on comes to in its turn `k`. -/
def tagAt (m : Memory) (tag k : Nat) : Nat :=
  (fun tag => wrap32 (tag + alignTag (m.read32 (tag + 4))))^[k] tag

/-- The entries of the tag, up to its end, are below the address. -/
def MapFits (m : Memory) (stop tag : Nat) : Prop :=
  ∃ n, wrap32 (tag + m.read32 (tag + 4)) ≤ entryAt m tag n ∧
    ∀ k < n, tag + 12 ≤ stop ∧ entryAt m tag k + 20 ≤ stop

/-- The tag is one that the walk passes, and its header is below the address. -/
def TagPasses (m : Memory) (stop tag : Nat) : Prop :=
  m.read32 tag ≠ multibootTagTypeEnd ∧ m.read32 tag ≠ multibootTagTypeMmap ∧ tag + 8 ≤ stop

/-- The tag is one that ends the walk, below the address. -/
def TagEnds (m : Memory) (stop tag : Nat) : Prop :=
  m.read32 tag = multibootTagTypeEnd ∧ tag + 4 ≤ stop ∨
    m.read32 tag = multibootTagTypeMmap ∧ tag + 8 ≤ stop ∧ MapFits m stop tag

/-- The sizes of the tags lead to an end tag or a memory map, and all that is met on the way is
below the address. -/
def TagsFit (m : Memory) (stop tag : Nat) : Prop :=
  ∃ n, TagEnds m stop (tagAt m tag n) ∧ ∀ k < n, TagPasses m stop (tagAt m tag k)

variable {m : Memory} {addr tag fuel stop a memory : Nat}

@[simp] theorem tagAt_zero : tagAt m tag 0 = tag := rfl

theorem tagAt_succ (k : Nat) : tagAt m tag (k + 1) =
    tagAt m (wrap32 (tag + alignTag (m.read32 (tag + 4)))) k := Function.iterate_succ_apply _ _ _

theorem entryAt_succ (k : Nat) :
    entryAt m tag (k + 1) = wrap32 (entryAt m tag k + m.read32 (tag + 8)) := by
  unfold entryAt wrap32
  rw [Nat.mod_add_mod, Nat.add_mul, Nat.one_mul, ← Nat.add_assoc]

/-! ## The reads are those of the walk -/

theorem mapReads_isSome : (mapReads m tag fuel a).isSome =
    (sumEntries m (m.read32 (tag + 8)) (wrap32 (tag + m.read32 (tag + 4))) fuel a memory).isSome := by
  induction fuel generalizing a memory with
  | zero => rfl
  | succ fuel ih =>
    unfold mapReads sumEntries
    split
    · rw [Option.isSome_map]
      exact ih
    · rfl

theorem tagReads_isSome :
    (tagReads m fuel tag).isSome = (walkTags m fuel tag memory).isSome := by
  induction fuel generalizing tag with
  | zero => rfl
  | succ fuel ih =>
    unfold tagReads walkTags
    by_cases hend : m.read32 tag = multibootTagTypeEnd
    · simp [hend]
    · by_cases hmmap : m.read32 tag = multibootTagTypeMmap
      · rw [if_neg hend, if_pos hmmap, Option.isSome_map]
        simp only [hmmap, if_true]
        exact mapReads_isSome
      · rw [if_neg hend, if_neg hmmap, Option.isSome_map]
        simp only [hend, hmmap, if_false]
        exact ih

/-- **The reads are recorded when the function returns.** -/
theorem memorySizeReads_isSome : (memorySizeReads m fuel addr).isSome =
    (multiboot2GetPhysicalMemorySize m fuel addr memory).isSome := by
  unfold memorySizeReads
  rw [Option.isSome_map]
  exact tagReads_isSome

/-! ## The loop over the entries -/

theorem entryReads_below_iff : (∀ r ∈ entryReads m a, r.Below stop) ↔ a + 20 ≤ stop := by
  constructor
  · exact fun h => h ⟨a + 16, 4⟩ List.mem_cons_self
  · intro h r hr
    unfold entryReads at hr
    rcases List.mem_cons.mp hr with rfl | hr
    · exact h
    · split at hr
      · cases hr
      · rcases List.mem_cons.mp hr with rfl | hr
        · show a + 8 ≤ stop
          omega
        · split at hr
          · cases hr
          · obtain rfl := List.mem_singleton.mp hr
            show a + 8 + 8 ≤ stop
            omega

/-- The loop over the entries reads the size of the tag. -/
theorem size_mem_mapReads {reads : List Access} (h : mapReads m tag fuel a = some reads) :
    ⟨tag + 4, 4⟩ ∈ reads := by
  cases fuel with
  | zero => cases h
  | succ fuel =>
    unfold mapReads at h
    split at h
    · obtain ⟨rest, -, rfl⟩ := Option.map_eq_some_iff.mp h
      exact List.mem_cons_self
    · obtain rfl := Option.some.inj h
      exact List.mem_cons_self

/-- **The loop over the entries** ends below the address when the entries it meets are there. -/
theorem mapReads_within_iff (htag : tag + 8 ≤ stop) (k : Nat) :
    (∃ fuel reads, mapReads m tag fuel (entryAt m tag k) = some reads ∧
        ∀ r ∈ reads, r.Below stop) ↔
      ∃ n, wrap32 (tag + m.read32 (tag + 4)) ≤ entryAt m tag (k + n) ∧
        ∀ j < n, tag + 12 ≤ stop ∧ entryAt m tag (k + j) + 20 ≤ stop := by
  constructor
  · rintro ⟨fuel, reads, hreads, hbelow⟩
    induction fuel generalizing k reads with
    | zero => cases hreads
    | succ fuel ih =>
      unfold mapReads at hreads
      split at hreads
      · obtain ⟨rest, hrest, rfl⟩ := Option.map_eq_some_iff.mp hreads
        rw [← entryAt_succ] at hrest
        simp only [List.forall_mem_cons, List.forall_mem_append] at hbelow
        obtain ⟨-, hentry, hsize, hrestBelow⟩ := hbelow
        obtain ⟨n, hend, hall⟩ := ih (k + 1) rest hrest hrestBelow
        refine ⟨n + 1, by rwa [show k + (n + 1) = k + 1 + n by omega], ?_⟩
        rintro (_ | j) hj
        · exact ⟨hsize, entryReads_below_iff.mp hentry⟩
        · rw [show k + (j + 1) = k + 1 + j by omega]
          exact hall j (Nat.lt_of_succ_lt_succ hj)
      · next hend => exact ⟨0, not_lt.mp hend, fun j hj => absurd hj (Nat.not_lt_zero j)⟩
  · rintro ⟨n, hend, hall⟩
    induction n generalizing k with
    | zero =>
      refine ⟨1, [⟨tag + 4, 4⟩], ?_, ?_⟩
      · unfold mapReads
        exact if_neg (not_lt.mpr hend)
      · simpa [Access.Below] using htag
    | succ n ih =>
      by_cases hlt : entryAt m tag k < wrap32 (tag + m.read32 (tag + 4))
      · obtain ⟨fuel, rest, hrest, hbelow⟩ := ih (k + 1)
          (by rwa [show k + 1 + n = k + (n + 1) by omega])
          (fun j hj => by
            rw [show k + 1 + j = k + (j + 1) by omega]
            exact hall (j + 1) (Nat.succ_lt_succ hj))
        obtain ⟨hsize, hentry⟩ := hall 0 (Nat.succ_pos n)
        refine ⟨fuel + 1, ⟨tag + 4, 4⟩ :: (entryReads m (entryAt m tag k) ++ ⟨tag + 8, 4⟩ :: rest),
          ?_, ?_⟩
        · unfold mapReads
          rw [if_pos hlt, ← entryAt_succ, hrest]
          rfl
        · simp only [List.forall_mem_cons, List.forall_mem_append]
          exact ⟨htag, entryReads_below_iff.mpr hentry, hsize, hbelow⟩
      · refine ⟨1, [⟨tag + 4, 4⟩], ?_, ?_⟩
        · unfold mapReads
          exact if_neg hlt
        · simpa [Access.Below] using htag

theorem entryAt_zero : entryAt m tag 0 = wrap32 (tag + 16) := by
  unfold entryAt
  rw [Nat.zero_mul, Nat.add_zero]

theorem mapFits_iff (htag : tag + 8 ≤ stop) : MapFits m stop tag ↔
    ∃ fuel reads, mapReads m tag fuel (wrap32 (tag + 16)) = some reads ∧
      ∀ r ∈ reads, r.Below stop := by
  rw [← entryAt_zero, mapReads_within_iff htag 0]
  simp only [MapFits, Nat.zero_add]

/-! ## The loop over the tags -/

/-- **The loop over the tags** ends below the address when the tags it meets are there. -/
theorem tagReads_within_iff :
    (∃ fuel reads, tagReads m fuel tag = some reads ∧ ∀ r ∈ reads, r.Below stop) ↔
      TagsFit m stop tag := by
  constructor
  · rintro ⟨fuel, reads, hreads, hbelow⟩
    induction fuel generalizing tag reads with
    | zero => cases hreads
    | succ fuel ih =>
      unfold tagReads at hreads
      split at hreads
      · next hend =>
        obtain rfl := Option.some.inj hreads
        exact ⟨0, Or.inl ⟨hend, hbelow _ List.mem_cons_self⟩, fun k hk => absurd hk (by omega)⟩
      · next hend =>
        split at hreads
        · next hmmap =>
          obtain ⟨rest, hrest, rfl⟩ := Option.map_eq_some_iff.mp hreads
          have hrestBelow := (List.forall_mem_cons.mp hbelow).2
          have hsize : tag + 8 ≤ stop := hrestBelow _ (size_mem_mapReads hrest)
          exact ⟨0, Or.inr ⟨hmmap, hsize, (mapFits_iff hsize).mpr ⟨_, rest, hrest, hrestBelow⟩⟩,
            fun k hk => absurd hk (by omega)⟩
        · next hmmap =>
          obtain ⟨rest, hrest, rfl⟩ := Option.map_eq_some_iff.mp hreads
          simp only [List.forall_mem_cons] at hbelow
          obtain ⟨-, hsize, hrestBelow⟩ := hbelow
          obtain ⟨n, hends, hpasses⟩ := ih rest hrest hrestBelow
          refine ⟨n + 1, by rwa [tagAt_succ], ?_⟩
          rintro (_ | k) hk
          · exact ⟨hend, hmmap, hsize⟩
          · rw [tagAt_succ]
            exact hpasses k (Nat.lt_of_succ_lt_succ hk)
  · rintro ⟨n, hends, hpasses⟩
    induction n generalizing tag with
    | zero =>
      rcases hends with ⟨hend, hbelow⟩ | ⟨hmmap, hsize, hfits⟩
      · refine ⟨1, [⟨tag, 4⟩], ?_, by simpa [Access.Below] using hbelow⟩
        unfold tagReads
        exact if_pos hend
      · obtain ⟨fuel, rest, hrest, hbelow⟩ := (mapFits_iff hsize).mp hfits
        cases fuel with
        | zero => cases hrest
        | succ fuel =>
          refine ⟨fuel + 1, ⟨tag, 4⟩ :: rest, ?_, ?_⟩
          · unfold tagReads
            rw [tagAt_zero] at *
            rw [hrest, hmmap, if_neg (by decide), if_pos rfl]
            rfl
          · exact List.forall_mem_cons.mpr
              ⟨(Nat.add_le_add_left (by decide : 4 ≤ 8) tag).trans hsize, hbelow⟩
    | succ n ih =>
      obtain ⟨hend, hmmap, hsize⟩ := hpasses 0 (Nat.succ_pos n)
      rw [tagAt_zero] at hend hmmap hsize
      rw [tagAt_succ] at hends
      obtain ⟨fuel, rest, hrest, hbelow⟩ := ih hends fun k hk => by
        rw [← tagAt_succ]
        exact hpasses (k + 1) (Nat.succ_lt_succ hk)
      refine ⟨fuel + 1, ⟨tag, 4⟩ :: ⟨tag + 4, 4⟩ :: rest, ?_, ?_⟩
      · unfold tagReads
        rw [if_neg hend, if_neg hmmap, hrest]
        rfl
      · simp only [List.forall_mem_cons]
        exact ⟨(Nat.add_le_add_left (by decide : 4 ≤ 8) tag).trans hsize, hsize, hbelow⟩

/-! ## The information structure -/

/-- `total_size`, the first field of the information structure. -/
def totalSize (m : Memory) (addr : Nat) : Nat := m.read32 addr

/-- The sizes in the information structure keep to it. -/
def InfoFits (m : Memory) (addr : Nat) : Prop :=
  addr + 4 ≤ addr + totalSize m addr ∧
    TagsFit m (addr + totalSize m addr) (wrap32 (addr + 8))

/-- The function returns, and what it read is below the end of the information structure. -/
def ReadsInfo (m : Memory) (addr memory : Nat) : Prop :=
  ∃ fuel reads, (multiboot2GetPhysicalMemorySize m fuel addr memory).isSome ∧
    memorySizeReads m fuel addr = some reads ∧
    ∀ r ∈ reads, r.Below (addr + totalSize m addr)

theorem readsInfo_iff : ReadsInfo m addr memory ↔ InfoFits m addr := by
  unfold InfoFits
  rw [← tagReads_within_iff]
  constructor
  · rintro ⟨fuel, reads, -, hreads, hbelow⟩
    obtain ⟨rest, hrest, rfl⟩ := Option.map_eq_some_iff.mp hreads
    obtain ⟨hsize, hall⟩ := List.forall_mem_cons.mp hbelow
    exact ⟨hsize, fuel, rest, hrest, hall⟩
  · rintro ⟨hsize, fuel, rest, hrest, hall⟩
    have hreads : memorySizeReads m fuel addr = some (⟨addr, 4⟩ :: rest) :=
      Option.map_eq_some_iff.mpr ⟨rest, hrest, rfl⟩
    refine ⟨fuel, _, ?_, hreads, List.forall_mem_cons.mpr ⟨hsize, hall⟩⟩
    rw [← memorySizeReads_isSome, hreads]
    rfl

/-- **The reads of the function.** For every contents of memory, the function returns without
reading at or beyond the end of the information structure, if and only if the sizes in the
structure lead to an end tag or a memory map with its entries inside. -/
theorem memory_size_reads_iff (m : Memory) (addr memory : Nat) :
    (∃ fuel reads, (multiboot2GetPhysicalMemorySize m fuel addr memory).isSome ∧
        memorySizeReads m fuel addr = some reads ∧
        ∀ r ∈ reads, r.address + r.bytes ≤ addr + totalSize m addr) ↔
      InfoFits m addr := readsInfo_iff

/-! ## Well-formed tags -/

/-- A memory map with all its entries. -/
theorem mapFits_holds {entrySize n : Nat} (hread : m.read32 (tag + 8) = entrySize)
    (hsize : m.read32 (tag + 4) = 16 + entrySize * n) (hentry : 24 ≤ entrySize)
    (hfits : tag + 16 + entrySize * n + 8 ≤ stop) (hstop : stop ≤ 0x100000000) :
    MapFits m stop tag := by
  have hat : ∀ k ≤ n, entryAt m tag k = tag + 16 + entrySize * k := by
    intro k hk
    have hle : entrySize * k ≤ entrySize * n := Nat.mul_le_mul_left _ hk
    unfold entryAt
    rw [hread, Nat.mul_comm k, wrap32_of_lt (by omega)]
  refine ⟨n, ?_, fun k hk => ?_⟩
  · rw [hat n (Nat.le_refl n), hsize, wrap32_of_lt (by omega), Nat.add_assoc]
  · have hle : entrySize * (k + 1) ≤ entrySize * n := Nat.mul_le_mul_left _ hk
    rw [Nat.mul_succ] at hle
    rw [hat k hk.le]
    omega

/-- Tags that are well formed lead to their end tag or to a memory map. -/
theorem HoldsTags.tagsFit {tags : List MultibootTag} (h : HoldsTags m a tags)
    (hfits : a + spanTags tags + 8 ≤ stop) (hstop : stop ≤ 0x100000000) : TagsFit m stop a := by
  induction tags generalizing a with
  | nil =>
    refine ⟨0, Or.inl ⟨h, ?_⟩, fun k hk => absurd hk (Nat.not_lt_zero k)⟩
    show a + 4 ≤ stop
    omega
  | cons t ts ih =>
    obtain ⟨htype, hsize, hheld, hrest⟩ := h
    rw [show spanTags (t :: ts) = t.span + spanTags ts from List.sum_cons] at hfits
    have hspan : t.size ≤ t.span := by
      unfold MultibootTag.span
      omega
    cases t with
    | mmap entrySize entries =>
      obtain ⟨hentry, hread, -⟩ := hheld
      rw [show MultibootTag.size (.mmap entrySize entries) = 16 + entrySize * entries.length from rfl]
        at hsize hspan
      have hheader : a + 8 ≤ stop := by omega
      have hmap : MapFits m stop a := mapFits_holds hread hsize hentry (by omega) hstop
      exact ⟨0, Or.inr ⟨htype, hheader, hmap⟩, fun k hk => absurd hk (Nat.not_lt_zero k)⟩
    | other type size =>
      obtain ⟨hend, hmmap, hpos⟩ := hheld
      have hstep : wrap32 (a + alignTag (m.read32 (a + 4))) =
          a + MultibootTag.span (.other type size) := by
        rw [hsize, alignTag_size _ (by omega), wrap32_of_lt (by omega)]
      obtain ⟨n, hends, hpasses⟩ := ih hrest (by omega)
      refine ⟨n + 1, by rwa [tagAt_succ, hstep], ?_⟩
      rintro (_ | k) hk
      · rw [show MultibootTag.size (.other type size) = size from rfl] at hspan
        exact ⟨by rwa [tagAt_zero, htype], by rwa [tagAt_zero, htype], by rw [tagAt_zero]; omega⟩
      · rw [tagAt_succ, hstep]
        exact hpasses k (Nat.lt_of_succ_lt_succ hk)

/-- **A well-formed information structure** is read inside its bounds. -/
theorem HoldsInfo.infoFits {tags : List MultibootTag} (h : HoldsInfo m addr tags)
    (htotal : 8 + spanTags tags + 8 ≤ totalSize m addr)
    (hmemory : addr + totalSize m addr ≤ 0x100000000) : InfoFits m addr := by
  have hheader : addr + 8 + spanTags tags + 8 ≤ addr + totalSize m addr := by omega
  refine ⟨by omega, ?_⟩
  rw [wrap32_of_lt (by omega)]
  exact h.held.tagsFit hheader hmemory

/-! ## A tag without a size -/

/-- A tag without a size, at address 0x10008. The block has 24 bytes, with an end tag. -/
def endlessMemory : Memory := memoryOfWords 0x10000 [24, 0, 1, 0, 0, 8]

theorem tagAt_endlessMemory (k : Nat) : tagAt endlessMemory 0x10008 k = 0x10008 := by
  induction k with
  | zero => rfl
  | succ k ih =>
    rw [tagAt_succ]
    exact ih

/-- **A tag without a size.** The walk stays at it for ever. -/
theorem exists_endless_walk :
    ¬ ∀ (m : Memory) (addr memory : Nat),
      ∃ fuel reads, (multiboot2GetPhysicalMemorySize m fuel addr memory).isSome ∧
        memorySizeReads m fuel addr = some reads ∧
        ∀ r ∈ reads, r.address + r.bytes ≤ addr + totalSize m addr := by
  intro hall
  obtain ⟨-, n, hends, -⟩ := readsInfo_iff.mp (hall endlessMemory 0x10000 0)
  rw [show wrap32 (0x10000 + 8) = 0x10008 from rfl, tagAt_endlessMemory] at hends
  rcases hends with ⟨hend, -⟩ | ⟨hmmap, -⟩
  · exact absurd hend (by decide)
  · exact absurd hmmap (by decide)

end Xylophone
