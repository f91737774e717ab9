import Mathlib.Data.List.Basic
import Xylophone.Infra.Memory

/-!
# Video modes

`vesa_get_modes` goes through the list of modes in the VBE info block and asks the BIOS about each of
them. The answer is written to one scratch buffer, and copied from there when the mode is taken.

The BIOS leaves the info block as it is, and answers a question about a mode always in the same way.

* `consider_keeps` — what one turn of the loop does to the modes recorded
* `vesa_get_modes_exact` — the modes recorded at the end
-/

namespace Xylophone

open Infra Memory

/-! ## Answers of the BIOS -/

/-- `vbe_mode_info_t` -/
structure VbeModeInfo where
  bytes : Vector UInt8 256
deriving DecidableEq

/-- `attributes` -/
def VbeModeInfo.attributes (info : VbeModeInfo) : Nat :=
  info.bytes[0].toNat + 0x100 * info.bytes[1].toNat

/-- `memoryModel` -/
def VbeModeInfo.memoryModel (info : VbeModeInfo) : Nat := info.bytes[27].toNat

/-- What `vbe_call` makes of `ax`: `VBE_AL` says whether the function is supported, `VBE_AH` is its
status. -/
def vbeStatus (ax : Nat) : Nat :=
  if (ax &&& 0x00FF) ≠ 0x4F then 0x4E else (ax >>> 8) &&& 0x00FF

/-- An answer: the register and, when the buffer has been written, what stands in it. A successful
call fills the buffer. -/
structure BiosReply where
  ax : Nat
  buffer : Option VbeModeInfo
  filled : vbeStatus ax = 0 → buffer.isSome

/-- Failure, or the info of a mode. -/
def BiosReply.result (reply : BiosReply) : Option VbeModeInfo :=
  if vbeStatus reply.ax = 0 then reply.buffer else none

/-! ## The source -/

/-- `VESA_MODE_SIZE` -/
def vesaModeSize : Nat := 111

/-- `vesa_mode_t` -/
structure VesaMode where
  number : Nat
  info : VbeModeInfo
deriving DecidableEq

/-- The variables of `vesa_get_modes` that the loop changes. -/
structure VesaState where
  tmp : VbeModeInfo
  modes : List VesaMode
  c : Nat

/-- `memset(.., 0, ..)` -/
def zeroModeInfo : VbeModeInfo := ⟨Vector.replicate 256 0⟩

/-- The body of the loop. -/
def VesaState.consider (bios : Nat → BiosReply) (s : VesaState) (modeNumber : Nat) : VesaState :=
  let reply := bios modeNumber
  let s := { s with tmp := reply.buffer.getD s.tmp }
  if vbeStatus reply.ax ≠ 0 then s
  else if (s.tmp.attributes &&& 0x90) ≠ 0x90 then s
  else if s.tmp.memoryModel ≠ 4 ∧ s.tmp.memoryModel ≠ 6 then s
  else if (s.modes.take s.c).any (fun mode => mode.number == modeNumber) then s
  else { s with modes := s.modes.set s.c ⟨modeNumber, s.tmp⟩, c := (s.c + 1) % 0x100 }

/-- A half word of the list. -/
def listWord (m : Memory) (list : Nat) : Nat := m.read8 list + 0x100 * m.read8 (list + 1)

/-- The loop. `list` points behind the mode number that has been read. -/
def vesaModeLoop (m : Memory) (bios : Nat → BiosReply) (limit : Nat) :
    (fuel list modeNumber : Nat) → VesaState → Option VesaState
  | 0, _, _, _ => none
  | fuel + 1, list, modeNumber, s =>
    if modeNumber ≠ 0xFFFF ∧ s.c < vesaModeSize ∧ list < limit then
      vesaModeLoop m bios limit fuel (list + 2) (listWord m list) (s.consider bios modeNumber)
    else some s

/-- `vesa_get_modes`: the modes recorded and `vesa_mode_count`, with the info block at `block`. -/
def vesaGetModes (m : Memory) (bios : Nat → BiosReply) (block : Nat) :
    Option (List VesaMode × Nat) := do
  let list := m.read32 (block + 14)
  let start : VesaState :=
    ⟨zeroModeInfo, List.replicate vesaModeSize ⟨0, zeroModeInfo⟩, 0⟩
  let s ← vesaModeLoop m bios (wrap32 (block + 512)) 0x100000000 (list + 2) (listWord m list) start
  some (s.modes, s.c)

variable {m : Memory} {bios : Nat → BiosReply} {block list w : Nat} {ws prefx : List Nat}
  {s : VesaState}

/-! ## The modes that are taken -/

/-- The query succeeds, and the mode is a linear one with packed pixels or direct colour. -/
def acceptable (bios : Nat → BiosReply) (w : Nat) : Bool :=
  match (bios w).result with
  | none => false
  | some info => (info.attributes &&& 0x90) = 0x90 ∧ (info.memoryModel = 4 ∨ info.memoryModel = 6)

/-- The distinct numbers that are taken, in the order of the list. -/
def takenModes (bios : Nat → BiosReply) (ws : List Nat) : List Nat :=
  (ws.filter (acceptable bios)).eraseDups

theorem takenModes_concat (bios : Nat → BiosReply) (ws : List Nat) (w : Nat) :
    takenModes bios (ws ++ [w]) =
      if acceptable bios w ∧ w ∉ takenModes bios ws then takenModes bios ws ++ [w]
      else takenModes bios ws := by
  unfold takenModes
  rw [List.filter_append, List.eraseDups_append]
  by_cases hw : acceptable bios w
  · have hremove : ∀ l : List Nat, [w].removeAll l = if w ∈ l then [] else [w] := by
      intro l
      simp [List.removeAll, List.filter_cons]
    rw [List.filter_cons_of_pos hw, List.filter_nil, hremove]
    by_cases hmem : w ∈ ws.filter (acceptable bios)
    · rw [if_pos hmem, if_neg (by rw [List.mem_eraseDups]; simp [hmem])]
      simp
    · rw [if_neg hmem, if_pos (by rw [List.mem_eraseDups]; exact ⟨hw, hmem⟩)]
      simp [List.eraseDups_cons]
  · rw [if_neg (by simp [hw])]
    simp [hw]

/-- The modes taken from the front of the list come first. -/
theorem takenModes_front (bios : Nat → BiosReply) (l l' : List Nat) :
    takenModes bios l <+: takenModes bios (l ++ l') := by
  unfold takenModes
  rw [List.filter_append, List.eraseDups_append]
  exact List.prefix_append _ _

/-! ## The loop -/

/-- The modes recorded after a part of the list. -/
structure RecordedModes (bios : Nat → BiosReply) (part : List Nat) (s : VesaState) : Prop where
  length : s.modes.length = vesaModeSize
  count : s.c = (takenModes bios part).length
  room : s.c ≤ vesaModeSize
  numbers : (s.modes.take s.c).map VesaMode.number = takenModes bios part
  infos : ∀ e ∈ s.modes.take s.c, (bios e.number).result = some e.info

/-- A mode that is new is recorded behind the others. -/
theorem RecordedModes.record (h : RecordedModes bios prefx s) (hroom : s.c < vesaModeSize) {w : Nat}
    {info : VbeModeInfo} (haccept : acceptable bios w) (hnew : w ∉ takenModes bios prefx)
    (hresult : (bios w).result = some info) :
    RecordedModes bios (prefx ++ [w])
      ⟨info, s.modes.set s.c ⟨w, info⟩, (s.c + 1) % 0x100⟩ := by
  have htaken := takenModes_concat bios prefx w
  rw [if_pos ⟨haccept, hnew⟩] at htaken
  have hsize : vesaModeSize = 111 := rfl
  have hcount : (s.c + 1) % 0x100 = s.c + 1 := Nat.mod_eq_of_lt (by omega)
  have hlen : s.c < (s.modes.set s.c ⟨w, info⟩).length := by
    rw [List.length_set, h.length]
    exact hroom
  have htake : (s.modes.set s.c ⟨w, info⟩).take (s.c + 1) = s.modes.take s.c ++ [⟨w, info⟩] := by
    rw [List.take_succ_eq_append_getElem hlen, List.getElem_set_self,
      List.take_set_of_le (Nat.le_refl _)]
  refine ⟨?_, ?_, ?_, ?_, ?_⟩
  · rw [List.length_set, h.length]
  · rw [hcount, htaken, List.length_append, ← h.count]
    rfl
  · rw [hcount]
    exact hroom
  · rw [hcount, htake, List.map_append, h.numbers, htaken]
    rfl
  · rw [hcount, htake]
    intro e he
    rcases List.mem_append.mp he with he | he
    · exact h.infos e he
    · obtain rfl := List.mem_singleton.mp he
      exact hresult

/-- One turn of the loop. -/
theorem consider_keeps (h : RecordedModes bios prefx s) (hroom : s.c < vesaModeSize) (w : Nat) :
    RecordedModes bios (prefx ++ [w]) (s.consider bios w) := by
  have htaken := takenModes_concat bios prefx w
  have hany : (s.modes.take s.c).any (fun mode => mode.number == w) = true ↔
      w ∈ takenModes bios prefx := by
    rw [← h.numbers]
    simp only [List.any_eq_true, List.mem_map, beq_iff_eq]
  have hskip : ∀ tmp, ¬(acceptable bios w ∧ w ∉ takenModes bios prefx) →
      RecordedModes bios (prefx ++ [w]) { s with tmp } := by
    intro tmp hnot
    rw [if_neg hnot] at htaken
    exact ⟨h.length, by rw [htaken]; exact h.count, h.room, by rw [htaken]; exact h.numbers, h.infos⟩
  by_cases hok : vbeStatus (bios w).ax = 0
  · obtain ⟨info, hinfo⟩ := Option.isSome_iff_exists.mp ((bios w).filled hok)
    have hresult : (bios w).result = some info := by rw [BiosReply.result, if_pos hok, hinfo]
    simp only [VesaState.consider, hinfo, Option.getD_some, if_neg (not_not.mpr hok)]
    by_cases haccept : acceptable bios w
    · have hinfo : (info.attributes &&& 0x90) = 0x90 ∧
          (info.memoryModel = 4 ∨ info.memoryModel = 6) := by
        simpa [acceptable, hresult] using haccept
      rw [if_neg (not_not.mpr hinfo.1), if_neg (by omega)]
      by_cases hmem : w ∈ takenModes bios prefx
      · rw [if_pos (hany.mpr hmem)]
        exact hskip info fun hcond => hcond.2 hmem
      · rw [if_neg fun h => hmem (hany.mp h)]
        exact h.record hroom haccept hmem hresult
    · have hinfo : ¬((info.attributes &&& 0x90) = 0x90 ∧
          (info.memoryModel = 4 ∨ info.memoryModel = 6)) := by
        simpa [acceptable, hresult] using haccept
      have hsame := hskip info fun hcond => haccept hcond.1
      split
      · exact hsame
      split
      · exact hsame
      · exact absurd ⟨not_not.mp ‹_›, by omega⟩ hinfo
  · simp only [VesaState.consider, if_pos hok]
    refine hskip _ fun hcond => ?_
    simp [acceptable, BiosReply.result, hok] at hcond

/-- The modes recorded at the end: no more than there is room for. -/
def RecordedAll (bios : Nat → BiosReply) (ws : List Nat) (modes : List VesaMode) (c : Nat) : Prop :=
  c = ((takenModes bios ws).take vesaModeSize).length ∧
    (modes.take c).map VesaMode.number = (takenModes bios ws).take vesaModeSize ∧
    ∀ e ∈ modes.take c, (bios e.number).result = some e.info

/-- The loop may stop when it is at the end of the list, or when there is no more room. -/
theorem RecordedModes.all {part : List Nat} (h : RecordedModes bios part s) (hpart : part <+: ws)
    (hstop : part = ws ∨ s.c = vesaModeSize) : RecordedAll bios ws s.modes s.c := by
  have hlen := h.count
  have hnumbers : takenModes bios part = (takenModes bios ws).take vesaModeSize := by
    rcases hstop with rfl | hfull
    · rw [List.take_of_length_le (by rw [← hlen]; exact h.room)]
    · obtain ⟨rest, rfl⟩ := hpart
      rw [← hfull, hlen]
      exact List.prefix_iff_eq_take.mp (takenModes_front bios part rest)
  rw [RecordedAll, ← hnumbers]
  exact ⟨hlen, h.numbers, h.infos⟩

/-- The list of modes `ws` stands inside the info block, with its end. -/
structure HoldsModes (m : Memory) (block : Nat) (ws : List Nat) : Prop where
  words : ∀ i (h : i < ws.length), listWord m (m.read32 (block + 14) + 2 * i) = ws[i]
  stop : listWord m (m.read32 (block + 14) + 2 * ws.length) = 0xFFFF
  modes : ∀ w ∈ ws, w ≠ 0xFFFF
  begins : block ≤ m.read32 (block + 14)
  ends : m.read32 (block + 14) + 2 * ws.length + 2 ≤ block + 512
  low : block + 512 < 0x100000000

theorem vesaModeLoop_all (h : HoldsModes m block ws) (fuel : Nat) {i : Nat} (hi : i ≤ ws.length)
    (hfuel : ws.length - i < fuel) (hs : RecordedModes bios (ws.take i) s) :
    ∃ s', vesaModeLoop m bios (wrap32 (block + 512)) fuel (m.read32 (block + 14) + 2 * i + 2)
      (listWord m (m.read32 (block + 14) + 2 * i)) s = some s' ∧
      RecordedAll bios ws s'.modes s'.c := by
  have hends := h.ends
  induction fuel generalizing i s with
  | zero => exact absurd hfuel (Nat.not_lt_zero _)
  | succ fuel ih =>
    rw [vesaModeLoop]
    rcases Nat.lt_or_eq_of_le hi with hlt | rfl
    · have hmode : ws[i] ≠ 0xFFFF := h.modes _ (List.getElem_mem hlt)
      rw [h.words i hlt, wrap32_of_lt h.low]
      by_cases hroom : s.c < vesaModeSize
      · have hnext := consider_keeps hs hroom ws[i]
        rw [← List.take_succ_eq_append_getElem hlt] at hnext
        rw [if_pos ⟨hmode, hroom, by omega⟩]
        have hrun := ih hlt (by omega) hnext
        rwa [wrap32_of_lt h.low] at hrun
      · rw [if_neg fun hcond => hroom hcond.2.1]
        exact ⟨s, rfl, hs.all (List.take_prefix i ws)
          (Or.inr (Nat.le_antisymm hs.room (Nat.le_of_not_lt hroom)))⟩
    · rw [h.stop, if_neg fun hcond => hcond.1 rfl]
      rw [List.take_length] at hs
      exact ⟨s, rfl, hs.all (List.prefix_refl ws) (Or.inl rfl)⟩

/-- **The modes recorded at the end**: the first 111 distinct ones that are acceptable, each with its
own info. -/
theorem vesa_get_modes_exact (h : HoldsModes m block ws) (bios : Nat → BiosReply) :
    ∃ modes count, vesaGetModes m bios block = some (modes, count) ∧
      RecordedAll bios ws modes count := by
  have hstart : RecordedModes bios (ws.take 0)
      ⟨zeroModeInfo, List.replicate vesaModeSize ⟨0, zeroModeInfo⟩, 0⟩ :=
    ⟨List.length_replicate, rfl, Nat.zero_le _, rfl, by simp⟩
  have hbegins := h.begins
  have hends := h.ends
  have hlow := h.low
  obtain ⟨s', hrun, hall⟩ :=
    vesaModeLoop_all h 0x100000000 (Nat.zero_le _) (by omega) hstart
  refine ⟨s'.modes, s'.c, ?_, hall⟩
  rw [vesaGetModes]
  simp only [Nat.mul_zero, Nat.add_zero] at hrun
  rw [hrun]
  rfl

/-- A linear mode with packed pixels. -/
def linearInfo : VbeModeInfo := ⟨((Vector.replicate 256 0).set 0 0x9B).set 27 4⟩

/-- The BIOS knows the modes from 0x100 on. -/
def someBios (mode : Nat) : BiosReply :=
  if 0x100 ≤ mode then ⟨0x004F, some linearInfo, fun _ => rfl⟩
  else ⟨0x014F, none, fun h => absurd h (by decide)⟩

/-- An info block at 0x8000 with a list behind its header, in which one mode comes twice. -/
def modeMemory : Memory :=
  ((((Memory.write32 (fun _ => 0) 0x800E 0x8022).write32 0x8022 0x01010101).write32 0x8026
    0x01030013).write32 0x802A 0xFFFF)

theorem vesa_get_modes_exact_twice : ∃ modes count,
    vesaGetModes modeMemory someBios 0x8000 = some (modes, count) ∧
      RecordedAll someBios [0x101, 0x101, 0x13, 0x103] modes count :=
  vesa_get_modes_exact ⟨by decide, by decide, by decide, by decide, by decide, by decide⟩ someBios

end Xylophone
