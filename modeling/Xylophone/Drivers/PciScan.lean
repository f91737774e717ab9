import Mathlib.Data.List.Range
import Mathlib.Data.Set.Card
import Xylophone.Drivers.Pci

/-!
# What the scan of the PCI bus finds

The scan is a depth-first search: its nodes are the buses, the items of a bus are the functions
present on it, and a bridge leads to the buses of its range. The loop over that range counts with
8 bits, so it never ends when the range goes up to bus 255.

* `pciScanBus_refines` — the scan is the search
* `scanEnds_iff` — the scan ends exactly when no bridge that the search meets has a range up to
  bus 255
* `pciScan_exact` — when no bridge has such a range, no function is recorded twice, and the
  functions recorded are those of the buses that bridges lead to, if there is room for them
-/

namespace Xylophone

open Infra

/-! ## The buses as a graph -/

section Graph

variable (cfg : ConfigSpace)

/-- The functions present on a bus, in the order in which the code looks at them. -/
def busFunctions (bus : Nat) : List PciFunction :=
  (List.range 32).flatMap fun slot =>
    if pciRead16 cfg bus slot 0 0x00 = 0xFFFF then []
    else ((List.range (slotFunctions cfg bus slot)).filter fun func =>
      pciRead16 cfg bus slot func 0x00 ≠ 0xFFFF).map fun func => (bus, slot, func)

/-- The record of a function, before a driver is found. -/
def deviceOf (k : PciFunction) : PciDevice := pciDecodeDevice cfg k.1 k.2.1 k.2.2

/-- The function is a bridge to other buses. -/
def IsBridge (k : PciFunction) : Prop := (deviceOf cfg k).headerType = headerTypePciToPci

instance : DecidablePred (IsBridge cfg) := fun k =>
  inferInstanceAs (Decidable ((deviceOf cfg k).headerType = headerTypePciToPci))

/-- The buses behind a bridge. -/
def busesBehind (k : PciFunction) : List Nat :=
  if IsBridge cfg k then
    List.range' (deviceOf cfg k).secondaryBus
      ((deviceOf cfg k).subordinateBus + 1 - (deviceOf cfg k).secondaryBus)
  else []

/-- The buses, the functions on them and what is behind these. -/
def pciGraph : Infra.Graph Nat PciFunction where
  items := busFunctions cfg
  next := busesBehind cfg

/-- The loop over the buses behind the bridge does not end. -/
def hangs (k : PciFunction) : Bool :=
  IsBridge cfg k && (deviceOf cfg k).subordinateBus = 0xFF

end Graph

variable {cfg : ConfigSpace} {drivers : List PciDriver} {s s' s'' : PciState} {k : PciFunction}
  {bus : Nat}

theorem mem_busesBehind {c : Nat} : c ∈ busesBehind cfg k ↔ IsBridge cfg k ∧
    (deviceOf cfg k).secondaryBus ≤ c ∧ c ≤ (deviceOf cfg k).subordinateBus := by
  unfold busesBehind
  split
  · next hbridge =>
    rw [List.mem_range'_1]
    refine Iff.trans ?_ (and_iff_right hbridge).symm
    omega
  · next hbridge => exact iff_of_false List.not_mem_nil fun h => hbridge h.1

theorem headerByte_lt (dev : PciDevice) (offset : Nat) : dev.headerByte offset < 0x100 :=
  Nat.and_lt_two_pow _ (show 0xFF < 2 ^ 8 by decide)

/-! ## The loop over the buses behind a bridge -/

/-- A bound of 255 is never passed. -/
theorem busLoop_hangs (scan : PciState → Nat → Option PciState) (fuel : Nat) {b : Nat}
    (hb : b < 0x100) (s : PciState) : busLoop scan 0xFF fuel b s = none := by
  induction fuel generalizing b s with
  | zero => rfl
  | succ fuel ih =>
    rw [busLoop, if_pos (by omega)]
    cases scan s b with
    | none => rfl
    | some s' => exact ih (Nat.mod_lt _ (by decide)) s'

/-- Below that, the loop takes the buses of the range one after the other. -/
theorem busLoop_eq (scan : PciState → Nat → Option PciState) {sub : Nat} (hsub : sub < 0xFF)
    {fuel b : Nat} (hfuel : sub + 1 - b < fuel) (s : PciState) :
    busLoop scan sub fuel b s = (List.range' b (sub + 1 - b)).foldlM scan s := by
  induction fuel generalizing b s with
  | zero => exact absurd hfuel (Nat.not_lt_zero _)
  | succ fuel ih =>
    rw [busLoop]
    split
    · next hle =>
      rw [show sub + 1 - b = sub + 1 - (b + 1) + 1 by omega, List.range'_succ, List.foldlM_cons,
        Nat.mod_eq_of_lt (by omega)]
      cases scan s b with
      | none => rfl
      | some s' => exact ih (by omega) s'
    · next hgt =>
      rw [show sub + 1 - b = 0 by omega]
      rfl

/-! ## The functions of a bus -/

/-- The loops over slots and functions register the functions present. -/
theorem pciScanSlots_eq (scan : PciState → Nat → Option PciState) (m bus : Nat) (s : PciState) :
    (List.range 32).foldlM (pciScanSlot cfg drivers scan m bus) s
      = (busFunctions cfg bus).foldlM
          (fun s k => pciRegisterDevice cfg drivers scan m s k.1 k.2.1 k.2.2) s := by
  rw [busFunctions, foldlM_flatMap]
  congr 1
  funext s slot
  unfold pciScanSlot
  split
  · rfl
  · rw [List.foldlM_map, List.foldlM_filter]
    congr 1
    funext s func
    by_cases h : pciRead16 cfg bus slot func 0x00 = 0xFFFF
    · simp [h]
    · simp [h]

theorem busFunctions_bus (h : k ∈ busFunctions cfg bus) : k.1 = bus := by
  obtain ⟨slot, -, hk⟩ := List.mem_flatMap.mp h
  split at hk
  · cases hk
  · obtain ⟨func, -, rfl⟩ := List.mem_map.mp hk
    rfl

theorem mem_slotFunctions {slot : Nat} (h : k ∈ if pciRead16 cfg bus slot 0 0x00 = 0xFFFF then []
      else ((List.range (slotFunctions cfg bus slot)).filter fun func =>
        pciRead16 cfg bus slot func 0x00 ≠ 0xFFFF).map fun func => (bus, slot, func)) :
    k.2.1 = slot := by
  split at h
  · cases h
  · obtain ⟨func, -, rfl⟩ := List.mem_map.mp h
    rfl

theorem busFunctions_nodup (cfg : ConfigSpace) (bus : Nat) : (busFunctions cfg bus).Nodup := by
  refine List.nodup_flatMap.mpr ⟨fun slot _ => ?_, ?_⟩
  · split
    · exact List.nodup_nil
    · refine (List.nodup_range.filter _).map fun a b h => ?_
      exact (Prod.mk.inj (Prod.mk.inj h).2).2
  · refine List.nodup_range.imp fun {a b} hab => ?_
    intro k ha hb
    exact hab ((mem_slotFunctions ha).symm.trans (mem_slotFunctions hb))

/-! ## The scan refines the search -/

/-- The buses scanned and the functions recorded. -/
def PciState.search (s : PciState) : Search Nat PciFunction := ⟨s.scannedBus, s.keys⟩

/-- Only functions recorded are marked as decoded, and the buses of those are marked as scanned. -/
structure PciOk (s : PciState) : Prop where
  decoded : ∀ k, s.decoded k = true → k ∈ s.keys
  scanned : ∀ k ∈ s.keys, s.scannedBus k.1 = true

/-- What part of the scan does that began when the buses marked in `s` were scanned or being
scanned, and that is to register the functions `own`. -/
structure Scanned (s s' : PciState) (own : List PciFunction) : Prop where
  ok : PciOk s'
  buses : ∀ b, s.scannedBus b = true → s'.scannedBus b = true
  keys : ∃ new, s'.keys = s.keys ++ new ∧ ∀ k ∈ new, k ∈ own ∨ s.scannedBus k.1 = false

theorem Scanned.refl (h : PciOk s) : Scanned s s [] :=
  ⟨h, fun _ => id, [], (List.append_nil _).symm, nofun⟩

theorem Scanned.trans {own own' : List PciFunction} (h : Scanned s s' own)
    (h' : Scanned s' s'' own') : Scanned s s'' (own ++ own') := by
  obtain ⟨new, hnew, hall⟩ := h.keys
  obtain ⟨new', hnew', hall'⟩ := h'.keys
  refine ⟨h'.ok, fun b hb => h'.buses b (h.buses b hb), new ++ new',
    by rw [hnew', hnew, List.append_assoc], fun k hk => ?_⟩
  obtain hk | hk := List.mem_append.mp hk
  · exact (hall k hk).imp (List.mem_append_left _) id
  · refine (hall' k hk).imp (List.mem_append_right _) fun hunseen => ?_
    refine Bool.eq_false_iff.mpr fun hs => ?_
    rw [h.buses _ hs] at hunseen
    cases hunseen

/-- The scan of a part and the search of it end together, with the same result. -/
def Refines (own : List PciFunction) (s : PciState) (r : Option PciState)
    (r' : Option (Search Nat PciFunction)) : Prop :=
  r.map PciState.search = r' ∧ ∀ s', r = some s' → Scanned s s' own

theorem Refines.cases {own : List PciFunction} {r : Option PciState}
    {r' : Option (Search Nat PciFunction)} (h : Refines own s r r') :
    r = none ∧ r' = none ∨ ∃ s', r = some s' ∧ r' = some s'.search ∧ Scanned s s' own := by
  obtain ⟨heq, hscanned⟩ := h
  cases r with
  | none => exact Or.inl ⟨rfl, heq.symm⟩
  | some s' => exact Or.inr ⟨s', rfl, heq.symm, hscanned s' rfl⟩

/-- Two parts of the scan, one after the other. -/
theorem Refines.bind {own own' : List PciFunction} {r : Option PciState}
    {r' : Option (Search Nat PciFunction)} (h : Refines own s r r')
    {f : PciState → Option PciState} {f' : Search Nat PciFunction → Option (Search Nat PciFunction)}
    (hf : ∀ s', Scanned s s' own → Refines own' s' (f s') (f' s'.search)) :
    Refines (own ++ own') s (r.bind f) (r'.bind f') := by
  obtain ⟨rfl, rfl⟩ | ⟨s', rfl, rfl, hscanned⟩ := h.cases
  · exact ⟨rfl, nofun⟩
  · have hrest := hf s' hscanned
    exact ⟨hrest.1, fun s'' hs'' => hscanned.trans (hrest.2 s'' hs'')⟩

/-- A loop over buses. -/
theorem refines_buses {scan : PciState → Nat → Option PciState}
    {go : Search Nat PciFunction → Nat → Option (Search Nat PciFunction)}
    (h : ∀ s b, PciOk s → Refines [] s (scan s b) (go s.search b)) (l : List Nat) (hs : PciOk s) :
    Refines [] s (l.foldlM scan s) (l.foldlM go s.search) := by
  induction l generalizing s with
  | nil => exact ⟨rfl, fun s' hs' => by obtain rfl := Option.some.inj hs'; exact Scanned.refl hs⟩
  | cons b l ih =>
    rw [List.foldlM_cons, List.foldlM_cons]
    exact (h s b hs).bind fun s' hscanned => ih hscanned.ok

/-- The function is entered among the devices. -/
theorem scanned_enter (hs : PciOk s) (hseen : s.scannedBus k.1 = true) :
    (s.enter (deviceOf cfg k)).keys = s.keys ++ [k] ∧
      Scanned s (s.enter (deviceOf cfg k)) [k] := by
  have hkeys : (s.enter (deviceOf cfg k)).keys = s.keys ++ [k] := by
    unfold PciState.keys PciState.enter
    rw [List.map_append, List.map_singleton]
    rfl
  refine ⟨hkeys, ⟨fun k' hk' => ?_, fun k' hk' => ?_⟩, fun _ => id, [k], hkeys, fun _ => Or.inl⟩
  · rw [hkeys]
    unfold PciState.enter at hk'
    dsimp only at hk'
    split at hk'
    · by_cases heq : k' = k
      · exact List.mem_append_right _ (List.mem_singleton.mpr heq)
      · have hne : k' ≠ (deviceOf cfg k).key := heq
        rw [Function.update_of_ne hne] at hk'
        exact List.mem_append_left _ (hs.decoded k' hk')
    · exact List.mem_append_left _ (hs.decoded k' hk')
  · rw [hkeys] at hk'
    obtain hk' | hk' := List.mem_append.mp hk'
    · exact hs.scanned k' hk'
    · rw [List.mem_singleton.mp hk']
      exact hseen

/-- A driver is found for a device: its place and its key stay. -/
theorem keys_setDriver {i : Nat} {dev : PciDevice} (h : s.keys[i]? = some dev.key) :
    (s.devices.set i (pciRegisterDeviceToDriver drivers dev)).map PciDevice.key = s.keys := by
  have hkey : (pciRegisterDeviceToDriver drivers dev).key = dev.key := by
    unfold pciRegisterDeviceToDriver
    split <;> rfl
  rw [List.map_set, hkey]
  refine List.ext_getElem? fun j => ?_
  rw [List.getElem?_set]
  split
  · next hij =>
    subst hij
    split
    · exact h.symm
    · next hout =>
      show none = (s.devices.map PciDevice.key)[i]?
      exact (List.getElem?_eq_none (Nat.not_lt.mp hout)).symm
  · rfl

/-- The last step of a registration: the driver of the device is looked for. -/
theorem refines_setDriver {r : Option PciState} {r' : Option (Search Nat PciFunction)}
    (hseen : PciOk s ∧ s.scannedBus k.1 = true)
    (h : Refines [] (s.enter (deviceOf cfg k)) r r') :
    Refines [k] s (r.map fun s' => { s' with
      devices := s'.devices.set s.devices.length
        (pciRegisterDeviceToDriver drivers (deviceOf cfg k)) }) r' := by
  obtain ⟨hkeys, henter⟩ := @scanned_enter cfg _ _ hseen.1 hseen.2
  obtain ⟨rfl, rfl⟩ | ⟨s', rfl, rfl, hscanned⟩ := h.cases
  · exact ⟨rfl, nofun⟩
  have hall := henter.trans hscanned
  have hat : s'.keys[s.devices.length]? = some (deviceOf cfg k).key := by
    obtain ⟨new, hnew, -⟩ := hscanned.keys
    have hlength : s.keys.length = s.devices.length := List.length_map ..
    rw [hnew, hkeys, List.append_assoc, List.getElem?_append_right (by omega), hlength,
      Nat.sub_self]
    rfl
  have hset := @keys_setDriver drivers _ _ _ hat
  refine ⟨congrArg some (congrArg (Search.mk s'.scannedBus) hset), fun s'' hs'' => ?_⟩
  obtain rfl := Option.some.inj hs''
  obtain ⟨new, hnew, hown⟩ := hall.keys
  refine ⟨⟨fun k' hk' => ?_, fun k' hk' => ?_⟩, hall.buses, new, hset.trans hnew, hown⟩
  · have hmem := hall.ok.decoded k' hk'
    rw [← hset] at hmem
    exact hmem
  · have hmem : k' ∈ s'.keys := by
      rw [← hset]
      exact hk'
    exact hall.ok.scanned k' hmem

/-- The buses behind a function that is entered: they are searched, or the loop over them does not
end. -/
theorem refines_behind {scan : PciState → Nat → Option PciState}
    {go : Search Nat PciFunction → Nat → Option (Search Nat PciFunction)}
    (h : ∀ s b, PciOk s → Refines [] s (scan s b) (go s.search b)) {m : Nat} (hm : 0x100 < m)
    (hs : PciOk s) :
    Refines [] s
      (if (deviceOf cfg k).headerType = headerTypePciToPci then
        busLoop scan (deviceOf cfg k).subordinateBus m (deviceOf cfg k).secondaryBus s
      else some s)
      (if hangs cfg k then none else ((pciGraph cfg).next k).foldlM go s.search) := by
  have hsec : (deviceOf cfg k).secondaryBus < 0x100 := headerByte_lt (deviceOf cfg k) 0x19
  have hsub : (deviceOf cfg k).subordinateBus < 0x100 := headerByte_lt (deviceOf cfg k) 0x1A
  show Refines [] _ _ (if hangs cfg k then none else (busesBehind cfg k).foldlM go _)
  by_cases hbridge : IsBridge cfg k
  · have htype : (deviceOf cfg k).headerType = headerTypePciToPci := hbridge
    rw [if_pos htype]
    by_cases hlast : (deviceOf cfg k).subordinateBus = 0xFF
    · rw [if_pos (by simp [hangs, hbridge, hlast]), hlast, busLoop_hangs scan m hsec]
      exact ⟨rfl, nofun⟩
    · rw [if_neg (by simp [hangs, hlast]), busLoop_eq scan (by omega) (by omega), busesBehind,
        if_pos hbridge]
      exact refines_buses h _ hs
  · have htype : (deviceOf cfg k).headerType ≠ headerTypePciToPci := hbridge
    rw [if_neg htype, if_neg (by simp [hangs, hbridge]), busesBehind, if_neg hbridge]
    exact refines_buses h [] hs

/-- **A function that is registered is an item that is visited.** -/
theorem refines_register {scan : PciState → Nat → Option PciState}
    {go : Search Nat PciFunction → Nat → Option (Search Nat PciFunction)}
    (h : ∀ s b, PciOk s → Refines [] s (scan s b) (go s.search b)) {m : Nat} (hm : 0x100 < m)
    (hs : PciOk s) (hseen : s.scannedBus k.1 = true) (hfresh : k ∉ s.keys) :
    Refines [k] s (pciRegisterDevice cfg drivers scan m s k.1 k.2.1 k.2.2)
      ((pciGraph cfg).visit pciMaxDevices (hangs cfg) go s.search k) := by
  have hlength : s.search.found.length = s.devices.length := List.length_map ..
  have hnotDecoded : ¬ s.decoded (k.1, k.2.1, k.2.2) = true := fun hd => hfresh (hs.decoded k hd)
  unfold pciRegisterDevice Infra.Graph.visit
  rw [hlength, if_neg hnotDecoded]
  by_cases hfull : pciMaxDevices ≤ s.devices.length
  · rw [if_pos hfull, if_pos hfull]
    refine ⟨rfl, fun s' hs' => ?_⟩
    obtain rfl := Option.some.inj hs'
    exact ⟨hs, fun _ => id, [], (List.append_nil _).symm, nofun⟩
  rw [if_neg hfull, if_neg hfull]
  obtain ⟨hkeys, henter⟩ := @scanned_enter cfg _ _ hs hseen
  have hsearch : (s.enter (deviceOf cfg k)).search
      = { s.search with found := s.search.found ++ [k] } :=
    congrArg (Search.mk s.scannedBus) hkeys
  rw [← hsearch]
  exact refines_setDriver ⟨hs, hseen⟩ (refines_behind h hm henter.ok)

/-- The loop over the functions of a bus. -/
theorem refines_functions {scan : PciState → Nat → Option PciState}
    {go : Search Nat PciFunction → Nat → Option (Search Nat PciFunction)}
    (h : ∀ s b, PciOk s → Refines [] s (scan s b) (go s.search b)) {m : Nat} (hm : 0x100 < m)
    {l : List PciFunction} (hnodup : l.Nodup) (hbus : ∀ k ∈ l, k.1 = bus)
    (hs : PciOk s) (hseen : s.scannedBus bus = true) (hfresh : ∀ k ∈ l, k ∉ s.keys) :
    Refines l s
      (l.foldlM (fun s k => pciRegisterDevice cfg drivers scan m s k.1 k.2.1 k.2.2) s)
      (l.foldlM ((pciGraph cfg).visit pciMaxDevices (hangs cfg) go) s.search) := by
  induction l generalizing s with
  | nil => exact ⟨rfl, fun s' hs' => by obtain rfl := Option.some.inj hs'; exact Scanned.refl hs⟩
  | cons k l ih =>
    obtain ⟨hnot, hnodup⟩ := List.nodup_cons.mp hnodup
    have hk := hbus k List.mem_cons_self
    rw [List.foldlM_cons, List.foldlM_cons]
    refine (refines_register h hm hs (by rw [hk]; exact hseen)
      (hfresh k List.mem_cons_self)).bind (fun s' hscanned => show Refines l s' _ _ from ?_)
    refine ih hnodup (fun k' hk' => hbus k' (List.mem_cons_of_mem _ hk')) hscanned.ok
      (hscanned.buses _ hseen) fun k' hk' hmem => ?_
    -- nothing of this bus is registered on the way, as it counts as scanned
    obtain ⟨new, hnew, hown⟩ := hscanned.keys
    rw [hnew] at hmem
    obtain hmem | hmem := List.mem_append.mp hmem
    · exact hfresh k' (List.mem_cons_of_mem _ hk') hmem
    · obtain hmem | hunseen := hown k' hmem
      · rw [List.mem_singleton.mp hmem] at hk'
        exact hnot hk'
      · rw [hbus k' (List.mem_cons_of_mem _ hk'), hseen] at hunseen
        cases hunseen

/-- **The scan of a bus is the search from it.** -/
theorem pciScanBus_refines {m : Nat} (hm : 0x100 < m) (n : Nat) (hs : PciOk s) (bus : Nat) :
    Refines [] s (pciScanBus cfg drivers m n s bus)
      ((pciGraph cfg).search pciMaxDevices (hangs cfg) n s.search bus) := by
  induction n generalizing s bus with
  | zero => exact ⟨rfl, nofun⟩
  | succ n ih =>
    rw [pciScanBus, Infra.Graph.search]
    by_cases hseen : s.scannedBus bus = true
    · rw [if_pos hseen, if_pos (show s.search.seen bus = true from hseen)]
      exact ⟨rfl, fun s' hs' => by obtain rfl := Option.some.inj hs'; exact Scanned.refl hs⟩
    rw [if_neg hseen, if_neg (show ¬ s.search.seen bus = true from hseen), pciScanSlots_eq]
    have hmark : ∀ b, Function.update s.scannedBus bus true b = true ↔
        b = bus ∨ s.scannedBus b = true := by
      intro b
      by_cases hb : b = bus
      · rw [hb, Function.update_self]
        exact iff_of_true rfl (Or.inl rfl)
      · rw [Function.update_of_ne hb]
        exact (or_iff_right hb).symm
    have hstart : PciOk { s with scannedBus := Function.update s.scannedBus bus true } :=
      ⟨hs.decoded, fun k hk => (hmark k.1).mpr (Or.inr (hs.scanned k hk))⟩
    obtain ⟨heq, hscanned⟩ := @refines_functions _ drivers _ _ _ _
      (fun s b hs => ih (s := s) hs b) _ hm _
      (busFunctions_nodup cfg bus) (fun k hk => busFunctions_bus hk) hstart
      ((hmark bus).mpr (Or.inl rfl)) fun k hk hmem => hseen (by
        rw [← busFunctions_bus hk]
        exact hs.scanned k hmem)
    refine ⟨heq, fun s' hs' => ?_⟩
    obtain ⟨hok, hbuses, new, hnew, hown⟩ := hscanned s' hs'
    refine ⟨hok, fun b hb => hbuses b ((hmark b).mpr (Or.inr hb)), new, hnew, fun k hk => ?_⟩
    refine Or.inr (Bool.eq_false_iff.mpr fun hscannedBus => ?_)
    obtain hmem | hunseen := hown k hk
    · exact hseen (by rw [← busFunctions_bus hmem]; exact hscannedBus)
    · have hmarked := (hmark k.1).mpr (Or.inr hscannedBus)
      rw [show Function.update s.scannedBus bus true k.1 = false from hunseen] at hmarked
      cases hmarked

/-! ## Whether the scan ends -/

theorem busLoop_mono {scan scan' : PciState → Nat → Option PciState}
    (h : ∀ s b s', scan s b = some s' → scan' s b = some s') {sub m m' b : Nat} (hm : m ≤ m')
    (hloop : busLoop scan sub m b s = some s') : busLoop scan' sub m' b s = some s' := by
  induction m generalizing m' b s with
  | zero => cases hloop
  | succ m ih =>
    obtain ⟨m', rfl⟩ := Nat.exists_eq_succ_of_ne_zero (n := m') (by omega)
    rw [busLoop] at hloop ⊢
    split at hloop
    · next hle =>
      obtain ⟨s₁, hfirst, hrest⟩ := Option.bind_eq_some_iff.mp hloop
      rw [if_pos hle, h s b s₁ hfirst]
      exact ih (by omega) hrest
    · next hgt => rwa [if_neg hgt]

/-- More turns of the loops over buses change no result. -/
theorem pciScanBus_mono {m m' n : Nat} (hm : m ≤ m')
    (h : pciScanBus cfg drivers m n s bus = some s') :
    pciScanBus cfg drivers m' n s bus = some s' := by
  induction n generalizing s bus s' with
  | zero => cases h
  | succ n ih =>
    rw [pciScanBus] at h ⊢
    split at h
    · next hseen => rwa [if_pos hseen]
    next hseen =>
    rw [if_neg hseen]
    rw [pciScanSlots_eq] at h ⊢
    refine foldlM_mono (fun s k s' hregister => ?_) h
    unfold pciRegisterDevice at hregister ⊢
    split at hregister
    · next hfull => rwa [if_pos hfull]
    next hroom =>
    rw [if_neg hroom]
    split at hregister
    · next hdecoded => rwa [if_pos hdecoded]
    next hdecoded =>
    rw [if_neg hdecoded]
    obtain ⟨s₁, hscanned, hset⟩ := Option.map_eq_some_iff.mp hregister
    refine Option.map_eq_some_iff.mpr ⟨s₁, ?_, hset⟩
    split at hscanned
    · next hbridge =>
      rw [if_pos hbridge]
      exact busLoop_mono (fun s b s' hs => ih hs) hm hscanned
    · next hother => rwa [if_neg hother]

/-- The scan of the first bus ends. -/
def ScanEnds (cfg : ConfigSpace) (drivers : List PciDriver) : Prop :=
  ∃ loopFuel fuel s', pciScanBus cfg drivers loopFuel fuel pciBoot 0 = some s'

/-- The functions met from the first bus when every range ends, as many as there is room for. -/
def functionsMet (cfg : ConfigSpace) : List PciFunction :=
  ((pciGraph cfg).search pciMaxDevices Infra.Graph.free 0x101 ⟨fun _ => false, []⟩ 0).elim []
    Search.found

theorem pciOk_boot : PciOk pciBoot := ⟨nofun, nofun⟩

/-- The search that nothing holds up ends. -/
theorem exists_search (cfg : ConfigSpace) :
    ∃ w, (pciGraph cfg).search pciMaxDevices Infra.Graph.free 0x101 ⟨fun _ => false, []⟩ 0 = some w ∧
      w.found = functionsMet cfg := by
  have hnext : ∀ k, ∀ c ∈ (pciGraph cfg).next k, c ∈ Finset.range 0x100 := by
    intro k c hc
    have hsub : (deviceOf cfg k).subordinateBus < 0x100 := headerByte_lt (deviceOf cfg k) 0x1A
    obtain ⟨-, -, hle⟩ := mem_busesBehind.mp hc
    exact Finset.mem_range.mpr (by omega)
  have hcard : (Infra.Graph.unseen (κ := PciFunction) (Finset.range 0x100)
      ⟨fun _ => false, []⟩).card ≤ 0x100 :=
    (Finset.card_le_card (Finset.filter_subset ..)).trans_eq (Finset.card_range _)
  obtain ⟨w, hw, -⟩ := @Infra.Graph.search_total _ _ _ _ pciMaxDevices _ _ _ _ hnext
    (Finset.mem_range.mpr (Nat.zero_lt_succ _)) (Nat.lt_of_le_of_lt hcard (Nat.lt_succ_self _))
  exact ⟨w, hw, by rw [functionsMet, hw]; rfl⟩

/-- A scan that ends, from the search that nothing holds up. -/
theorem scan_some_iff {m n : Nat} (hm : 0x100 < m) {w : Search Nat PciFunction} :
    (∃ s', pciScanBus cfg drivers m n pciBoot 0 = some s' ∧ s'.search = w) ↔
      (pciGraph cfg).search pciMaxDevices Infra.Graph.free n ⟨fun _ => false, []⟩ 0 = some w ∧
        ∀ k ∈ w.found, hangs cfg k = false := by
  have hsearch := (@pciScanBus_refines cfg drivers _ _ hm n pciOk_boot 0).1
  rw [← Option.map_eq_some_iff, hsearch]
  refine (Infra.Graph.search_iff _ _ _ _ _ _ _).1.trans (and_congr_right fun _ => ?_)
  constructor
  · rintro ⟨new, hnew, hall⟩ k hk
    exact hall k (by rw [hnew] at hk; exact hk)
  · intro hall
    exact ⟨w.found, rfl, hall⟩

theorem ScanEnds.of_met (h : ∀ k ∈ functionsMet cfg, hangs cfg k = false) :
    ScanEnds cfg drivers := by
  obtain ⟨w, hw, hfound⟩ := exists_search cfg
  obtain ⟨s', hs', -⟩ := (@scan_some_iff _ drivers 0x101 _
    (Nat.lt_succ_self _)).mpr ⟨hw, by rwa [hfound]⟩
  exact ⟨_, _, s', hs'⟩

/-- **The scan ends exactly when no bridge that is met has a range up to bus 255.** -/
theorem scanEnds_iff (cfg : ConfigSpace) (drivers : List PciDriver) :
    ScanEnds cfg drivers ↔ ∀ k ∈ functionsMet cfg, hangs cfg k = false := by
  obtain ⟨w, hw, hfound⟩ := exists_search cfg
  constructor
  · rintro ⟨m, n, s', h⟩
    have hmore := pciScanBus_mono (Nat.le_max_left m 0x101) h
    obtain ⟨hfree, havoid⟩ := (scan_some_iff (by omega)).mp ⟨s', hmore, rfl⟩
    rw [← hfound, Infra.Graph.search_unique hw hfree]
    exact havoid
  · exact ScanEnds.of_met

/-- The registration of a bridge whose range goes up to bus 255. -/
theorem pciRegisterDevice_hangs (scan : PciState → Nat → Option PciState) (m : Nat)
    (hhangs : hangs cfg k = true) (hroom : s.devices.length < pciMaxDevices)
    (hnew : s.decoded k = false) :
    pciRegisterDevice cfg drivers scan m s k.1 k.2.1 k.2.2 = none := by
  obtain ⟨hbridge, hlast⟩ := Bool.and_eq_true_iff.mp hhangs
  have htype : (pciDecodeDevice cfg k.1 k.2.1 k.2.2).headerType = headerTypePciToPci :=
    of_decide_eq_true hbridge
  have hsub : (pciDecodeDevice cfg k.1 k.2.1 k.2.2).subordinateBus = 0xFF :=
    of_decide_eq_true hlast
  unfold pciRegisterDevice
  rw [if_neg (Nat.not_le.mpr hroom), if_neg (Bool.eq_false_iff.mp hnew)]
  refine Option.map_eq_none_iff.mpr ?_
  rw [if_pos htype, hsub]
  exact busLoop_hangs scan m (headerByte_lt _ 0x19) _

/-- A bridge in the first slot of every bus, with the same range. -/
def bridgeOnEveryBus (secondary subordinate : Nat) : ConfigSpace := fun _ slot func offset =>
  if slot = 0 ∧ func = 0 then
    match offset with
    | 0x00 => 0x25488086
    | 0x0C => 0x00010000
    | 0x18 => secondary * 0x100 + subordinate * 0x10000
    | _ => 0
  else 0xFFFFFFFF

/-- A bridge to the buses from 1 to 255. -/
theorem exists_endless_scan : ¬ ∀ cfg drivers, ScanEnds cfg drivers := by
  intro h
  obtain ⟨m, n, s', hscan⟩ := h (bridgeOnEveryBus 1 0xFF) []
  cases n with
  | zero => cases hscan
  | succ n =>
    have hbus : busFunctions (bridgeOnEveryBus 1 0xFF) 0 = [(0, 0, 0)] := by decide
    rw [pciScanBus, if_neg (by decide), pciScanSlots_eq, hbus] at hscan
    obtain ⟨s₁, hfirst, -⟩ := foldlM_cons_some.mp hscan
    rw [pciRegisterDevice_hangs (k := (0, 0, 0)) _ m (by decide) (by decide) rfl] at hfirst
    cases hfirst

/-! ## What the scan records -/

/-- A function is there: its vendor is not `0xFFFF`, that of the first function of the slot
neither, and functions after the first are looked at when the first says that there are some. -/
structure Present (cfg : ConfigSpace) (k : PciFunction) : Prop where
  slot : k.2.1 < 32
  first : pciRead16 cfg k.1 k.2.1 0 0x00 ≠ 0xFFFF
  function : k.2.2 < slotFunctions cfg k.1 k.2.1
  vendor : pciRead16 cfg k.1 k.2.1 k.2.2 0x00 ≠ 0xFFFF

/-- A bus is the first one, or in the range of a bridge on a bus that is reachable. -/
inductive ReachableBus (cfg : ConfigSpace) : Nat → Prop
  | first : ReachableBus cfg 0
  | behind {k : PciFunction} {c : Nat} (hbus : ReachableBus cfg k.1) (hpresent : Present cfg k)
      (hbridge : IsBridge cfg k) (hsec : (deviceOf cfg k).secondaryBus ≤ c)
      (hsub : c ≤ (deviceOf cfg k).subordinateBus) : ReachableBus cfg c

/-- The functions present on buses that are reachable. -/
def reachableFunctions (cfg : ConfigSpace) : Set PciFunction :=
  {k | Present cfg k ∧ ReachableBus cfg k.1}

theorem mem_busFunctions : k ∈ busFunctions cfg k.1 ↔ Present cfg k := by
  constructor
  · intro h
    obtain ⟨slot, hslot, hk⟩ := List.mem_flatMap.mp h
    split at hk
    · cases hk
    next hfirst =>
    obtain ⟨func, hfunc, hk⟩ := List.mem_map.mp hk
    obtain ⟨bus, slot', func'⟩ := k
    obtain ⟨rfl, rfl⟩ := Prod.mk.inj (Prod.mk.inj hk).2
    obtain ⟨hfunc, hvendor⟩ := List.mem_filter.mp hfunc
    exact ⟨List.mem_range.mp hslot, hfirst, List.mem_range.mp hfunc, of_decide_eq_true hvendor⟩
  · intro h
    refine List.mem_flatMap.mpr ⟨k.2.1, List.mem_range.mpr h.slot, ?_⟩
    rw [if_neg h.first]
    exact List.mem_map.mpr ⟨k.2.2, List.mem_filter.mpr
      ⟨List.mem_range.mpr h.function, decide_eq_true h.vendor⟩, rfl⟩

theorem reaches_iff {c : Nat} : (pciGraph cfg).Reaches 0 c ↔ ReachableBus cfg c := by
  constructor
  · intro h
    induction h with
    | refl => exact ReachableBus.first
    | tail _ hlast ih =>
      obtain ⟨k, hk, hc⟩ := hlast
      obtain ⟨hbridge, hsec, hsub⟩ := mem_busesBehind.mp hc
      obtain rfl := busFunctions_bus hk
      exact ih.behind (mem_busFunctions.mp hk) hbridge hsec hsub
  · intro h
    induction h with
    | first => exact Relation.ReflTransGen.refl
    | behind _ hpresent hbridge hsec hsub ih =>
      exact ih.tail ⟨_, mem_busFunctions.mpr hpresent, mem_busesBehind.mpr ⟨hbridge, hsec, hsub⟩⟩

/-- **When no bridge that is reachable has a range up to bus 255 the scan ends, and it records no
function twice; when there is room for the functions that are reachable, it records these.** -/
theorem pciScan_exact (cfg : ConfigSpace) (drivers : List PciDriver)
    (hsub : ∀ k ∈ reachableFunctions cfg, IsBridge cfg k →
      (deviceOf cfg k).subordinateBus < 0xFF) :
    ScanEnds cfg drivers ∧
      ∀ loopFuel fuel s', pciScanBus cfg drivers loopFuel fuel pciBoot 0 = some s' →
        s'.keys.Nodup ∧ ((reachableFunctions cfg).encard ≤ pciMaxDevices →
          ∀ k, k ∈ s'.keys ↔ k ∈ reachableFunctions cfg) := by
  have howner : ∀ a, ∀ k ∈ (pciGraph cfg).items a, k.1 = a := fun _ _ => busFunctions_bus
  have hreach : ∀ k, k ∈ (pciGraph cfg).items k.1 ∧ (pciGraph cfg).Reaches 0 k.1 ↔
      k ∈ reachableFunctions cfg := fun _ => and_congr mem_busFunctions reaches_iff
  constructor
  · obtain ⟨w, hw, hfound⟩ := exists_search cfg
    obtain ⟨-, hsound, -⟩ := Infra.Graph.search_found (busFunctions_nodup cfg) howner hw
    refine ScanEnds.of_met fun k hk => ?_
    rw [← hfound] at hk
    have hk := (hreach k).mp (hsound k hk)
    by_cases hbridge : IsBridge cfg k
    · have hlt := hsub k hk hbridge
      simp only [hangs, Bool.and_eq_false_iff, decide_eq_false_iff_not]
      exact Or.inr (by omega)
    · simp only [hangs, Bool.and_eq_false_iff, decide_eq_false_iff_not]
      exact Or.inl hbridge
  · intro m n s' h
    have hmore := pciScanBus_mono (Nat.le_max_left m 0x101) h
    obtain ⟨hw, -⟩ := (scan_some_iff (by omega)).mp ⟨s', hmore, rfl⟩
    obtain ⟨hnodup, -, -⟩ := Infra.Graph.search_found (busFunctions_nodup cfg) howner hw
    refine ⟨hnodup, fun hroom k => ?_⟩
    have hfinite := Set.finite_of_encard_le_coe hroom
    have hcard : hfinite.toFinset.card ≤ pciMaxDevices := by
      rwa [hfinite.encard_eq_coe_toFinset_card, Nat.cast_le] at hroom
    have hall := Infra.Graph.search_found_iff (busFunctions_nodup cfg) howner
      (fun k => (hfinite.mem_toFinset).trans (hreach k).symm) hcard hw k
    exact hall.trans hfinite.mem_toFinset

/-- There is one function on every bus, a bridge. -/
theorem bridgeOnEveryBus_present {k : PciFunction} :
    Present (bridgeOnEveryBus 1 2) k ↔ k = (k.1, 0, 0) := by
  obtain ⟨bus, slot, func⟩ := k
  have hfirst : pciRead16 (bridgeOnEveryBus 1 2) bus 0 0 0x00 ≠ 0xFFFF :=
    (by decide : pciRead16 (bridgeOnEveryBus 1 2) 0 0 0 0x00 ≠ 0xFFFF)
  have hone : slotFunctions (bridgeOnEveryBus 1 2) bus 0 = 1 :=
    (by decide : slotFunctions (bridgeOnEveryBus 1 2) 0 0 = 1)
  constructor
  · intro h
    have hslot : slot = 0 :=
      (by decide : ∀ slot < 32, pciRead16 (bridgeOnEveryBus 1 2) 0 slot 0 0x00 ≠ 0xFFFF → slot = 0)
        slot h.slot h.first
    subst hslot
    have hfunc : func < slotFunctions (bridgeOnEveryBus 1 2) bus 0 := h.function
    rw [hone, Nat.lt_one_iff] at hfunc
    rw [hfunc]
  · intro h
    obtain ⟨rfl, rfl⟩ := Prod.mk.inj (Prod.mk.inj h).2
    exact ⟨Nat.zero_lt_succ 31, hfirst, hone.symm ▸ Nat.one_pos, hfirst⟩

/-- Every bridge is one to the buses 1 and 2. -/
theorem bridgeOnEveryBus_range (bus : Nat) :
    IsBridge (bridgeOnEveryBus 1 2) (bus, 0, 0) ∧
      (deviceOf (bridgeOnEveryBus 1 2) (bus, 0, 0)).secondaryBus = 1 ∧
      (deviceOf (bridgeOnEveryBus 1 2) (bus, 0, 0)).subordinateBus = 2 := by
  have hheader : (deviceOf (bridgeOnEveryBus 1 2) (bus, 0, 0)).header =
      (deviceOf (bridgeOnEveryBus 1 2) (0, 0, 0)).header := rfl
  refine ⟨(by decide : IsBridge (bridgeOnEveryBus 1 2) (0, 0, 0)), ?_, ?_⟩
  · rw [PciDevice.secondaryBus, PciDevice.headerByte, hheader]
    decide
  · rw [PciDevice.subordinateBus, PciDevice.headerByte, hheader]
    decide

/-- The functions on the buses 0, 1 and 2 are reachable. -/
theorem bridgeOnEveryBus_reachable :
    reachableFunctions (bridgeOnEveryBus 1 2) = {(0, 0, 0), (1, 0, 0), (2, 0, 0)} := by
  have hbuses : ∀ c, ReachableBus (bridgeOnEveryBus 1 2) c ↔ c ≤ 2 := by
    intro c
    constructor
    · intro h
      cases h with
      | first => decide
      | @behind k _ _ hpresent _ _ hsub =>
        rw [bridgeOnEveryBus_present.mp hpresent, (bridgeOnEveryBus_range k.1).2.2] at hsub
        exact hsub
    · intro h
      rcases Nat.eq_zero_or_pos c with rfl | hpos
      · exact .first
      · obtain ⟨hbridge, hsec, hsub⟩ := bridgeOnEveryBus_range 0
        exact .behind (k := (0, 0, 0)) .first (bridgeOnEveryBus_present.mpr rfl) hbridge
          (hsec.trans_le hpos) (h.trans_eq hsub.symm)
  ext ⟨bus, slot, func⟩
  show Present _ _ ∧ ReachableBus _ bus ↔ _
  rw [bridgeOnEveryBus_present, hbuses]
  simp only [Prod.mk.injEq, Set.mem_insert_iff, Set.mem_singleton_iff, true_and]
  omega

/-- Bridges from every bus to the buses 1 and 2, and so back to themselves. -/
theorem pciScan_exact_bridgeOnEveryBus : ∃ loopFuel fuel s',
    pciScanBus (bridgeOnEveryBus 1 2) [] loopFuel fuel pciBoot 0 = some s' ∧
    s'.keys.Nodup ∧ ∀ k, k ∈ s'.keys ↔ k = (0, 0, 0) ∨ k = (1, 0, 0) ∨ k = (2, 0, 0) := by
  have hexact := pciScan_exact (bridgeOnEveryBus 1 2) [] fun k hk _ => by
    rw [bridgeOnEveryBus_present.mp hk.1, (bridgeOnEveryBus_range k.1).2.2]
    decide
  obtain ⟨⟨loopFuel, fuel, s', hscan⟩, hall⟩ := hexact
  obtain ⟨hnodup, hkeys⟩ := hall loopFuel fuel s' hscan
  rw [bridgeOnEveryBus_reachable] at hkeys
  have hcard : ({(0, 0, 0), (1, 0, 0), (2, 0, 0)} : Set PciFunction).encard ≤ pciMaxDevices := by
    refine (Set.encard_insert_le _ _).trans ?_
    rw [Set.encard_pair (by decide)]
    decide
  exact ⟨loopFuel, fuel, s', hscan, hnodup, hkeys hcard⟩

end Xylophone
