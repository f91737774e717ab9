import Mathlib.Data.List.Nodup
import Mathlib.Data.List.Perm.Basic
import Xylophone.Infra.Run
import Xylophone.Infra.Word

/-!
# The storage manager

The controllers are kept in an array, in the order in which they were added; every controller is
given the next number of a 32-bit counter. A controller is looked up by an 8-bit number, so one
that was given a larger number cannot be found, and another may be found in its place.

* `addController_present`, `removeController_present` — the array as the list of the controllers
  present
* `storage_run` — lookups are right in every run that adds no controller from number 256 on
* `not_storageOk_of_large` — they are wrong as soon as such a controller is present
-/

namespace Xylophone

open Infra

/-! ## The array -/

/-- `storage_controller_t`. Its pointers are never followed. -/
structure StorageController where
  name : Nat
  impl : Nat
  ops : Nat
  flags : Nat
  uid : Nat
deriving DecidableEq, Repr

/-- `storage_manager_result_t` -/
inductive StorageResult where
  | ok | full | exists | invalid
deriving DecidableEq, Repr

/-- `storage_manager_t`, and the counter the numbers come from. -/
structure StorageManager where
  controllers : Nat → StorageController
  controllerCount : Nat
  isInitialized : Bool
  nextControllerUid : Nat

/-- `STORAGE_MANAGER_MAX_CONTROLLERS` -/
def storageManagerMaxControllers : Nat := 8

/-- The controller that `memset` leaves in the array. -/
def noController : StorageController := ⟨0, 0, 0, 0, 0⟩

namespace StorageManager

/-- `storage_manager_setup` -/
def setup (sm : StorageManager) : StorageResult × StorageManager :=
  if sm.isInitialized then (.invalid, sm)
  else (.ok, { sm with
    controllers := fun _ => noController, controllerCount := 0, isInitialized := true })

/-- The loop that looks a number up: `n` controllers from index `i` on. -/
def indexOf (controllers : Nat → StorageController) (uid : Nat) : Nat → Nat → Option Nat
  | 0, _ => none
  | n + 1, i => if (controllers i).uid = uid then some i else indexOf controllers uid n (i + 1)

/-- The loop that closes the gap: `n` controllers move, the first of them to index `i`. -/
def shiftDown : Nat → Nat → (Nat → StorageController) → Nat → StorageController
  | 0, _, controllers => controllers
  | n + 1, i, controllers =>
    shiftDown n (i + 1) (Function.update controllers i (controllers (i + 1)))

/-- `storage_manager_add_controller` -/
def addController (sm : StorageManager) (controller : StorageController) :
    StorageResult × StorageManager :=
  if sm.isInitialized = false then (.invalid, sm)
  else if storageManagerMaxControllers ≤ sm.controllerCount then (.full, sm)
  else if (indexOf sm.controllers controller.uid sm.controllerCount 0).isSome then (.exists, sm)
  else (.ok, { sm with
    controllers := Function.update sm.controllers sm.controllerCount
      { controller with uid := sm.nextControllerUid }
    controllerCount := sm.controllerCount + 1
    nextControllerUid := wrap32 (sm.nextControllerUid + 1) })

/-- `storage_manager_remove_controller`. The number is an 8-bit one. -/
def removeController (sm : StorageManager) (controllerUid : Nat) :
    StorageResult × StorageManager :=
  if sm.isInitialized = false then (.invalid, sm)
  else match indexOf sm.controllers (controllerUid % 0x100) sm.controllerCount 0 with
    | none => (.invalid, sm)
    | some index => (.ok, { sm with
        controllers := shiftDown (sm.controllerCount - 1 - index) index sm.controllers
        controllerCount := sm.controllerCount - 1 })

/-- `storage_manager_get_controller`: the index of the controller that is found. The number is an
8-bit one. -/
def getController (sm : StorageManager) (controllerUid : Nat) : Option Nat :=
  if sm.isInitialized = false then none
  else indexOf sm.controllers (controllerUid % 0x100) sm.controllerCount 0

/-- The controllers present, in their order. -/
def present (sm : StorageManager) : List StorageController :=
  (List.range sm.controllerCount).map sm.controllers

variable {sm sm' : StorageManager} {c : StorageController} {uid i j n : Nat}
  {controllers : Nat → StorageController}

/-! ## The loops -/

theorem indexOf_eq_some :
    indexOf controllers uid n i = some j ↔
      i ≤ j ∧ j < i + n ∧ (controllers j).uid = uid ∧
        ∀ k, i ≤ k → k < j → (controllers k).uid ≠ uid := by
  induction n generalizing i with
  | zero => exact iff_of_false nofun fun h => by omega
  | succ n ih =>
    rw [indexOf]
    split
    · next heq =>
      constructor
      · intro h
        obtain rfl := Option.some.inj h
        exact ⟨le_rfl, by omega, heq, fun k hk hlt => absurd hlt (Nat.not_lt.mpr hk)⟩
      · rintro ⟨hle, -, -, hfirst⟩
        obtain hlt | rfl := Nat.lt_or_eq_of_le hle
        · exact absurd heq (hfirst i le_rfl hlt)
        · rfl
    · next hne =>
      rw [ih]
      constructor
      · rintro ⟨hle, hlt, heq, hfirst⟩
        refine ⟨by omega, by omega, heq, fun k hk hkj => ?_⟩
        obtain hlt | rfl := Nat.lt_or_eq_of_le hk
        · exact hfirst k hlt hkj
        · exact hne
      · rintro ⟨hle, hlt, heq, hfirst⟩
        obtain hij | rfl := Nat.lt_or_eq_of_le hle
        · exact ⟨hij, by omega, heq, fun k hk hkj => hfirst k (by omega) hkj⟩
        · exact absurd heq hne

theorem indexOf_eq_none :
    indexOf controllers uid n i = none ↔ ∀ k, i ≤ k → k < i + n → (controllers k).uid ≠ uid := by
  induction n generalizing i with
  | zero => exact iff_of_true rfl fun k hk hlt => by omega
  | succ n ih =>
    rw [indexOf]
    split
    · next heq => exact iff_of_false nofun fun h => h i le_rfl (by omega) heq
    · next hne =>
      rw [ih]
      constructor
      · intro h k hk hlt
        obtain hik | rfl := Nat.lt_or_eq_of_le hk
        · exact h k hik (by omega)
        · exact hne
      · intro h k hk hlt
        exact h k (by omega) (by omega)

theorem shiftDown_apply (n i : Nat) (controllers : Nat → StorageController) (j : Nat) :
    shiftDown n i controllers j
      = if i ≤ j ∧ j < i + n then controllers (j + 1) else controllers j := by
  induction n generalizing i controllers with
  | zero => exact (if_neg fun h => by omega).symm
  | succ n ih =>
    rw [shiftDown, ih]
    by_cases hj : j = i
    · subst hj
      rw [if_neg (by omega), if_pos (by omega), Function.update_self]
    · by_cases hin : i + 1 ≤ j ∧ j < i + 1 + n
      · rw [if_pos hin, if_pos (by omega), Function.update_of_ne (by omega)]
      · rw [if_neg hin, if_neg (by omega), Function.update_of_ne hj]

/-! ## The controllers present -/

theorem length_present (sm : StorageManager) : sm.present.length = sm.controllerCount := by
  rw [present, List.length_map, List.length_range]

theorem getElem_present (h : i < sm.present.length) : sm.present[i] = sm.controllers i := by
  simp only [present, List.getElem_map, List.getElem_range]

theorem mem_present : c ∈ sm.present ↔ ∃ i, i < sm.controllerCount ∧ sm.controllers i = c := by
  simp only [present, List.mem_map, List.mem_range]

/-- **A controller that is added comes last, with the next number.** -/
theorem addController_present (h : (sm.addController c).1 = .ok) :
    (sm.addController c).2.present = sm.present ++ [{ c with uid := sm.nextControllerUid }] ∧
      (sm.addController c).2.nextControllerUid = wrap32 (sm.nextControllerUid + 1) ∧
      (sm.addController c).2.isInitialized = sm.isInitialized := by
  unfold addController at h ⊢
  split at h
  · cases h
  split at h
  · cases h
  split at h
  · cases h
  next hinit hroom hnew =>
  rw [if_neg hinit, if_neg hroom, if_neg hnew]
  refine ⟨?_, rfl, rfl⟩
  simp only [present, List.range_succ, List.map_append, List.map_singleton, Function.update_self]
  congr 1
  refine List.map_congr_left fun i hi => Function.update_of_ne ?_ _ _
  exact Nat.ne_of_lt (List.mem_range.mp hi)

/-- A controller that is refused leaves everything as it is. -/
theorem addController_refused (h : (sm.addController c).1 ≠ .ok) : (sm.addController c).2 = sm := by
  unfold addController at h ⊢
  split
  · rfl
  split
  · rfl
  split
  · rfl
  next hinit hroom hnew =>
  rw [if_neg hinit, if_neg hroom, if_neg hnew] at h
  exact absurd rfl h

theorem getController_eq (hinit : sm.isInitialized = true) (uid : Nat) :
    sm.getController uid = indexOf sm.controllers (uid % 0x100) sm.controllerCount 0 :=
  if_neg (Bool.eq_false_iff.mp · hinit)

/-- **A controller that is removed is the one that is found, and the others stay in order.** -/
theorem removeController_present (hinit : sm.isInitialized = true)
    (h : sm.getController uid = some i) :
    (sm.removeController uid).1 = .ok ∧
      (sm.removeController uid).2.present = sm.present.eraseIdx i ∧
      (sm.removeController uid).2.nextControllerUid = sm.nextControllerUid ∧
      (sm.removeController uid).2.isInitialized = true := by
  rw [getController_eq hinit] at h
  obtain ⟨-, hlt, -, -⟩ := indexOf_eq_some.mp h
  unfold removeController
  rw [if_neg (Bool.eq_false_iff.mp · hinit), h]
  refine ⟨rfl, ?_, rfl, hinit⟩
  have hlength : sm.present.length = sm.controllerCount := length_present sm
  refine List.ext_getElem ?_ fun j hj hj' => ?_
  · rw [length_present, List.length_eraseIdx_of_lt (by omega), hlength]
  · rw [getElem_present, List.getElem_eraseIdx]
    rw [length_present] at hj
    dsimp only at hj ⊢
    rw [shiftDown_apply]
    split
    · rw [getElem_present, dif_neg (by omega), getElem_present]
    · rw [getElem_present, dif_pos (by omega)]

theorem removeController_missing (h : sm.getController uid = none) :
    (sm.removeController uid).2 = sm := by
  unfold removeController
  unfold getController at h
  split
  · rfl
  · next hinit =>
    rw [if_neg hinit] at h
    rw [h]

end StorageManager

/-! ## Lookups -/

open StorageManager

variable {sm : StorageManager} {removed : List Nat}

/-- The controllers present have distinct numbers; by its number a controller is found, and
removed with the others left in order; and no number of a controller removed is found. -/
structure StorageOk (sm : StorageManager) (removed : List Nat) : Prop where
  distinct : (sm.present.map StorageController.uid).Nodup
  get : ∀ c ∈ sm.present, ∃ i, sm.getController c.uid = some i ∧ i < sm.controllerCount ∧
    sm.controllers i = c
  remove : ∀ c ∈ sm.present, ∃ l₁ l₂, sm.present = l₁ ++ c :: l₂ ∧
    (sm.removeController c.uid).1 = .ok ∧ (sm.removeController c.uid).2.present = l₁ ++ l₂
  gone : ∀ uid ∈ removed, sm.getController uid = none

/-- All numbers given are distinct, and 8 bits hold them. -/
structure StorageInv (sm : StorageManager) (removed : List Nat) : Prop where
  initialized : sm.isInitialized = true
  distinct : (sm.present.map StorageController.uid ++ removed).Nodup
  below : ∀ uid ∈ sm.present.map StorageController.uid ++ removed, uid < sm.nextControllerUid
  small : sm.nextControllerUid ≤ 0x100

/-- Two controllers present with one number are one. -/
theorem StorageInv.index_inj (h : StorageInv sm removed) {i j : Nat} (hi : i < sm.controllerCount)
    (hj : j < sm.controllerCount) (heq : (sm.controllers i).uid = (sm.controllers j).uid) :
    i = j := by
  have hnodup := List.Nodup.of_append_left h.distinct
  rw [present, List.map_map] at hnodup
  exact List.inj_on_of_nodup_map hnodup (List.mem_range.mpr hi) (List.mem_range.mpr hj) heq

theorem StorageInv.uid_lt (h : StorageInv sm removed) {i : Nat} (hi : i < sm.controllerCount) :
    (sm.controllers i).uid < 0x100 := by
  have hmem : (sm.controllers i).uid ∈ sm.present.map StorageController.uid :=
    List.mem_map_of_mem (mem_present.mpr ⟨i, hi, rfl⟩)
  exact Nat.lt_of_lt_of_le (h.below _ (List.mem_append_left _ hmem)) h.small

theorem StorageInv.get (h : StorageInv sm removed) {i : Nat} (hi : i < sm.controllerCount) :
    sm.getController (sm.controllers i).uid = some i := by
  rw [getController_eq h.initialized, Nat.mod_eq_of_lt (h.uid_lt hi), indexOf_eq_some]
  refine ⟨Nat.zero_le i, by omega, rfl, fun k _ hk heq => ?_⟩
  exact absurd (h.index_inj (by omega) hi heq) (by omega)

theorem StorageInv.ok (h : StorageInv sm removed) : StorageOk sm removed where
  distinct := List.Nodup.of_append_left h.distinct
  get c hc := by
    obtain ⟨i, hi, rfl⟩ := mem_present.mp hc
    exact ⟨i, h.get hi, hi, rfl⟩
  remove c hc := by
    obtain ⟨i, hi, rfl⟩ := mem_present.mp hc
    obtain ⟨hok, hpresent, -, -⟩ := removeController_present h.initialized (h.get hi)
    have hi' : i < sm.present.length := by rwa [length_present]
    refine ⟨sm.present.take i, sm.present.drop (i + 1), ?_, hok, ?_⟩
    · rw [← getElem_present hi', ← List.drop_eq_getElem_cons hi', List.take_append_drop]
    · rw [hpresent, List.eraseIdx_eq_take_drop_succ]
  gone uid huid := by
    have hsmall := Nat.lt_of_lt_of_le (h.below uid (List.mem_append_right _ huid)) h.small
    rw [getController_eq h.initialized, Nat.mod_eq_of_lt hsmall, indexOf_eq_none]
    intro k _ hk heq
    refine List.disjoint_of_nodup_append h.distinct (a := uid) ?_ huid
    exact List.mem_map.mpr ⟨_, mem_present.mpr ⟨k, by omega, rfl⟩, heq⟩

/-- **A controller with a number that 8 bits do not hold is not found by it.** -/
theorem not_storageOk_of_large {c : StorageController} (hc : c ∈ sm.present)
    (hlarge : 0x100 ≤ c.uid) : ¬ StorageOk sm removed := by
  intro h
  obtain ⟨i, hget, -, hi⟩ := h.get c hc
  unfold getController at hget
  split at hget
  · cases hget
  · obtain ⟨-, -, huid, -⟩ := indexOf_eq_some.mp hget
    rw [hi] at huid
    have hlt := Nat.mod_lt c.uid (show 0x100 > 0 by decide)
    omega

/-! ## Runs -/

/-- A call of the storage manager. -/
inductive StorageOp where
  | add (controller : StorageController)
  | remove (uid : Nat)

/-- The manager after a call, with the numbers of the controllers removed so far. -/
def storageCall (p : StorageManager × List Nat) : StorageOp → StorageManager × List Nat
  | .add controller => ((p.1.addController controller).2, p.2)
  | .remove uid => ((p.1.removeController uid).2,
      match p.1.getController uid with
      | none => p.2
      | some i => (p.1.controllers i).uid :: p.2)

/-- A call leads from one state to the next. -/
def StorageStep (p : StorageManager × List Nat) (op : StorageOp) (p' : StorageManager × List Nat) :
    Prop :=
  storageCall p op = p'

/-- A controller that is added gets a number that 8 bits hold. -/
def SmallUid (p : StorageManager × List Nat) : StorageOp → Prop
  | .add controller => (p.1.addController controller).1 = .ok → p.1.nextControllerUid < 0x100
  | .remove _ => True

/-- **What one call preserves.** -/
theorem StorageInv.call {p p' : StorageManager × List Nat} {op : StorageOp}
    (h : StorageInv p.1 p.2) (hsmall : SmallUid p op) (hs : StorageStep p op p') :
    StorageInv p'.1 p'.2 := by
  obtain ⟨sm, removed⟩ := p
  subst hs
  cases op with
  | add c =>
    by_cases hok : (sm.addController c).1 = .ok
    · obtain ⟨hpresent, hnext, hinit⟩ := addController_present hok
      have hlt := hsmall hok
      rw [wrap32_of_lt (Nat.lt_of_le_of_lt (Nat.succ_le_of_lt hlt) (by decide))] at hnext
      have hperm : (sm.present ++ [{ c with uid := sm.nextControllerUid }]).map
          StorageController.uid ++ removed
          = sm.present.map StorageController.uid ++ sm.nextControllerUid :: removed := by
        rw [List.map_append, List.append_assoc]
        rfl
      have hmem : ∀ uid, uid ∈ sm.present.map StorageController.uid ++
          sm.nextControllerUid :: removed ↔ uid = sm.nextControllerUid ∨
            uid ∈ sm.present.map StorageController.uid ++ removed := by
        intro uid
        simp only [List.mem_append, List.mem_cons]
        exact or_left_comm
      refine ⟨hinit.trans h.initialized, ?_, fun uid huid => ?_, ?_⟩
      · rw [storageCall, hpresent, hperm, List.nodup_middle, List.nodup_cons]
        exact ⟨fun hin => Nat.lt_irrefl _ (h.below _ hin), h.distinct⟩
      · rw [storageCall, hpresent, hperm, hmem] at huid
        rw [storageCall, hnext]
        obtain rfl | huid := huid
        · exact Nat.lt_succ_self _
        · exact Nat.lt_succ_of_lt (h.below uid huid)
      · rw [storageCall, hnext]
        exact hlt
    · rw [storageCall, addController_refused hok]
      exact h
  | remove uid =>
    cases hget : sm.getController uid with
    | none =>
      rw [storageCall, removeController_missing hget, hget]
      exact h
    | some i =>
      obtain ⟨-, hpresent, hnext, hinit⟩ := removeController_present h.initialized hget
      have hi : i < sm.present.length := by
        rw [getController_eq h.initialized] at hget
        rw [length_present]
        exact Nat.lt_of_lt_of_eq (indexOf_eq_some.mp hget).2.1 (Nat.zero_add _)
      -- the number moves from the controllers present to those removed
      have hperm : ((sm.present.eraseIdx i).map StorageController.uid
          ++ (sm.controllers i).uid :: removed).Perm
          (sm.present.map StorageController.uid ++ removed) := by
        have hmoved := (List.getElem_cons_eraseIdx_perm hi).map StorageController.uid
        rw [getElem_present hi] at hmoved
        exact List.perm_middle.trans (hmoved.append_right removed)
      rw [storageCall, hget]
      refine ⟨hinit, ?_, fun uid huid => ?_, ?_⟩
      · rw [hpresent]
        exact hperm.nodup_iff.mpr h.distinct
      · rw [hnext]
        rw [hpresent] at huid
        exact h.below uid (hperm.mem_iff.mp huid)
      · rw [hnext]
        exact h.small

/-- The manager before `storage_manager_setup`. -/
def bootStorage : StorageManager := ⟨fun _ => noController, 0, false, 1⟩

/-- **Lookups are right in every run that gives no number from 256 on.** -/
theorem storage_run {sm₀ sm : StorageManager} {removed : List Nat}
    (hsetup : sm₀ = bootStorage.setup.2)
    (hrun : Run StorageStep SmallUid (sm₀, []) (sm, removed)) : StorageOk sm removed := by
  have h0 : StorageInv sm₀ [] := by
    subst hsetup
    exact ⟨rfl, List.nodup_nil, nofun, by decide⟩
  have hinv : StorageInv (sm, removed).1 (sm, removed).2 :=
    hrun.invariant (I := fun p => StorageInv p.1 p.2) (fun _ _ _ h hok hs => h.call hok hs) h0
  exact hinv.ok

instance (p : StorageManager × List Nat) : DecidablePred (SmallUid p)
  | .add controller => inferInstanceAs
      (Decidable ((p.1.addController controller).1 = .ok → p.1.nextControllerUid < 0x100))
  | .remove _ => inferInstanceAs (Decidable True)

/-- Two controllers are added, and the first is removed. -/
theorem storage_run_boot : ∃ sm removed, removed = [1] ∧
    sm.present = [{ noController with uid := 2 }] ∧ StorageOk sm removed := by
  obtain ⟨⟨sm, removed⟩, hrun, hremoved, hpresent⟩ : ∃ p,
      runList (fun p op => some (storageCall p op)) SmallUid (bootStorage.setup.2, [])
        [.add noController, .add noController, .remove 1] = some p ∧ p.2 = [1] ∧
        p.1.present = [{ noController with uid := 2 }] := ⟨_, rfl, rfl, rfl⟩
  have hstep : ∀ {p op p'}, some (storageCall p op) = some p' → StorageStep p op p' :=
    Option.some.inj
  exact ⟨sm, removed, hremoved, hpresent, storage_run rfl (Run.of_runList hstep hrun)⟩

/-! ## A controller that cannot be found -/

theorem addController_empty (hinit : sm.isInitialized = true) (hcount : sm.controllerCount = 0)
    (c : StorageController) : (sm.addController c).1 = .ok := by
  unfold addController
  rw [if_neg (Bool.eq_false_iff.mp · hinit), hcount, if_neg (by decide)]
  rfl

theorem present_empty (hcount : sm.controllerCount = 0) : sm.present = [] :=
  List.eq_nil_of_length_eq_zero ((length_present sm).trans hcount)

/-- The empty manager after `n` controllers have come and gone. -/
theorem exists_empty_run {n : Nat} (hn : n < 0x100) : ∃ sm removed,
    Run StorageStep (fun _ _ => True) (bootStorage.setup.2, []) (sm, removed) ∧
      sm.isInitialized = true ∧ sm.controllerCount = 0 ∧ sm.nextControllerUid = n + 1 := by
  induction n with
  | zero => exact ⟨_, _, Run.refl _, rfl, rfl, rfl⟩
  | succ n ih =>
    obtain ⟨sm, removed, hrun, hinit, hcount, hnext⟩ := ih (by omega)
    obtain ⟨hpresent, hnext', hinit'⟩ :=
      addController_present (addController_empty hinit hcount noController)
    generalize hadded : (sm.addController noController).2 = added at hpresent hnext' hinit'
    rw [present_empty hcount, List.nil_append] at hpresent
    have hcount' : added.controllerCount = 1 := by rw [← length_present, hpresent]; rfl
    have hlen : 0 < added.present.length := by rw [length_present, hcount']; exact Nat.one_pos
    have huid : (added.controllers 0).uid = n + 1 := by
      rw [← getElem_present hlen]
      simp only [hpresent, List.getElem_cons_zero, hnext]
    have hget : added.getController (n + 1) = some 0 := by
      rw [getController_eq (hinit'.trans hinit), indexOf_eq_some]
      exact ⟨le_rfl, by omega, by rw [huid, Nat.mod_eq_of_lt hn], nofun⟩
    obtain ⟨-, hleft, hnext'', hinit''⟩ := removeController_present (hinit'.trans hinit) hget
    have hadd : StorageStep (sm, removed) (.add noController) (added, removed) := by
      rw [StorageStep, storageCall, hadded]
    have hremove : StorageStep (added, removed) (.remove (n + 1))
        ((added.removeController (n + 1)).2, (added.controllers 0).uid :: removed) := by
      rw [StorageStep, storageCall, hget]
    refine ⟨_, _, (hrun.tail trivial hadd).tail trivial hremove, hinit'', ?_, ?_⟩
    · rw [← length_present, hleft, hpresent]
      rfl
    · rw [hnext'', hnext', hnext]
      exact wrap32_of_lt (by omega)

/-- The controller with number 256 is present, and cannot be found. -/
theorem exists_controller_not_found : ∃ sm removed,
    Run StorageStep (fun _ _ => True) (bootStorage.setup.2, []) (sm, removed) ∧
      { noController with uid := 0x100 } ∈ sm.present ∧ ¬ StorageOk sm removed := by
  obtain ⟨sm, removed, hrun, hinit, hcount, hnext⟩ := exists_empty_run (n := 0xFF) (by decide)
  obtain ⟨hpresent, -, -⟩ :=
    addController_present (addController_empty hinit hcount noController)
  have hmem : { noController with uid := 0x100 } ∈ (sm.addController noController).2.present := by
    rw [hpresent, hnext]
    exact List.mem_append_right _ (List.mem_singleton.mpr rfl)
  exact ⟨_, _, hrun.tail (a := .add noController) trivial rfl, hmem,
    not_storageOk_of_large hmem le_rfl⟩

end Xylophone
