import Xylophone.Infra.Ledger
import Xylophone.Scheduler.Structures

/-!
# `user-stack-manager.c`

The pool of user stacks: 511 slots below `USERSPACE_TASK_STACK_TOP`. The spinlock is left out here,
as for the queues.
-/

namespace Xylophone

open Infra

/-- `USERSPACE_TASK_STACK_BOTTOM`. -/
def userspaceTaskStackBottom : Nat := 0x0B000000

/-- `USERSPACE_TASK_STACK_TOP`. -/
def userspaceTaskStackTop : Nat := 0x0BFFF000

/-- `TASK_STACK_SIZE`. -/
def taskStackSize : Nat := 0x2000 * 4

/-- `USER_STACKS_MAX`. -/
def userStacksMax : Nat := (userspaceTaskStackTop - userspaceTaskStackBottom) / taskStackSize

/-- `user_stack_t`. -/
structure UserStack where
  base : Nat
  top : Nat
  inUse : Bool
deriving DecidableEq, Repr

/-- `user_stack_manager_init`. -/
def userStackManagerInit : Nat → UserStack := fun i =>
  let top := userspaceTaskStackTop - i * taskStackSize
  ⟨top - taskStackSize, top, false⟩

/-- The first slot that is not in use. -/
def freeStack (pool : Nat → UserStack) : Option Nat :=
  (List.range userStacksMax).find? fun i => (pool i).inUse = false

/-- The slot is in use or not. -/
def setInUse (pool : Nat → UserStack) (i : Nat) (inUse : Bool) : Nat → UserStack :=
  Function.update pool i { pool i with inUse := inUse }

/-- `user_stack_alloc`: the slot, and its base and top. -/
def userStackAlloc (pool : Nat → UserStack) : Option ((Nat → UserStack) × Nat × Nat × Nat) :=
  (freeStack pool).map fun i => (setInUse pool i true, i, (pool i).base, (pool i).top)

/-- `user_stack_free`. -/
def userStackFree (pool : Nat → UserStack) (index : Int) : Nat → UserStack :=
  if index < 0 ∨ (userStacksMax : Int) ≤ index then pool
  else setInUse pool index.toNat false

/-- The number of slots in use. -/
def stacksInUse (pool : Nat → UserStack) : Nat :=
  total userStacksMax fun i => (pool i).inUse.toNat

variable {pool : Nat → UserStack} {i : Nat}

theorem freeStack_some (h : freeStack pool = some i) :
    i < userStacksMax ∧ (pool i).inUse = false := by
  have hmem := List.mem_of_find?_eq_some h
  have hfound := List.find?_some h
  exact ⟨List.mem_range.mp hmem, of_decide_eq_true hfound⟩

/-- **A stack that is allocated was not in use.** -/
theorem stacksInUse_alloc (h : freeStack pool = some i) :
    stacksInUse (setInUse pool i true) = stacksInUse pool + 1 := by
  obtain ⟨hlt, hfree⟩ := freeStack_some h
  have hchange := total_change (f := fun j => (pool j).inUse.toNat)
    (g := fun j => (setInUse pool i true j).inUse.toNat) hlt fun j _ hji => by
      unfold setInUse
      rw [Function.update_of_ne hji]
  rw [hfree] at hchange
  unfold setInUse at hchange
  rw [Function.update_self] at hchange
  exact hchange

theorem stacksInUse_init : stacksInUse userStackManagerInit = 0 := total_zero fun _ _ => rfl

end Xylophone
