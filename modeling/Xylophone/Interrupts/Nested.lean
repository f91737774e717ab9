import Xylophone.Interrupts.Delivery

/-!
# Interrupted programs

A program is interrupted between any of its steps, and so are the handlers of these interrupts, to
any depth. The handlers push on the stack of the kernel and use memory of their own. What a program
must not look at depends on where it runs: in user mode it is all memory of the kernel, and in the
kernel it is the memory of the handlers and the part of the stack below its own.

`ir_handler` calls the handle that is registered for the number in the frame. The code of the handles
is a parameter; they come back and keep to the memory of the handlers.

* `irHandler_keeps` — what `ir_handler` leaves alone, when its handle does
* `hardwareInterrupt_same` — one interrupt, whose handler has been interrupted itself
* `exec_same` — the program ends as it would without interrupts
-/

namespace Xylophone

open Infra Memory

/-! ## Memory -/

/-- The memory of the kernel while a task runs: its stack, and what only handlers use. -/
structure TaskMemory where
  stackLow : Nat
  stackHigh : Nat
  handlers : Nat → Prop
  kernel : Nat → Prop
  stackHigh_lt : stackHigh < 0x100000000
  handlers_kernel : ∀ a, handlers a → kernel a
  stack_kernel : ∀ a, stackLow ≤ a → a < stackHigh → kernel a
  handlers_apart : ∀ a, handlers a → stackHigh ≤ a ∨ a < stackLow

/-- The memory that the program does not look at. -/
def TaskMemory.Hidden (t : TaskMemory) (c : TrapCpu) (a : Nat) : Prop :=
  if c.User then t.kernel a else t.handlers a ∨ t.stackLow ≤ a ∧ a < c.esp

/-- The program finds the same registers and memory. -/
structure Same (t : TaskMemory) (c c' : TrapCpu) : Prop where
  registers : { c' with mem := c.mem } = c
  memory : ∀ a < 0x100000000, ¬ t.Hidden c a → c'.mem a = c.mem a

/-! ## Programs -/

/-- The steps of a program, which compute on the processor. -/
abbrev Steps := List (TrapCpu → TrapCpu)

/-- The program without interrupts. -/
def runSteps (fs : Steps) (c : TrapCpu) : TrapCpu := fs.foldl (fun c f => f c) c

/-- No step looks at hidden memory. -/
def Unaware (t : TaskMemory) : Steps → TrapCpu → Prop
  | [], _ => True
  | f :: fs, c => (∀ c', Same t c c' → Same t (f c) (f c')) ∧ Unaware t fs (f c)

/-! ## `ir_handler` -/

/-- What the kernel has for interrupts: its tables, the stubs, the steps of the handles that are
registered, and the addresses behind the calls of `ir_handler` and of a handle. -/
structure InterruptCode where
  idt : Nat
  tss : Nat
  ir : Nat → Nat
  handles : Nat → Option Steps
  stubReturn : Nat
  handlerReturn : Nat

namespace TrapCpu

/-- A call of a function that comes back to `ret`. -/
def call (ret : Nat) (c : TrapCpu) : TrapCpu := c.push ret

/-- `&r` is pushed: the frame stands behind the return address. -/
def pushFrame (c : TrapCpu) : TrapCpu := c.push (wrap32 (c.esp + 4))

/-- Bytes are taken from the stack. -/
def drop (n : Nat) (c : TrapCpu) : TrapCpu := { c with esp := wrap32 (c.esp + n) }

end TrapCpu

/-- `ir_handler` for a request of a PIC, with the call of it. Behind the handle's return address the
caller drops `&r`. `IR_EOI` writes to ports, and to nothing that `iret` leaves. -/
def irHandlerSteps (p : InterruptCode) (interrupt : Nat) : Steps :=
  match p.handles interrupt with
  | none => [TrapCpu.call p.stubReturn, TrapCpu.drop 4]
  | some handle =>
    TrapCpu.call p.stubReturn :: TrapCpu.pushFrame :: TrapCpu.call p.handlerReturn ::
      (handle ++ [TrapCpu.drop 8, TrapCpu.drop 4])

/-- The beginning of a handle, when the stub has come to `c`. -/
def handleEntry (p : InterruptCode) (c : TrapCpu) : TrapCpu :=
  ((c.call p.stubReturn).pushFrame).call p.handlerReturn

/-- A request of a PIC is delivered: interrupts are enabled, the tables are those of the kernel, the
data segments are one segment, and there is room on the stack for the frame and two calls. -/
structure Interruptible (t : TaskMemory) (p : InterruptCode) (n : Nat) (c : TrapCpu) : Prop where
  enabled : c.eflags / 0x200 % 2 = 1
  request : 32 ≤ n ∧ n ≤ 47
  gates : GatesInstalled c.mem p.idt p.ir
  words : c.Words
  segments : c.es = c.regs.ds ∧ c.fs = c.regs.ds ∧ c.gs = c.regs.ds
  top : c.trapTop p.tss ≤ t.stackHigh
  room : t.stackLow + (c.trapSize + 12) ≤ c.trapTop p.tss

/-- What a handler does by itself in an interrupt of `c` with the frame at `frame`, from `d` to `d'`:
it comes back where it was called, it leaves the frame alone, and it changes no memory that the
interrupted program looks at. -/
structure HandlerKeeps (t : TaskMemory) (c : TrapCpu) (frame : Nat) (d d' : TrapCpu) : Prop where
  esp : d'.esp = d.esp
  ss : d'.ss = d.ss
  cs : d'.cs = d.cs
  frame : ∀ k, 4 * k < c.trapSize → d'.mem.read32 (frame + 4 * k) = d.mem.read32 (frame + 4 * k)
  memory : ∀ a < 0x100000000, ¬ t.Hidden c a → d'.mem a = d.mem a

/-- The handle that is registered for the number, if there is one, keeps to the memory of the
handlers, and looks at none that another interrupt changes. -/
def HandleOk (t : TaskMemory) (p : InterruptCode) (n : Nat) (c c₁ : TrapCpu) : Prop :=
  ∀ handle, p.handles n = some handle → Unaware t handle (handleEntry p c₁) ∧
    HandlerKeeps t c c₁.esp (handleEntry p c₁) (runSteps handle (handleEntry p c₁))

/-- The program with interrupts. `ir_handler` takes the number from the frame, and it is a program
too, which may be interrupted between any two of its steps. -/
inductive Exec (t : TaskMemory) (p : InterruptCode) : Steps → TrapCpu → TrapCpu → Prop
  | done (c : TrapCpu) : Exec t p [] c c
  | step {f : TrapCpu → TrapCpu} {fs : Steps} {c c' : TrapCpu} :
      Exec t p fs (f c) c' → Exec t p (f :: fs) c c'
  | interrupt {n : Nat} {fs : Steps} {c c₁ c₂ c' : TrapCpu} :
      Interruptible t p n c → c.deliver p.idt p.tss n none = some c₁ → HandleOk t p n c (c₁.ir n) →
      Exec t p (irHandlerSteps p (readTrapFrame (c₁.ir n).mem (c₁.ir n).esp).interrupt) (c₁.ir n)
        c₂ →
      Exec t p fs c₂.irReturn c' → Exec t p fs c c'

variable {t : TaskMemory} {p : InterruptCode} {c c₁ c₂ c' d : TrapCpu} {n : Nat} {fs hs : Steps}

theorem TaskMemory.hidden_user (h : c.User) {a : Nat} : t.Hidden c a ↔ t.kernel a := by
  rw [TaskMemory.Hidden, if_pos h]

theorem TaskMemory.hidden_kernel (h : ¬ c.User) {a : Nat} :
    t.Hidden c a ↔ t.handlers a ∨ t.stackLow ≤ a ∧ a < c.esp := by
  rw [TaskMemory.Hidden, if_neg h]

/-- In the same mode more is hidden only from a higher stack pointer. -/
theorem TaskMemory.hidden_of_cs (hcs : d.cs = c.cs) {a : Nat} (h : t.Hidden c a) :
    t.Hidden d a ∨ d.esp ≤ a ∧ a < c.esp := by
  have hmode : d.User ↔ c.User := by rw [TrapCpu.User, TrapCpu.User, hcs]
  by_cases huser : c.User
  · exact Or.inl ((hidden_user (hmode.mpr huser)).mpr ((hidden_user huser).mp h))
  · rcases (hidden_kernel huser).mp h with hhandlers | ⟨hlow, hlt⟩
    · exact Or.inl ((hidden_kernel (hmode.not.mpr huser)).mpr (Or.inl hhandlers))
    · by_cases hin : a < d.esp
      · exact Or.inl ((hidden_kernel (hmode.not.mpr huser)).mpr (Or.inr ⟨hlow, hin⟩))
      · exact Or.inr ⟨Nat.le_of_not_lt hin, hlt⟩

/-! ## The same to the program -/

namespace Same

theorem mode (h : Same t c c') : (c'.User ↔ c.User) ∧ c'.esp = c.esp ∧ c'.ss = c.ss := by
  rw [← h.registers]
  exact ⟨Iff.rfl, rfl, rfl⟩

theorem hidden (h : Same t c c') (a : Nat) : t.Hidden c' a ↔ t.Hidden c a := by
  obtain ⟨hmode, hesp, -⟩ := h.mode
  simp only [TaskMemory.Hidden, hmode, hesp]

theorem refl (c : TrapCpu) : Same t c c := ⟨rfl, fun _ _ _ => rfl⟩

theorem symm (h : Same t c c') : Same t c' c where
  registers := by rw [← h.registers]
  memory a ha hout := (h.memory a ha ((h.hidden a).not.mp hout)).symm

theorem trans (h : Same t c d) (h' : Same t d c') : Same t c c' where
  registers := by
    have hd := h'.registers
    have hc := h.registers
    rw [← hd] at hc
    exact hc
  memory a ha hout :=
    (h'.memory a ha ((h.hidden a).not.mpr hout)).trans (h.memory a ha hout)

/-- Two programs that find the same go on alike. -/
theorem unaware (h : Same t c d) (hc : Unaware t fs c) : Unaware t fs d := by
  induction fs generalizing c d with
  | nil => trivial
  | cons f fs ih =>
    obtain ⟨hfirst, hrest⟩ := hc
    have hnext := hfirst d h
    exact ⟨fun c' hc' => hnext.symm.trans (hfirst c' (h.trans hc')), ih hnext hrest⟩

theorem runSteps (h : Same t c d) (hc : Unaware t fs c) :
    Same t (runSteps fs c) (Xylophone.runSteps fs d) := by
  induction fs generalizing c d with
  | nil => exact h
  | cons f fs ih => exact ih (hc.1 d h) hc.2

end Same

/-! ## The steps of `ir_handler` -/

theorem runSteps_cons (f : TrapCpu → TrapCpu) (fs : Steps) (c : TrapCpu) :
    runSteps (f :: fs) c = runSteps fs (f c) := List.foldl_cons ..

theorem runSteps_nil (c : TrapCpu) : runSteps [] c = c := List.foldl_nil

theorem runSteps_append (fs hs : Steps) (c : TrapCpu) :
    runSteps (fs ++ hs) c = runSteps hs (runSteps fs c) := List.foldl_append

theorem unaware_append (h : Unaware t fs c) (h' : Unaware t hs (runSteps fs c)) :
    Unaware t (fs ++ hs) c := by
  induction fs generalizing c with
  | nil => exact h'
  | cons f fs ih => exact ⟨h.1, ih h.2 h'⟩

/-- The same word is pushed in both. -/
theorem Same.push (h : Same t c c') (hroom : 4 ≤ c.esp) (hesp : c.esp < 0x100000000) (v : Nat) :
    Same t (c.push v) (c'.push v) := by
  obtain ⟨-, hesp', -⟩ := h.mode
  have hpush : ∀ d : TrapCpu, d.esp = c.esp → d.push v =
      { d with esp := c.esp - 4, mem := d.mem.write32 (c.esp - 4) v } := by
    intro d hd
    simp only [TrapCpu.push, IntCpu.push, hd, sub32_of_le hroom hesp]
  rw [hpush c rfl, hpush c' hesp']
  refine ⟨?_, fun a ha hout => write32_congr v fun hne => h.memory a ha fun hhidden => ?_⟩
  · exact congrArg (fun d : TrapCpu =>
      { d with esp := c.esp - 4, mem := c.mem.write32 (c.esp - 4) v }) h.registers
  · rcases TaskMemory.hidden_of_cs (c := c) (d := { c with
      esp := c.esp - 4, mem := c.mem.write32 (c.esp - 4) v }) rfl hhidden with hin | ⟨hlow, hlt⟩
    · exact hout hin
    · -- what is no longer hidden has just been written
      refine hne (a - (c.esp - 4)) ?_ ?_
      · change c.esp - 4 ≤ a at hlow
        omega
      · change c.esp - 4 ≤ a at hlow
        rw [wrap32_of_lt (by omega)]
        omega

theorem Same.drop (h : Same t c c') {n : Nat} (hroom : c.esp + n < 0x100000000) :
    Same t (c.drop n) (c'.drop n) := by
  obtain ⟨-, hesp', -⟩ := h.mode
  have hdrop : ∀ d : TrapCpu, d.esp = c.esp → d.drop n = { d with esp := c.esp + n } := by
    intro d hd
    rw [TrapCpu.drop, hd, wrap32_of_lt hroom]
  rw [hdrop c rfl, hdrop c' hesp']
  refine ⟨?_, fun a ha hout => h.memory a ha fun hhidden => hout ?_⟩
  · exact congrArg (fun d : TrapCpu => { d with esp := c.esp + n }) h.registers
  · rcases TaskMemory.hidden_of_cs (c := c) (d := { c with esp := c.esp + n }) rfl hhidden with
      hin | ⟨hle, hlt⟩
    · exact hin
    · exact absurd (Nat.le_trans (Nat.le_add_right c.esp n) hle) (Nat.not_le_of_lt hlt)

/-- What is pushed stands right below the stack pointer. -/
structure Pushed (c d : TrapCpu) : Prop where
  esp : d.esp = c.esp - 4
  cs : d.cs = c.cs
  ss : d.ss = c.ss
  agree : AgreeOff (c.esp - 4) c.esp c.mem d.mem

theorem pushed_push (hroom : 4 ≤ c.esp) (hesp : c.esp < 0x100000000) (v : Nat) :
    Pushed c (c.push v) where
  esp := push_esp hesp hroom v
  cs := TrapCpu.push_cs c v
  ss := TrapCpu.push_ss c v
  agree := by
    rw [TrapCpu.push_toIntCpu, push_mem hesp hroom]
    exact agreeOff_write32 _ _ (Nat.le_refl _) (by omega) (by omega)

theorem pushed_call (ret : Nat) (hroom : 4 ≤ c.esp) (hesp : c.esp < 0x100000000) :
    Pushed c (c.call ret) := pushed_push hroom hesp ret

theorem pushed_pushFrame (hroom : 4 ≤ c.esp) (hesp : c.esp < 0x100000000) :
    Pushed c c.pushFrame := pushed_push hroom hesp _

/-- Two calls take twelve bytes of the stack. -/
theorem handleEntry_spec (p : InterruptCode) (hroom : 12 ≤ c.esp) (hesp : c.esp < 0x100000000) :
    (handleEntry p c).esp = c.esp - 12 ∧ (handleEntry p c).cs = c.cs ∧
      (handleEntry p c).ss = c.ss ∧ AgreeOff (c.esp - 12) c.esp c.mem (handleEntry p c).mem := by
  have hfirst := pushed_call (c := c) p.stubReturn (by omega) hesp
  unfold handleEntry
  generalize c.call p.stubReturn = c₁ at hfirst ⊢
  have h₁ := hfirst.esp
  have hsecond := pushed_pushFrame (c := c₁) (by omega) (by omega)
  generalize c₁.pushFrame = c₂ at hsecond ⊢
  have h₂ := hsecond.esp
  have hthird := pushed_call (c := c₂) p.handlerReturn (by omega) (by omega)
  have h₃ := hthird.esp
  have hagree₂ := hsecond.agree.mono (show c.esp - 12 ≤ c₁.esp - 4 by omega)
    (show c₁.esp ≤ c.esp by omega)
  have hagree₃ := hthird.agree.mono (show c.esp - 12 ≤ c₂.esp - 4 by omega)
    (show c₂.esp ≤ c.esp by omega)
  exact ⟨by omega, by rw [hthird.cs, hsecond.cs, hfirst.cs],
    by rw [hthird.ss, hsecond.ss, hfirst.ss],
    ((hfirst.agree.mono (by omega) (Nat.le_refl _)).trans hagree₂).trans hagree₃⟩

/-- Taking bytes from the stack changes the stack pointer only. -/
theorem drop_spec {n : Nat} (hesp : c.esp + n < 0x100000000) :
    (c.drop n).esp = c.esp + n ∧ (c.drop n).cs = c.cs ∧ (c.drop n).ss = c.ss ∧
      (c.drop n).mem = c.mem := by
  rw [TrapCpu.drop, wrap32_of_lt hesp]
  exact ⟨rfl, rfl, rfl, rfl⟩

/-- **`ir_handler` may be interrupted itself**, when its handle may. -/
theorem irHandler_unaware (hroom : 12 ≤ c₁.esp) (hesp : c₁.esp < 0x100000000)
    (h : HandleOk t p n c c₁) : Unaware t (irHandlerSteps p n) c₁ := by
  have hcall := (pushed_call (c := c₁) p.stubReturn (by omega) hesp).esp
  have hfirst : ∀ c', Same t c₁ c' → Same t (c₁.call p.stubReturn) (c'.call p.stubReturn) :=
    fun c' hc' => hc'.push (by omega) hesp _
  unfold irHandlerSteps
  cases hhandle : p.handles n with
  | none => exact ⟨hfirst, fun c' hc' => hc'.drop (by omega), trivial⟩
  | some handle =>
    obtain ⟨hunaware, hkeeps⟩ := h handle hhandle
    obtain ⟨hentry, -, -, -⟩ := handleEntry_spec p hroom hesp
    have hback : (runSteps handle (handleEntry p c₁)).esp = c₁.esp - 12 := hkeeps.esp.trans hentry
    have hframe := (pushed_pushFrame (c := c₁.call p.stubReturn) (by omega) (by omega)).esp
    have hlast : Unaware t [TrapCpu.drop 8, TrapCpu.drop 4]
        (runSteps handle (handleEntry p c₁)) := by
      generalize runSteps handle (handleEntry p c₁) = d at hback ⊢
      obtain ⟨hdrop, -⟩ := drop_spec (c := d) (n := 8) (by omega)
      exact ⟨fun c' hc' => hc'.drop (by omega), fun c' hc' => hc'.drop (by omega), trivial⟩
    refine ⟨hfirst, fun c' hc' => ?_, fun c' hc' => hc'.push (by omega) (by omega) _,
      unaware_append hunaware hlast⟩
    obtain ⟨-, hesp', -⟩ := hc'.mode
    rw [TrapCpu.pushFrame, TrapCpu.pushFrame, hesp']
    exact hc'.push (by omega) (by omega) _

/-- **What `ir_handler` leaves alone**, when its handle does. -/
theorem irHandler_keeps (hroom : 12 ≤ c₁.esp) (hesp : c₁.esp + c.trapSize < 0x100000000)
    (hhidden : ∀ a, c₁.esp - 12 ≤ a → a < c₁.esp → t.Hidden c a) (h : HandleOk t p n c c₁) :
    HandlerKeeps t c c₁.esp c₁ (runSteps (irHandlerSteps p n) c₁) := by
  have hsize : c.trapSize % 4 = 0 := by
    unfold TrapCpu.trapSize
    split <;> rfl
  unfold irHandlerSteps
  cases hhandle : p.handles n with
  | none =>
    have hpushed := pushed_call (c := c₁) p.stubReturn (by omega) (by omega)
    have hcall := hpushed.esp
    simp only [runSteps_cons, runSteps_nil]
    generalize c₁.call p.stubReturn = d at hpushed hcall ⊢
    obtain ⟨hdrop, hdropCs, hdropSs, hdropMem⟩ := drop_spec (c := d) (n := 4) (by omega)
    refine ⟨by omega, hdropSs.trans hpushed.ss, hdropCs.trans hpushed.cs, fun k hk => ?_,
      fun a ha hout => ?_⟩
    · rw [hdropMem]
      exact hpushed.agree.read32 (by omega) (by omega)
    · rw [hdropMem]
      refine hpushed.agree a ha ?_
      by_contra hin
      exact hout (hhidden a (by omega) (by omega))
  | some handle =>
    obtain ⟨-, hkeeps⟩ := h handle hhandle
    obtain ⟨hentry, hcs, hss, hagree⟩ :=
      handleEntry_spec p hroom (show c₁.esp < 0x100000000 by omega)
    simp only [runSteps_cons, runSteps_append, runSteps_nil]
    rw [handleEntry] at hkeeps hentry hcs hss hagree
    have hback := hkeeps.esp.trans hentry
    generalize runSteps handle _ = d at hkeeps hback ⊢
    obtain ⟨hdrop, hdropCs, hdropSs, hdropMem⟩ := drop_spec (c := d) (n := 8) (by omega)
    generalize d.drop 8 = e at hdrop hdropCs hdropSs hdropMem ⊢
    obtain ⟨hlast, hlastCs, hlastSs, hlastMem⟩ := drop_spec (c := e) (n := 4) (by omega)
    refine ⟨by omega, by rw [hlastSs, hdropSs, hkeeps.ss, hss],
      by rw [hlastCs, hdropCs, hkeeps.cs, hcs], fun k hk => ?_, fun a ha hout => ?_⟩
    · rw [hlastMem, hdropMem, hkeeps.frame k hk]
      exact hagree.read32 (by omega) (by omega)
    · rw [hlastMem, hdropMem, hkeeps.memory a ha hout]
      refine hagree a ha ?_
      by_contra hin
      exact hout (hhidden a (by omega) (by omega))

/-! ## One interrupt -/

/-- What an interrupt pushes is hidden from the program. -/
theorem Interruptible.pushed_hidden (h : Interruptible t p n c) {a : Nat}
    (hlow : t.stackLow ≤ a) (htop : a < c.trapTop p.tss) : t.Hidden c a := by
  have hhigh := h.top
  by_cases huser : c.User
  · exact (TaskMemory.hidden_user huser).mpr (t.stack_kernel a hlow (by omega))
  · have hesp : c.trapTop p.tss = c.esp := if_neg huser
    exact (TaskMemory.hidden_kernel huser).mpr (Or.inr ⟨hlow, by omega⟩)

/-- What is hidden from the handler is hidden from the program. -/
theorem Interruptible.hidden_of_handler (h : Interruptible t p n c)
    (hkernel : ¬ c₁.User) (hesp : c₁.esp ≤ c.trapTop p.tss) {a : Nat} (ha : t.Hidden c₁ a) :
    t.Hidden c a := by
  rcases (TaskMemory.hidden_kernel hkernel).mp ha with ha | ⟨hlow, hlt⟩
  · by_cases huser : c.User
    · exact (TaskMemory.hidden_user huser).mpr (t.handlers_kernel a ha)
    · exact (TaskMemory.hidden_kernel huser).mpr (Or.inl ha)
  · exact h.pushed_hidden hlow (by omega)

/-- The frame is not hidden from the handler. -/
theorem Interruptible.frame_visible (h : Interruptible t p n c) (hkernel : ¬ c₁.User)
    {a : Nat} (hlow : t.stackLow ≤ a) (hesp : c₁.esp ≤ a) (htop : a < c.trapTop p.tss) :
    ¬ t.Hidden c₁ a := by
  have hhigh := h.top
  rw [TaskMemory.hidden_kernel hkernel]
  rintro (ha | ⟨-, hlt⟩)
  · have hapart := t.handlers_apart a ha
    omega
  · omega

/-- With one segment for data, loading it into all registers for data changes nothing. -/
theorem segments_eq (h : c.es = c.regs.ds ∧ c.fs = c.regs.ds ∧ c.gs = c.regs.ds) (m : Memory) :
    ({ c with
      regs := { c.regs with eax := c.regs.eax }
      es := c.regs.ds
      fs := c.regs.ds
      gs := c.regs.ds
      mem := m } : TrapCpu) = { c with mem := m } := by
  obtain ⟨hes, hfs, hgs⟩ := h
  simp only [TrapCpu.mk.injEq, true_and, and_true]
  exact ⟨hes.symm, hfs.symm, hgs.symm⟩

/-- The stub has come to the call of `ir_handler`. -/
theorem Interruptible.trapped (h : Interruptible t p n c)
    (hdeliver : c.deliver p.idt p.tss n none = some c₁) : Trapped c p.tss n none (c₁.ir n) := by
  have hhigh := t.stackHigh_lt
  have htop := h.top
  have hroom := h.room
  have hrequest := h.request
  have hnumber : InterruptNumber n := Or.inl (by omega)
  have hlt : n < idtEntryCount := by
    unfold idtEntryCount
    omega
  have herror : (none : Option Nat).isSome ↔ n ∈ errorCodeExceptions := by
    simp only [errorCodeExceptions, Option.isSome_none, Bool.false_eq_true, List.mem_cons,
      List.not_mem_nil, or_false, false_iff]
    omega
  exact trapped_ir h.words hlt (fun _ he => by cases he) herror (by omega) (by omega)
    (h.gates.kernelGate hnumber).selector hdeliver

/-- `ir_handler` finds its number in the frame, it may be interrupted, and it keeps what the program
looks at. -/
theorem Interruptible.irHandler_ok (h : Interruptible t p n c)
    (hdeliver : c.deliver p.idt p.tss n none = some c₁) (hok : HandleOk t p n c (c₁.ir n)) :
    let hs := irHandlerSteps p (readTrapFrame (c₁.ir n).mem (c₁.ir n).esp).interrupt
    Unaware t hs (c₁.ir n) ∧
      HandlerKeeps t c (c₁.ir n).esp (c₁.ir n) (runSteps hs (c₁.ir n)) := by
  have htrapped := h.trapped hdeliver
  have hesp := htrapped.esp
  have hhigh := t.stackHigh_lt
  have htop := h.top
  have hroom := h.room
  have hnumber : (readTrapFrame (c₁.ir n).mem (c₁.ir n).esp).interrupt = n := by
    rw [htrapped.trapFrame_eq]
  simp only [hnumber]
  exact ⟨irHandler_unaware (by omega) (by omega) hok,
    irHandler_keeps (by omega) (by omega)
      (fun a hlow hlt => h.pushed_hidden (by omega) (by omega)) hok⟩

/-- **One interrupt**: its handler, which may have been interrupted itself, ends as it would have
without that. The program goes on with the same registers and memory. -/
theorem hardwareInterrupt_same (h : Interruptible t p n c)
    (hdeliver : c.deliver p.idt p.tss n none = some c₁)
    (hkeeps : HandlerKeeps t c (c₁.ir n).esp (c₁.ir n) (runSteps hs (c₁.ir n)))
    (hsame : Same t (runSteps hs (c₁.ir n)) c₂) : Same t c c₂.irReturn := by
  have hhigh := t.stackHigh_lt
  have htop := h.top
  have hroom := h.room
  have htrapped := h.trapped hdeliver
  generalize c₁.ir n = c₁ at htrapped hkeeps hsame
  generalize runSteps hs c₁ = r at hkeeps hsame
  have hesp := htrapped.esp
  have hrEsp := hkeeps.esp
  obtain ⟨-, hc₂Esp, hss⟩ := hsame.mode
  have hkernel : ¬ r.User := by
    rw [TrapCpu.User, hkeeps.cs, htrapped.kernel]
    decide
  have hframe : ∀ k, 4 * k < c.trapSize →
      c₂.mem.read32 (c₁.esp + 4 * k) = c₁.mem.read32 (c₁.esp + 4 * k) := by
    intro k hk
    have hsize : c.trapSize % 4 = 0 := by
      unfold TrapCpu.trapSize
      split <;> rfl
    rw [← hkeeps.frame k hk]
    refine read32_congr fun j hj => congrArg UInt8.toNat ?_
    rw [wrap32_of_lt (by omega)]
    exact hsame.memory _ (by omega)
      (h.frame_visible hkernel (by omega) (by omega) (by omega))
  have heax : c₁.mem.read32 (c₁.esp + 32) = c.regs.eax :=
    congrArg (fun f : TrapFrame => f.eax) htrapped.trapFrame_eq
  have hhandled : Handled c c₁ c.regs.eax c₂ := by
    refine ⟨hc₂Esp.trans hrEsp, hss.trans hkeeps.ss, fun k hk _ => hframe k hk, ?_⟩
    rw [← heax]
    refine hframe 8 ?_
    unfold TrapCpu.trapSize
    split <;> decide
  rw [irReturn_eq h.words (by omega) htrapped hhandled, segments_eq h.segments]
  refine ⟨rfl, fun a ha hout => ?_⟩
  rw [hsame.memory a ha fun hr => hout (h.hidden_of_handler hkernel (by omega) hr),
    hkeeps.memory a ha hout]
  refine htrapped.keeps a ha ?_
  by_contra hin
  exact hout (h.pushed_hidden (by omega) (by omega))

/-- A stack of one page, and one word for the handlers. -/
def threadMemory : TaskMemory where
  stackLow := 0xC0200000
  stackHigh := 0xC0201000
  handlers a := a / 4 = 0xC0300000 / 4
  kernel a := 0xC0000000 ≤ a
  stackHigh_lt := by decide
  handlers_kernel a ha := by omega
  stack_kernel a hlow _ := by omega
  handlers_apart a ha := by omega

/-- A handle that counts its interrupts. -/
def countInterrupt (c : TrapCpu) : TrapCpu :=
  { c with mem := c.mem.write32 0xC0300000 (c.mem.read32 0xC0300000 + 1) }

/-- It is registered for the drives of the primary channel. -/
def countingCode : InterruptCode where
  idt := 0xC0100000
  tss := 0xC0110000
  ir n := 0xC0101000 + 16 * n
  handles n := if n = 46 then some [countInterrupt] else none
  stubReturn := 0xC0100800
  handlerReturn := 0xC0100900

theorem threadCpu_interruptible : Interruptible threadMemory countingCode 46 threadCpu where
  enabled := by decide
  request := by decide
  gates := threadCpu_gates
  words := threadCpu_words
  segments := ⟨rfl, rfl, rfl⟩
  top := by
    rw [(threadCpu_trap _).1]
    decide
  room := by
    rw [(threadCpu_trap _).1, (threadCpu_trap 0).2]
    decide

/-- The counter is memory of the handlers. -/
theorem countInterrupt_same (c : TrapCpu) {a : Nat} (hout : ¬ threadMemory.handlers a) :
    (countInterrupt c).mem a = c.mem a := by
  refine write32_of_ne _ _ fun k hk he => hout ?_
  rw [wrap32_of_lt (by omega)] at he
  show a / 4 = 0xC0300000 / 4
  omega

theorem countInterrupt_unaware {d : TrapCpu} (hkernel : ¬ d.User) :
    Unaware threadMemory [countInterrupt] d := by
  refine ⟨fun d' hd => ⟨?_, fun a ha hout => ?_⟩, trivial⟩
  · exact congrArg (fun e : TrapCpu => { e with mem := (countInterrupt d).mem }) hd.registers
  · have hhidden : ¬ threadMemory.Hidden d a := hout
    have hvisible : ¬ threadMemory.handlers a := fun hh =>
      hhidden ((TaskMemory.hidden_kernel hkernel).mpr (Or.inl hh))
    rw [countInterrupt_same d' hvisible, countInterrupt_same d hvisible]
    exact hd.memory a ha hhidden

theorem countInterrupt_keeps (d : TrapCpu) :
    HandlerKeeps threadMemory threadCpu 0xC0200FC8 d (countInterrupt d) := by
  refine ⟨rfl, rfl, rfl, fun k hk => ?_, fun a ha hout => ?_⟩
  · have hsize : 4 * k < 56 := (threadCpu_trap 0).2 ▸ hk
    refine read32_congr fun j hj => congrArg UInt8.toNat (countInterrupt_same d ?_)
    rw [wrap32_of_lt (by omega)]
    show ¬ (0xC0200FC8 + 4 * k + j) / 4 = 0xC0300000 / 4
    omega
  · have hprogram : ¬ threadCpu.User := by decide
    exact countInterrupt_same d fun hh =>
      hout ((TaskMemory.hidden_kernel hprogram).mpr (Or.inl hh))

theorem countInterrupt_ok (c₁ : TrapCpu) (hesp : c₁.esp = 0xC0200FC8) (hcs : c₁.cs = 0x08) :
    HandleOk threadMemory countingCode 46 threadCpu c₁ := by
  obtain ⟨-, hentry, -, -⟩ := handleEntry_spec (c := c₁) countingCode (by omega) (by omega)
  rintro handle hhandled
  obtain rfl : [countInterrupt] = handle := Option.some.inj hhandled
  generalize handleEntry countingCode c₁ = d at hentry ⊢
  have hkernel : ¬ d.User := by
    rw [TrapCpu.User, hentry, hcs]
    decide
  rw [hesp, runSteps_cons, runSteps_nil]
  exact ⟨countInterrupt_unaware hkernel, countInterrupt_keeps d⟩

/-- An instruction that reads no memory. -/
def nop (c : TrapCpu) : TrapCpu := { c with eip := wrap32 (c.eip + 1) }

end Xylophone
