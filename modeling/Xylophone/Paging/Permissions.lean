import Xylophone.Paging.Explicit

/-!
# Permissions of a page

The processor lets a page be used from user mode, or written, only if both its directory entry
and its page entry allow it. The directory entry is written once, with the permissions of the
first page of its slot. As long as no later page of the slot asks for more (`PermissionOk`),
every page has the permissions it was mapped with.

* `permissions_requested` — in every run whose operations meet `PermissionOk`
* `exists_lost_permission` — a page for user mode in a slot that a kernel page came first in
-/

namespace Xylophone

open Infra

/-! ## The property -/

/-- What a page may be used for. -/
structure Permissions where
  user : Bool
  write : Bool
deriving DecidableEq, Repr

/-- The permissions that `is_kernel` and `is_writeable` ask for. -/
def requested (isKernel isWriteable : Bool) : Permissions := ⟨!isKernel, isWriteable⟩

/-- The permissions of a present page: those that its directory entry and its entry both give. -/
def effective (w : PagingWorld) (page : Nat) : Option Permissions :=
  (pageAt w page).map fun entry =>
    ⟨(w.directory.tables (page / 1024)).user && entry.user,
      (w.directory.tables (page / 1024)).rw && entry.rw⟩

/-- The permissions that the pages of a call are to have; `none` for a call that frees pages. -/
def PagingCall.permissions : PagingCall → Option Permissions
  | .identityAllocateSingle _ k w | .identityAllocateRange _ _ k w | .allocateSingle _ k w
  | .allocateRange _ _ k w | .allocateToPhysical _ _ k w => some (requested k w)
  | .freeSingle _ _ | .freeRange _ _ _ => none

/-- A kernel, and for each page the permissions asked for by the call that made it present. -/
structure Recorded where
  kernel : Kernel
  asked : Nat → Option Permissions

/-- A call, and what it adds to the record: the pages it makes present. -/
structure RecordedStep (malloc : TableSource) (r : Recorded) (c : PagingCall) (r' : Recorded) :
    Prop where
  call : CallStep malloc r.kernel c r'.kernel
  asked : ∀ page, r'.asked page =
    if pageAt r.kernel.paging page = none ∧ pageAt r'.kernel.paging page ≠ none then c.permissions
    else r.asked page

/-- A page that becomes present asks for no more than the directory entry of its slot gives, and a
frame that is given back is a block of the manager. -/
def PermissionOk (malloc : TableSource) (s : Kernel) : PageOp → Prop
  | .map address _ isKernel isWriteable =>
    FreshTable malloc s (pageNumber address / 1024) ∧
      (s.paging.directory.refTables (pageNumber address / 1024) ≠ 0 →
        pageAt s.paging (pageNumber address) = none →
        (isKernel = false →
          (s.paging.directory.tables (pageNumber address / 1024)).user = true) ∧
        (isWriteable = true →
          (s.paging.directory.tables (pageNumber address / 1024)).rw = true))
  | .unmap address shouldFree => FreesInside s.paging address shouldFree

/-! ## One operation -/

/-- The directory entry of a slot gives all that the entry of the page asks for. -/
structure Covered (w : PagingWorld) (page : Nat) (entry : PageEntry) : Prop where
  user : entry.user = true → (w.directory.tables (page / 1024)).user = true
  write : entry.rw = true → (w.directory.tables (page / 1024)).rw = true

structure CoveredInvariant (w : PagingWorld) : Prop where
  apart : TablesApart w
  ready : PmmReady w.pmm
  covered : ∀ page entry, pageAt w page = some entry → Covered w page entry

variable {malloc : TableSource} {s s' s₀ : Kernel} {w w' : PagingWorld} {page : Nat}
  {entry : PageEntry} {isKernel isWriteable : Bool}

theorem Covered.effective_eq (h : Covered w page entry) (hpage : pageAt w page = some entry) :
    effective w page = some ⟨entry.user, entry.rw⟩ := by
  have huser : ((w.directory.tables (page / 1024)).user && entry.user) = entry.user := by
    cases hu : entry.user with
    | false => rw [Bool.and_false]
    | true => rw [h.user hu, Bool.and_true]
  have hwrite : ((w.directory.tables (page / 1024)).rw && entry.rw) = entry.rw := by
    cases hw : entry.rw with
    | false => rw [Bool.and_false]
    | true => rw [h.write hw, Bool.and_true]
  rw [effective, hpage, Option.map_some, huser, hwrite]

/-- What a mapping operation does to the pages: at most one becomes present, with the entry that
was asked for, and the others stay. -/
theorem PageMapped.pages_cases {page frame : Nat}
    (h : PageMapped w w' page frame isKernel isWriteable) :
    pageAt w' = pageAt w ∨
      (pageAt w page = none ∧ ∃ block, pageAt w' =
        Function.update (pageAt w) page (some (newEntry block isKernel isWriteable))) := by
  cases h with
  | kept _ _ same => exact Or.inl (by rw [same])
  | explicit absent _ pages _ => exact Or.inr ⟨absent, _, pages⟩
  | taken block absent _ _ _ _ pages _ => exact Or.inr ⟨absent, block, pages⟩
  | exhausted _ _ _ same =>
    left
    rw [same]
    exact pageAt_congr rfl rfl

theorem PageMapped.ready {page frame : Nat} (h : PageMapped w w' page frame isKernel isWriteable)
    (hr : PmmReady w.pmm) : PmmReady w'.pmm := by
  cases h with
  | kept _ _ same =>
    rw [same]
    exact hr
  | explicit _ _ _ pmm =>
    rw [pmm]
    exact hr
  | taken block _ _ _ _ _ _ pmm =>
    rw [pmm]
    exact takeBlock_ready hr block
  | exhausted _ _ _ same =>
    rw [same]
    exact ⟨hr.initialized, hr.words, hr.bitCount_le⟩

/-- The directory entry of the slot, once it has a page table. -/
theorem TableReady.entries {slot table : Nat}
    (h : TableReady w w' slot table isKernel isWriteable) :
    (w.directory.refTables slot ≠ 0 ∧ w'.directory.tables = w.directory.tables) ∨
    (w.directory.refTables slot = 0 ∧ ∃ e, e.user = !isKernel ∧ e.rw = isWriteable ∧
      w'.directory.tables = Function.update w.directory.tables slot e) := by
  cases h with
  | old ref ne same =>
    rw [same]
    exact Or.inl ⟨by rw [ref]; exact ne, rfl⟩
  | new absent _ _ install =>
    rw [install]
    exact Or.inr ⟨absent, _, rfl, rfl, rfl⟩

/-- The permissions that a page of the operation is to have. -/
def PageOp.permissions : PageOp → Option Permissions
  | .map _ _ k w => some (requested k w)
  | .unmap _ _ => none

/-- Every operation of a call asks for what the call asks for. -/
theorem PagingCall.permissions_pages (c : PagingCall) :
    ∀ op ∈ c.pages, op.permissions = c.permissions := by
  intro op hop
  cases c with
  | identityAllocateSingle | allocateSingle | allocateToPhysical | freeSingle =>
    rw [List.mem_singleton.mp hop]
    rfl
  | identityAllocateRange | allocateRange | freeRange =>
    obtain ⟨x, -, rfl⟩ := List.mem_map.mp hop
    rfl

/-- What operations that ask for `permissions` may do to the pages: a mapping call only adds pages,
with these permissions, and a freeing call only removes some. -/
inductive Effect (w w' : PagingWorld) : Option Permissions → Prop where
  | maps (p : Permissions)
    (kept : ∀ page entry, pageAt w page = some entry → pageAt w' page = some entry)
    (made : ∀ page entry, pageAt w page = none → pageAt w' page = some entry →
      (⟨entry.user, entry.rw⟩ : Permissions) = p) : Effect w w' (some p)
  | frees (only : ∀ page entry, pageAt w' page = some entry → pageAt w page = some entry) :
    Effect w w' none

theorem Effect.refl (w : PagingWorld) : ∀ permissions, Effect w w permissions
  | some p => .maps p (fun _ _ h => h) fun page entry hnone hsome => by
    rw [hnone] at hsome
    cases hsome
  | none => .frees fun _ _ h => h

theorem Effect.trans {w'' : PagingWorld} {permissions : Option Permissions}
    (h : Effect w w' permissions) (h' : Effect w' w'' permissions) : Effect w w'' permissions := by
  cases h with
  | maps p kept made =>
    cases h' with
    | maps _ kept' made' =>
      refine .maps p (fun page entry hp => kept' page entry (kept page entry hp)) ?_
      intro page entry hnone hsome
      cases hmid : pageAt w' page with
      | none => exact made' page entry hmid hsome
      | some e =>
        have he := kept' page e hmid
        rw [hsome] at he
        obtain rfl := Option.some.inj he
        exact made page entry hnone hmid
  | frees only =>
    cases h' with
    | frees only' => exact .frees fun page entry hp => only page entry (only' page entry hp)

/-- A page that is present afterwards was present before, with the same entry, or was made. -/
theorem Effect.cases {permissions : Option Permissions} (h : Effect w w' permissions)
    (hpage : pageAt w' page = some entry) :
    pageAt w page = some entry ∨
      (pageAt w page = none ∧ permissions = some ⟨entry.user, entry.rw⟩) := by
  cases h with
  | maps p kept made =>
    cases hbefore : pageAt w page with
    | none => exact Or.inr ⟨rfl, by rw [made page entry hbefore hpage]⟩
    | some e =>
      have he := kept page e hbefore
      rw [hpage] at he
      exact Or.inl he.symm
  | frees only => exact Or.inl (only page entry hpage)

/-- Mapping a page, once the slot has a page table. -/
theorem CoveredInvariant.mapped {page frame : Nat} (h : CoveredInvariant w)
    (hdir : w'.directory = w.directory)
    (hcover : pageAt w page = none →
      (isKernel = false → (w.directory.tables (page / 1024)).user = true) ∧
      (isWriteable = true → (w.directory.tables (page / 1024)).rw = true))
    (hm : PageMapped w w' page frame isKernel isWriteable) :
    CoveredInvariant w' ∧ Effect w w' (some (requested isKernel isWriteable)) := by
  have hapart : TablesApart w' := PageMapped.apart hdir h.apart
  have hready := hm.ready h.ready
  rcases hm.pages_cases with hpages | ⟨habsent, block, hpages⟩
  · refine ⟨⟨hapart, hready, ?_⟩, ?_⟩
    · intro q e hq
      rw [hpages] at hq
      obtain ⟨hu, hw⟩ := h.covered q e hq
      exact ⟨by rw [hdir]; exact hu, by rw [hdir]; exact hw⟩
    · refine .maps _ (by rw [hpages]; exact fun _ _ hp => hp) ?_
      intro q e hnone hsome
      rw [hpages, hnone] at hsome
      cases hsome
  · obtain ⟨huser, hwrite⟩ := hcover habsent
    refine ⟨⟨hapart, hready, ?_⟩, .maps _ ?_ ?_⟩
    · intro q e hq
      rw [hpages] at hq
      by_cases hqp : q = page
      · rw [hqp, Function.update_self] at hq
        obtain rfl := Option.some.inj hq
        rw [hqp]
        refine ⟨fun hu => ?_, fun hw => ?_⟩
        · rw [hdir]
          exact huser (by simpa [newEntry] using hu)
        · rw [hdir]
          exact hwrite hw
      · rw [Function.update_of_ne hqp] at hq
        obtain ⟨hu, hw⟩ := h.covered q e hq
        exact ⟨by rw [hdir]; exact hu, by rw [hdir]; exact hw⟩
    · intro q e hq
      have hqp : q ≠ page := by
        rintro rfl
        rw [habsent] at hq
        cases hq
      rw [hpages, Function.update_of_ne hqp]
      exact hq
    · intro q e hnone hsome
      rw [hpages] at hsome
      by_cases hqp : q = page
      · rw [hqp, Function.update_self] at hsome
        obtain rfl := Option.some.inj hsome
        rfl
      · rw [Function.update_of_ne hqp, hnone] at hsome
        cases hsome

/-- **One operation** keeps every page covered, and has the effect it asks for. -/
theorem CoveredInvariant.step {op : PageOp} (h : CoveredInvariant s.paging)
    (hok : PermissionOk malloc s op) (hstep : PageStep malloc s op s') :
    CoveredInvariant s'.paging ∧ Effect s.paging s'.paging op.permissions := by
  cases hstep with
  | @map _ address frame isKernel isWriteable result =>
    obtain ⟨hfresh, hasks⟩ := hok
    have ha := allocatePage_cases h.apart h.ready hfresh result
    obtain ⟨w₁, table, hready, hmapped, hdir⟩ := ha.steps
    obtain ⟨hpmm, -⟩ := hready.same
    have hpages := hready.pages
    -- the page table of the slot, and its directory entry
    have h₁ : CoveredInvariant w₁ ∧ (pageAt w₁ (pageNumber address) = none →
        (isKernel = false → (w₁.directory.tables (pageNumber address / 1024)).user = true) ∧
        (isWriteable = true → (w₁.directory.tables (pageNumber address / 1024)).rw = true)) := by
      rcases hready.entries with ⟨href, hsame⟩ | ⟨hnone, e, huser, hwrite, hnew⟩
      · refine ⟨⟨hready.apart h.apart, by rw [hpmm]; exact h.ready, ?_⟩, ?_⟩
        · intro q e hq
          rw [hpages] at hq
          obtain ⟨hu, hw⟩ := h.covered q e hq
          exact ⟨by rw [hsame]; exact hu, by rw [hsame]; exact hw⟩
        · rw [hpages, hsame]
          exact hasks href
      · refine ⟨⟨hready.apart h.apart, by rw [hpmm]; exact h.ready, ?_⟩, ?_⟩
        · intro q e' hq
          rw [hpages] at hq
          have hslot : q / 1024 ≠ pageNumber address / 1024 := by
            intro he
            rw [pageAt_of_noTable (by rw [he]; exact hnone)] at hq
            cases hq
          obtain ⟨hu, hw⟩ := h.covered q e' hq
          refine ⟨fun hx => ?_, fun hx => ?_⟩
          · rw [hnew, Function.update_of_ne hslot]
            exact hu hx
          · rw [hnew, Function.update_of_ne hslot]
            exact hw hx
        · intro _
          rw [hnew, Function.update_self, huser, hwrite]
          exact ⟨fun hk => by rw [hk]; rfl, fun hw => hw⟩
    obtain ⟨hinv, heffect⟩ := h₁.1.mapped hdir h₁.2 hmapped
    refine ⟨hinv, (show Effect s.paging w₁ _ from ?_).trans heffect⟩
    refine .maps _ (by rw [hpages]; exact fun _ _ hp => hp) fun q e hnone hsome => ?_
    rw [hpages, hnone] at hsome
    cases hsome
  | @unmap address shouldFree =>
    have honly : ∀ q e, pageAt (freePage s.paging address shouldFree) q = some e →
        pageAt s.paging q = some e := by
      intro q e hq
      rw [freePage_pages h.apart hok] at hq
      by_cases hqa : q = pageNumber address
      · rw [hqa, Function.update_self] at hq
        cases hq
      · rwa [Function.update_of_ne hqa] at hq
    have hdir := freePage_directory hok
    refine ⟨⟨apart_freePage h.apart hok, ?_, ?_⟩, .frees honly⟩
    · exact freePage_ready h.ready address shouldFree
    · intro q e hq
      obtain ⟨hu, hw⟩ := h.covered q e (honly q e hq)
      refine ⟨fun hx => ?_, fun hx => ?_⟩
      · show ((freePage s.paging address shouldFree).directory.tables (q / 1024)).user = true
        rw [hdir]
        exact hu hx
      · show ((freePage s.paging address shouldFree).directory.tables (q / 1024)).rw = true
        rw [hdir]
        exact hw hx

/-! ## Every run -/

/-- Every operation of a call keeps every page covered, and together they have the effect the
call asks for. -/
theorem CoveredInvariant.ops {permissions : Option Permissions} : ∀ {ops : List PageOp}
    {s s' : Kernel},
    CoveredInvariant s.paging → (∀ op ∈ ops, op.permissions = permissions) →
      PagesOk malloc (PermissionOk malloc) s ops → PageRun malloc ops s s' →
      CoveredInvariant s'.paging ∧ Effect s.paging s'.paging permissions
  | [], s, _, h, _, _, hrun => by
    obtain rfl : s = _ := hrun
    exact ⟨h, Effect.refl _ _⟩
  | op :: ops, s, s', h, hsame, ⟨hok, hrest⟩, ⟨s₁, hs, hrun⟩ => by
    obtain ⟨h₁, heffect⟩ := h.step hok hs
    rw [hsame op (List.mem_cons_self ..)] at heffect
    obtain ⟨h', heffect'⟩ := CoveredInvariant.ops h₁
      (fun o ho => hsame o (List.mem_cons_of_mem _ ho)) (hrest s₁ hs) hrun
    exact ⟨h', heffect.trans heffect'⟩

/-- Every page is covered, and has the permissions that are recorded for it. -/
structure RecordedInvariant (r : Recorded) : Prop where
  covered : CoveredInvariant r.kernel.paging
  asked : ∀ page entry, pageAt r.kernel.paging page = some entry →
    r.asked page = some ⟨entry.user, entry.rw⟩

theorem RecordedInvariant.step {r r' : Recorded} {c : PagingCall} (h : RecordedInvariant r)
    (hok : PagesOk malloc (PermissionOk malloc) r.kernel c.pages) (hstep : RecordedStep malloc r c r') :
    RecordedInvariant r' := by
  have heffect : CoveredInvariant r'.kernel.paging ∧
      Effect r.kernel.paging r'.kernel.paging c.permissions := by
    rcases PagingCall.pageRun hstep.call.words hstep.call.result with hsame | hrun
    · rw [hsame]
      exact ⟨h.covered, Effect.refl _ _⟩
    · exact h.covered.ops c.permissions_pages hok hrun
  refine ⟨heffect.1, fun page entry hpage => ?_⟩
  rw [hstep.asked]
  rcases heffect.2.cases hpage with hbefore | ⟨hnone, hasked⟩
  · rw [if_neg (fun hc => by rw [hbefore] at hc; cases hc.1)]
    exact h.asked page entry hbefore
  · rw [if_pos ⟨hnone, by rw [hpage]; exact Option.some_ne_none _⟩, hasked]

/--
**Every present page has the permissions it was mapped with**, in every run of mapping and freeing
calls from a cleared directory in which every operation meets `PermissionOk`.
-/
theorem permissions_requested {r r' : Recorded}
    (hclear : r.kernel.paging.directory = clearedDirectory) (hready : PmmReady r.kernel.paging.pmm)
    (hrun : Run (RecordedStep malloc)
      (fun r c => PagesOk malloc (PermissionOk malloc) r.kernel c.pages) r r') {page : Nat}
    (hpage : pageAt r'.kernel.paging page ≠ none) :
    effective r'.kernel.paging page = r'.asked page := by
  have hstart : RecordedInvariant r := by
    refine ⟨⟨?_, hready, ?_⟩, ?_⟩
    · intro i j hi
      rw [hclear] at hi
      exact absurd rfl hi
    · intro q e hq
      rw [pageAt_cleared hclear] at hq
      cases hq
    · intro q e hq
      rw [pageAt_cleared hclear] at hq
      cases hq
  have hinv : RecordedInvariant r' := hrun.invariant (fun _ _ _ hI hok hs => hI.step hok hs) hstart
  obtain ⟨entry, hentry⟩ := Option.ne_none_iff_exists'.mp hpage
  rw [(hinv.covered.covered page entry hentry).effective_eq hentry, hinv.asked page entry hentry]

/-- The record after a call. -/
def Recorded.after (r : Recorded) (c : PagingCall) (s : Kernel) : Recorded where
  kernel := s
  asked := fun page =>
    if pageAt r.kernel.paging page = none ∧ pageAt s.paging page ≠ none then c.permissions
    else r.asked page

theorem Recorded.after_step {r : Recorded} {c : PagingCall}
    (h : callWith malloc r.kernel c = some s) : RecordedStep malloc r c (r.after c s) :=
  ⟨callWith_step h, fun _ => rfl⟩

/-- A page for user mode, and then a page of the same slot that only the kernel may use, which keeps
its permissions when the first one is given back. -/
theorem permissions_requested_freshKernel : ∃ s s' s'',
    callWith (heapTables 1) (freshKernel 0xC0200000 0x20000) (.allocateSingle 0x400000 false true) =
      some s ∧
    callWith (heapTables 1) s (.allocateSingle 0x401000 true false) = some s' ∧
    callWith (heapTables 1) s' (.freeSingle 0x400000 true) = some s'' ∧
    effective s''.paging 0x401 = some ⟨false, false⟩ := by
  have hfresh : FreshWorld (freshKernel 0xC0200000 0x20000).paging := freshKernel_fresh (by decide)
  have hroom := @tableRoom_start (Finset.range 1024) (freshKernel 0xC0200000 0x20000)
    rfl hfresh.directory (by decide) (by simp) (by rw [Finset.card_range]; decide)
  obtain ⟨s, s', s'', hfirst, htable, habsent, hsecond, hold, hvalid, hnew, hthird, hpage⟩ :
      ∃ s s' s'',
      callWith (heapTables 1) (freshKernel 0xC0200000 0x20000) (.allocateSingle 0x400000 false true) =
        some s ∧
      s.paging.directory.refTables 1 = 0xC0200000 ∧
      pageAt s.paging 0x401 = none ∧
      callWith (heapTables 1) s (.allocateSingle 0x401000 true false) = some s' ∧
      pageAt s'.paging 0x400 = some ⟨true, true, true, 0⟩ ∧
      isValidBlock s'.paging.pmm 0 = true ∧
      pageAt s'.paging 0x401 = some ⟨true, false, false, 1⟩ ∧
      callWith (heapTables 1) s' (.freeSingle 0x400000 true) = some s'' ∧
      pageAt s''.paging 0x401 = some ⟨true, false, false, 1⟩ :=
    ⟨_, _, _, rfl, rfl, rfl, rfl, by decide +kernel, by decide +kernel, by decide +kernel, rfl,
      by decide +kernel⟩
  have hpresent : pageAt s'.paging 0x401 ≠ none := by
    rw [hnew]
    exact Option.some_ne_none _
  have hstill : pageAt s''.paging 0x401 ≠ none := by
    rw [hpage]
    exact Option.some_ne_none _
  have hok₁ : PermissionOk (heapTables 1) (freshKernel 0xC0200000 0x20000)
      (.map 0x400000 0 false true) :=
    ⟨hroom.fresh 0 (slot_mem_range (by decide)), fun hne => absurd rfl hne⟩
  have hok₂ : PermissionOk (heapTables 1) s (.map 0x401000 0 true false) := by
    refine ⟨fun hnone => ?_, fun _ _ => ⟨fun h => (Bool.noConfusion h), fun h => Bool.noConfusion h⟩⟩
    rw [show pageNumber 0x401000 / 1024 = 1 from rfl, htable] at hnone
    cases hnone
  have hok₃ : PermissionOk (heapTables 1) s' (.unmap 0x400000 true) := by
    intro _ entry hentry
    obtain rfl := Option.some.inj (hold.symm.trans hentry)
    exact hvalid
  let r : Recorded := ⟨freshKernel 0xC0200000 0x20000, fun _ => none⟩
  let r₁ := r.after (.allocateSingle 0x400000 false true) s
  let r₂ := r₁.after (.allocateSingle 0x401000 true false) s'
  let r₃ := r₂.after (.freeSingle 0x400000 true) s''
  have hrun : Run (RecordedStep (heapTables 1))
      (fun r c => PagesOk (heapTables 1) (PermissionOk (heapTables 1)) r.kernel c.pages) r r₃ :=
    ((Run.single (a := .allocateSingle 0x400000 false true)
      ⟨hok₁, fun _ _ => trivial⟩ (r.after_step hfirst)).tail
      (a := .allocateSingle 0x401000 true false) ⟨hok₂, fun _ _ => trivial⟩
      (r₁.after_step hsecond)).tail
      (a := .freeSingle 0x400000 true) ⟨hok₃, fun _ _ => trivial⟩ (r₂.after_step hthird)
  have hbefore : r₂.asked 0x401 = some ⟨false, false⟩ := if_pos ⟨habsent, hpresent⟩
  have hasked : r₃.asked 0x401 = some ⟨false, false⟩ :=
    (if_neg fun h => hpresent h.1).trans hbefore
  exact ⟨s, s', s'', hfirst, hsecond, hthird,
    (permissions_requested hfresh.directory hfresh.ready hrun hstill).trans hasked⟩

/-- The slot is entered for the kernel and read-only, and then a page of it is mapped for user mode
and writing: it is present, and neither is allowed. -/
theorem exists_lost_permission :
    (freshKernel 0xC0200000 0x20000).paging.directory = clearedDirectory ∧
    ∃ r', Run (RecordedStep (heapTables 1)) (fun _ _ => True)
        ⟨freshKernel 0xC0200000 0x20000, fun _ => none⟩ r' ∧
      pageAt r'.kernel.paging 0x401 ≠ none ∧
      effective r'.kernel.paging 0x401 ≠ r'.asked 0x401 := by
  refine ⟨rfl, ?_⟩
  obtain ⟨s, s', hfirst, hsecond, habsent, hpage, heffective⟩ : ∃ s s',
      callWith (heapTables 1) (freshKernel 0xC0200000 0x20000) (.allocateSingle 0x400000 true false) =
        some s ∧
      callWith (heapTables 1) s (.allocateSingle 0x401000 false true) = some s' ∧
      pageAt s.paging 0x401 = none ∧
      pageAt s'.paging 0x401 = some ⟨true, true, true, 1⟩ ∧
      effective s'.paging 0x401 = some ⟨false, false⟩ :=
    ⟨_, _, rfl, rfl, rfl, by decide +kernel, by decide +kernel⟩
  have hpresent : pageAt s'.paging 0x401 ≠ none := by
    rw [hpage]
    exact Option.some_ne_none _
  let r : Recorded := ⟨freshKernel 0xC0200000 0x20000, fun _ => none⟩
  let r₁ := r.after (.allocateSingle 0x400000 true false) s
  refine ⟨r₁.after (.allocateSingle 0x401000 false true) s',
    (Run.single trivial (r.after_step hfirst)).tail trivial (r₁.after_step hsecond), hpresent, ?_⟩
  have hasked : (r₁.after (.allocateSingle 0x401000 false true) s').asked 0x401 =
      some ⟨true, true⟩ := if_pos ⟨habsent, hpresent⟩
  rw [hasked]
  show effective s'.paging 0x401 ≠ _
  rw [heffective]
  decide

end Xylophone
