import Mathlib.Data.List.Nodup
import Xylophone.Strings.Basic

/-!
# `kthread.c`

Kernel threads are registered under their names in a table that the linker puts together.
`kthread_start` compares as many bytes of the requested name as the name of the entry has, and takes
the first entry for which they are the same.

* `kthreadStart_eq` — the entry that is taken
* `kthread_start_iff` — when it is the one with the requested name
* `exists_wrong_kthread` — a name that begins with the name of an earlier entry
-/

namespace Xylophone

open Infra Memory

/-- `kthread_t` -/
structure Kthread where
  name : Nat
  entry : Nat
deriving DecidableEq, Repr

/-- The arguments of a call of `task_create_kthread`. -/
structure CreateKthread where
  entry : Nat
  name : Nat
  argc : Nat
  argv : Nat
deriving DecidableEq, Repr

/-- The call for an entry of the table. -/
def Kthread.create (e : Kthread) (argc argv : Nat) : CreateKthread := ⟨e.entry, e.name, argc, argv⟩

/--
`kthread_start`: the call of `task_create_kthread` of which the result is returned; when there is none,
-1 is returned.
-/
def kthreadStart (m : Memory) (name argc argv : Nat) : List Kthread → Option (Option CreateKthread)
  | [] => some none
  | e :: es =>
    (strlen m e.name).bind fun n =>
      if memcmp m name e.name n = 0 then some (some (e.create argc argv))
      else kthreadStart m name argc argv es

/-- The task is created for the entry with the requested name, and -1 is returned exactly when there
is none. -/
structure StartsNamed (m : Memory) (name argc argv : Nat) (entries : List Kthread)
    (nameOf : Kthread → List Nat) (requested : List Nat) : Prop where
  found : ∀ e ∈ entries, nameOf e = requested →
    kthreadStart m name argc argv entries = some (some (e.create argc argv))
  missing : kthreadStart m name argc argv entries = some none ↔ ∀ e ∈ entries, nameOf e ≠ requested

/-- An entry whose name the requested one begins with stands behind the entry with that name. -/
def PrefixesBehind (entries : List Kthread) (nameOf : Kthread → List Nat) (requested : List Nat) :
    Prop :=
  ∀ xs e ys, entries = xs ++ e :: ys → nameOf e <+: requested → nameOf e ≠ requested →
    ∃ x ∈ xs, nameOf x = requested

variable {m : Memory} {name argc argv : Nat} {entries : List Kthread} {nameOf : Kthread → List Nat}
  {requested : List Nat}

/-- The first element with `p` has `q`, which is stronger: no element with `p` only comes first. -/
theorem find_forall_iff {α : Type} {p : α → Bool} {q : α → Prop} (hpq : ∀ x, q x → p x = true)
    {l : List α} : (∀ x, l.find? p = some x → q x) ↔
      ∀ xs x ys, l = xs ++ x :: ys → p x = true → ¬ q x → ∃ y ∈ xs, q y := by
  constructor
  · rintro h xs x ys rfl hp hq
    rw [List.find?_append, List.find?_cons_of_pos hp] at h
    cases hfirst : xs.find? p with
    | none => exact absurd (h x (by rw [hfirst, Option.none_or])) hq
    | some y => exact ⟨y, List.mem_of_find?_eq_some hfirst, h y (by rw [hfirst, Option.some_or])⟩
  · intro h x hx
    by_contra hq
    obtain ⟨hp, xs, ys, rfl, hbefore⟩ := List.find?_eq_some_iff_append.mp hx
    obtain ⟨y, hy, hqy⟩ := h xs x ys rfl hp hq
    have hno := hbefore y hy
    rw [hpq y hqy] at hno
    cases hno

/-- **The first entry whose name the requested one begins with.** -/
theorem kthreadStart_eq (hname : HoldsString m name requested)
    (hentries : ∀ e ∈ entries, HoldsString m e.name (nameOf e)) :
    kthreadStart m name argc argv entries =
      some ((entries.find? fun e => (nameOf e).isPrefixOf requested).map fun e =>
        e.create argc argv) := by
  induction entries with
  | nil => rfl
  | cons e es ih =>
    have he := hentries e List.mem_cons_self
    have hcompare := memcmp_prefix_iff hname he
    rw [kthreadStart, strlen_holds he, Option.bind_some]
    by_cases hprefix : nameOf e <+: requested
    · rw [if_pos (hcompare.mpr hprefix), List.find?_cons_of_pos (by simpa using hprefix)]
      rfl
    · rw [if_neg fun h => hprefix (hcompare.mp h), List.find?_cons_of_neg (by simpa using hprefix)]
      exact ih fun e he => hentries e (List.mem_cons_of_mem _ he)

/-- The task is the one that was asked for exactly when the search stops at no other name. -/
theorem startsNamed_iff (hname : HoldsString m name requested)
    (hentries : ∀ e ∈ entries, HoldsString m e.name (nameOf e))
    (hdistinct : (entries.map nameOf).Nodup) :
    StartsNamed m name argc argv entries nameOf requested ↔
      ∀ e, entries.find? (fun e => (nameOf e).isPrefixOf requested) = some e →
        nameOf e = requested := by
  have hstart := @kthreadStart_eq m name argc argv entries nameOf requested hname hentries
  constructor
  · rintro ⟨hfound, hmissing⟩ e he
    have hmem := List.mem_of_find?_eq_some he
    rw [he, Option.map_some] at hstart
    -- there is an entry with the name, for which the task would have been created
    obtain ⟨u, hu, hnamed⟩ : ∃ u ∈ entries, nameOf u = requested := by
      by_contra hno
      push Not at hno
      rw [hmissing.mpr hno] at hstart
      cases hstart
    have hcreate := hfound u hu hnamed
    rw [hstart] at hcreate
    have hsame : e.name = u.name :=
      congrArg CreateKthread.name (Option.some.inj (Option.some.inj hcreate))
    rw [← hnamed]
    exact (hentries e hmem).unique (hsame ▸ hentries u hu)
  · intro hexact
    refine ⟨fun u hu hnamed => ?_, fun hnone u hu hnamed => ?_, fun hno => ?_⟩
    · obtain ⟨e, he⟩ : ∃ e, entries.find? (fun e => (nameOf e).isPrefixOf requested) = some e := by
        rw [← Option.isSome_iff_exists, List.find?_isSome]
        exact ⟨u, hu, by simp [hnamed]⟩
      have heu : e = u := List.inj_on_of_nodup_map hdistinct (List.mem_of_find?_eq_some he) hu
        ((hexact e he).trans hnamed.symm)
      rw [hstart, he, Option.map_some, heu]
    · rw [hstart, Option.some_inj, Option.map_eq_none_iff, List.find?_eq_none] at hnone
      exact hnone u hu (by simp [hnamed])
    · cases he : entries.find? fun e => (nameOf e).isPrefixOf requested with
      | none => rw [hstart, he, Option.map_none]
      | some e => exact absurd (hexact e he) (hno e (List.mem_of_find?_eq_some he))

/-- **When the entry with the requested name is taken.** -/
theorem kthread_start_iff (hname : HoldsString m name requested)
    (hentries : ∀ e ∈ entries, HoldsString m e.name (nameOf e))
    (hdistinct : (entries.map nameOf).Nodup) (argc argv : Nat) :
    StartsNamed m name argc argv entries nameOf requested ↔
      PrefixesBehind entries nameOf requested := by
  rw [startsNamed_iff hname hentries hdistinct, find_forall_iff]
  · unfold PrefixesBehind
    simp
  · intro e hnamed
    simp [hnamed]

/-! ## Names that begin alike -/

/-- The names "io" and "iod" and, at the front, the requested name "iod". -/
def nameMemory : Memory :=
  ((Memory.writeBytes (fun _ => 0) 0x1000 [0x69, 0x6F, 0x64, 0]).writeBytes 0x2000
    [0x69, 0x6F, 0]).writeBytes 0x3000 [0x69, 0x6F, 0x64, 0]

def nameIn (e : Kthread) : List Nat := if e.name = 0x2000 then [0x69, 0x6F] else [0x69, 0x6F, 0x64]

theorem nameMemory_holds : HoldsString nameMemory 0x1000 [0x69, 0x6F, 0x64] ∧
    HoldsString nameMemory 0x2000 [0x69, 0x6F] ∧
    HoldsString nameMemory 0x3000 [0x69, 0x6F, 0x64] :=
  ⟨⟨by decide, by decide, by decide, by decide, by decide⟩,
    ⟨by decide, by decide, by decide, by decide, by decide⟩,
    ⟨by decide, by decide, by decide, by decide, by decide⟩⟩

theorem kthread_start_iff_longFirst :
    let entries : List Kthread := [⟨0x3000, 0xC0100000⟩, ⟨0x2000, 0xC0100100⟩]
    StartsNamed nameMemory 0x1000 0 0 entries nameIn [0x69, 0x6F, 0x64] ↔
      PrefixesBehind entries nameIn [0x69, 0x6F, 0x64] := by
  obtain ⟨hname, hshort, hlong⟩ := nameMemory_holds
  refine kthread_start_iff hname (fun e he => ?_) (by decide) 0 0
  simp only [List.mem_cons, List.not_mem_nil, or_false] at he
  rcases he with rfl | rfl
  · exact hlong
  · exact hshort

/-- **A name that begins with the name of an earlier entry**: the thread "io" is started for "iod". -/
theorem exists_wrong_kthread : ¬ ∀ (m : Memory) (name argc argv : Nat) (entries : List Kthread)
    (nameOf : Kthread → List Nat) (requested : List Nat), HoldsString m name requested →
      (∀ e ∈ entries, HoldsString m e.name (nameOf e)) → (entries.map nameOf).Nodup →
        StartsNamed m name argc argv entries nameOf requested := by
  intro hall
  obtain ⟨hname, hshort, hlong⟩ := nameMemory_holds
  have hstarts := hall nameMemory 0x1000 0 0 [⟨0x2000, 0xC0100100⟩, ⟨0x3000, 0xC0100000⟩] nameIn
    [0x69, 0x6F, 0x64] hname (fun e he => ?_) (by decide)
  · have hfound := hstarts.found ⟨0x3000, 0xC0100000⟩ (by simp) rfl
    rw [kthreadStart, strlen_holds hshort] at hfound
    revert hfound
    decide
  · simp only [List.mem_cons, List.not_mem_nil, or_false] at he
    rcases he with rfl | rfl
    · exact hshort
    · exact hlong

end Xylophone
