import Mathlib.Data.List.Basic

/-!
# Loops that may not end

A loop over a list is `List.foldlM`, in `Option` when a turn of it may never come back. A loop with a
condition is given as many turns as it can need.

* `foldlM_total` — a loop ends when every turn does
* `foldlM_mono` — and goes on ending when every turn that ends does
* `whileLoop_keeps`, `whileLoop_stops` — what every turn keeps, and the condition at the end
-/

namespace Infra

variable {α σ β : Type*}

theorem foldlM_cons_some {f : σ → β → Option σ} {s s' : σ} {b : β} {l : List β} :
    (b :: l).foldlM f s = some s' ↔ ∃ s₁, f s b = some s₁ ∧ l.foldlM f s₁ = some s' := by
  rw [List.foldlM_cons]
  exact Option.bind_eq_some_iff

/-- A loop ends when every turn does. -/
theorem foldlM_total {f : σ → β → Option σ} {P : σ → Prop} {l : List β}
    (h : ∀ s b, b ∈ l → P s → ∃ s', f s b = some s' ∧ P s') {s : σ} (hs : P s) :
    ∃ s', l.foldlM f s = some s' ∧ P s' := by
  induction l generalizing s with
  | nil => exact ⟨s, rfl, hs⟩
  | cons b l ih =>
    obtain ⟨s₁, hfirst, hs₁⟩ := h s b List.mem_cons_self hs
    obtain ⟨s', hrest, hs'⟩ := ih (fun s b hb => h s b (List.mem_cons_of_mem _ hb)) hs₁
    exact ⟨s', foldlM_cons_some.mpr ⟨s₁, hfirst, hrest⟩, hs'⟩

/-- A loop that ends goes on ending when every turn that ends does. -/
theorem foldlM_mono {f g : σ → β → Option σ} (h : ∀ s b s', f s b = some s' → g s b = some s')
    {l : List β} {s s' : σ} (hf : l.foldlM f s = some s') : l.foldlM g s = some s' := by
  induction l generalizing s with
  | nil => exact hf
  | cons b l ih =>
    obtain ⟨s₁, hfirst, hrest⟩ := foldlM_cons_some.mp hf
    exact foldlM_cons_some.mpr ⟨s₁, h s b s₁ hfirst, ih hrest⟩

/-- A loop over the items of a loop. -/
theorem foldlM_flatMap {f : σ → β → Option σ} (g : α → List β) (l : List α) (s : σ) :
    (l.flatMap g).foldlM f s = l.foldlM (fun s a => (g a).foldlM f s) s := by
  induction l generalizing s with
  | nil => rfl
  | cons a l ih =>
    rw [List.flatMap_cons, List.foldlM_append, List.foldlM_cons]
    cases (g a).foldlM f s with
    | none => rfl
    | some s' => exact ih s'

/-! ## Loops with a condition -/

/-- `while (cond) body`, with at most `fuel` turns. -/
def whileLoop (cond : σ → Bool) (body : σ → σ) : (fuel : Nat) → σ → σ
  | 0, s => s
  | fuel + 1, s => if cond s then whileLoop cond body fuel (body s) else s

variable {cond : σ → Bool} {body : σ → σ}

/-- What every turn keeps holds at the end. -/
theorem whileLoop_keeps {I : σ → Prop} (h : ∀ s, cond s → I s → I (body s)) (fuel : Nat) {s : σ}
    (hs : I s) : I (whileLoop cond body fuel s) := by
  induction fuel generalizing s with
  | zero => exact hs
  | succ fuel ih =>
    rw [whileLoop]
    split
    · exact ih (h s ‹_› hs)
    · exact hs

/-- The condition fails at the end, when every turn makes something smaller. -/
theorem whileLoop_stops (cond : σ → Bool) (body : σ → σ) (size : σ → Nat)
    (h : ∀ s, cond s → size (body s) < size s) {fuel : Nat} {s : σ} (hfuel : size s ≤ fuel) :
    cond (whileLoop cond body fuel s) = false := by
  induction fuel generalizing s with
  | zero =>
    by_contra hcond
    have hless := h s (by simpa [whileLoop] using hcond)
    omega
  | succ fuel ih =>
    rw [whileLoop]
    split
    · have hless := h s ‹_›
      exact ih (by omega)
    · simp_all

end Infra
