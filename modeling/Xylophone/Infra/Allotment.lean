import Mathlib.Data.Finset.Card
import Mathlib.Logic.Function.Basic

/-!
# Allotments

Holders each have at most one resource, and no resource has two holders: a partial injective
function, `holding`, together with the finite set of the resources that are held. An allocator
keeps such a pair in step: it gives a free resource to a holder without one (`Allots.give`), and
takes one back (`Allots.take`).
-/

namespace Infra

variable {α β : Type*} [DecidableEq α] [DecidableEq β]

/-- `holding` is injective where it is defined, and `held` is its range. -/
structure Allots (holding : α → Option β) (held : Finset β) : Prop where
  injective : ∀ {a a' b}, holding a = some b → holding a' = some b → a = a'
  range : ∀ b, b ∈ held ↔ ∃ a, holding a = some b

namespace Allots

variable {holding : α → Option β} {held : Finset β} {a : α} {b : β}

omit [DecidableEq α] [DecidableEq β] in
theorem empty : Allots (fun _ : α => (none : Option β)) ∅ where
  injective := fun h => by cases h
  range := by simp

/-- A holder without a resource gets one that nobody holds. -/
theorem give (h : Allots holding held) (hfree : b ∉ held) (hnone : holding a = none) :
    Allots (Function.update holding a (some b)) (insert b held) where
  injective := by
    have hno : ∀ c, holding c ≠ some b := fun c hc => hfree ((h.range b).mpr ⟨c, hc⟩)
    intro c d e hc hd
    by_cases hca : c = a
    · by_cases hda : d = a
      · rw [hca, hda]
      · rw [hca, Function.update_self] at hc
        rw [Function.update_of_ne hda, ← hc] at hd
        exact absurd hd (hno d)
    · rw [Function.update_of_ne hca] at hc
      by_cases hda : d = a
      · rw [hda, Function.update_self] at hd
        rw [← hd] at hc
        exact absurd hc (hno c)
      · rw [Function.update_of_ne hda] at hd
        exact h.injective hc hd
  range := by
    intro c
    rw [Finset.mem_insert, h.range]
    constructor
    · rintro (rfl | ⟨d, hd⟩)
      · exact ⟨a, Function.update_self ..⟩
      · have hda : d ≠ a := by
          rintro rfl
          rw [hnone] at hd
          cases hd
        exact ⟨d, by rw [Function.update_of_ne hda]; exact hd⟩
    · rintro ⟨d, hd⟩
      by_cases hda : d = a
      · rw [hda, Function.update_self] at hd
        exact Or.inl (Option.some.inj hd).symm
      · rw [Function.update_of_ne hda] at hd
        exact Or.inr ⟨d, hd⟩

/-- A holder gives its resource back. -/
theorem take (h : Allots holding held) (hsome : holding a = some b) :
    Allots (Function.update holding a none) (held.erase b) where
  injective := by
    intro c d e hc hd
    by_cases hca : c = a
    · rw [hca, Function.update_self] at hc
      cases hc
    · by_cases hda : d = a
      · rw [hda, Function.update_self] at hd
        cases hd
      · rw [Function.update_of_ne hca] at hc
        rw [Function.update_of_ne hda] at hd
        exact h.injective hc hd
  range := by
    intro c
    rw [Finset.mem_erase, h.range]
    constructor
    · rintro ⟨hcb, d, hd⟩
      have hda : d ≠ a := by
        rintro rfl
        rw [hsome] at hd
        exact hcb (Option.some.inj hd).symm
      exact ⟨d, by rw [Function.update_of_ne hda]; exact hd⟩
    · rintro ⟨d, hd⟩
      by_cases hda : d = a
      · rw [hda, Function.update_self] at hd
        cases hd
      · rw [Function.update_of_ne hda] at hd
        refine ⟨?_, d, hd⟩
        rintro rfl
        exact hda (h.injective hd hsome)

end Allots

end Infra
