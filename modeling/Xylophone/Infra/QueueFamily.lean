import Xylophone.Infra.LinkedQueue

/-!
# Families of intrusive queues

Several queues that share their links, as long as no element is in two of them or in one of them
twice. Each queue is a list then, and an operation on one queue leaves the lists of the others.

* `HoldsAll.push` — an element of no queue goes to the end of one
* `HoldsAll.pop` — the first element of one queue is taken out
* `Holds.follows` — following the links of a queue
-/

namespace Infra

variable {α κ : Type*} [DecidableEq α]

/-- Following the links from the given one leads through the elements of the list, and then to no
element. -/
def Follows (next : α → Option α) : Option α → List α → Prop
  | x, [] => x = none
  | x, a :: l => x = some a ∧ Follows next (next a) l

/-- Every queue holds its list, and no element is in two of the lists. -/
structure HoldsAll (next : α → Option α) (q : κ → Ends α) (l : κ → List α) : Prop where
  holds : ∀ k, Holds next (q k) (l k)
  closed : ∀ k, Closed next (l k)
  disjoint : ∀ k k', k ≠ k' → List.Disjoint (l k) (l k')

variable {next next' : α → Option α} {q : κ → Ends α} {l : κ → List α} {as : List α} {a : α} {k : κ}

omit [DecidableEq α] in
theorem follows_of_isChain : ∀ {x : Option α} {as : List α}, x = as.head? →
    (as.IsChain fun a b => next a = some b) → Closed next as → Follows next x as
  | _, [], hx, _, _ => hx
  | _, [a], hx, _, hclosed => ⟨hx, hclosed a rfl⟩
  | _, a :: b :: as, hx, hchain, hclosed => by
    obtain ⟨hlink, hrest⟩ := List.isChain_cons_cons.mp hchain
    refine ⟨hx, follows_of_isChain hlink hrest fun t ht => hclosed t ?_⟩
    rwa [List.getLast?_cons_cons]

omit [DecidableEq α] in
/-- **Following the links** of a queue gives its list, in order. -/
theorem Holds.follows {q : Ends α} (h : Holds next q as) (hclosed : Closed next as) :
    Follows next q.head as := follows_of_isChain h.head h.links hclosed

omit [DecidableEq α] in
theorem closed_frame (h : Closed next as) (hsame : ∀ b ∈ as, next' b = next b) :
    Closed next' as := by
  intro b hb
  rw [hsame b (List.mem_of_getLast? hb)]
  exact h b hb

omit [DecidableEq α] in
theorem holdsAll_nil : HoldsAll next (fun _ : κ => ⟨none, none⟩) fun _ => [] where
  holds := fun _ => holds_nil
  closed := fun _ _ h => by cases h
  disjoint := fun _ _ _ _ h => by cases h

variable [DecidableEq κ]

omit [DecidableEq α] in
/-- One queue changes, and the links of the elements of the others do not. -/
theorem HoldsAll.update (h : HoldsAll next q l) {e : Ends α} (hholds : Holds next' e as)
    (hclosed : Closed next' as) (hsame : ∀ k', k' ≠ k → ∀ b ∈ l k', next' b = next b)
    (hapart : ∀ k', k' ≠ k → List.Disjoint as (l k')) :
    HoldsAll next' (Function.update q k e) (Function.update l k as) where
  holds := by
    intro k'
    by_cases hk : k' = k
    · subst hk
      simpa using hholds
    · simpa [hk] using (h.holds k').frame (hsame k' hk)
  closed := by
    intro k'
    by_cases hk : k' = k
    · subst hk
      simpa using hclosed
    · simpa [hk] using closed_frame (h.closed k') (hsame k' hk)
  disjoint := by
    intro k₁ k₂ hne
    by_cases h₁ : k₁ = k
    · subst h₁
      simpa [Ne.symm hne] using hapart k₂ (Ne.symm hne)
    · by_cases h₂ : k₂ = k
      · subst h₂
        simpa [hne] using List.disjoint_symm (hapart k₁ hne)
      · simpa [h₁, h₂] using h.disjoint k₁ k₂ hne

/-- **A push.** An element of no queue goes to the end of one. -/
theorem HoldsAll.push (h : HoldsAll next q l) (ha : ∀ k', a ∉ l k') :
    HoldsAll (pushNext next (q k) a) (Function.update q k (pushEnds (q k) a))
      (Function.update l k (l k ++ [a])) := by
  obtain ⟨hholds, hclosed⟩ := (h.holds k).push (ha k)
  refine h.update hholds hclosed (fun k' hk b hb => pushNext_of_ne ?_ fun htail => ?_) ?_
  · rintro rfl
    exact ha k' hb
  · rw [(h.holds k).tail] at htail
    exact h.disjoint k k' (Ne.symm hk) (List.mem_of_getLast? htail) hb
  · intro k' hk
    rw [List.disjoint_append_left]
    exact ⟨h.disjoint k k' (Ne.symm hk), List.singleton_disjoint.mpr (ha k')⟩

/-- **A pop.** The first element of one queue is taken out. -/
theorem HoldsAll.pop (h : HoldsAll next q l) (hl : l k = a :: as) :
    HoldsAll (popNext next a) (Function.update q k (popEnds next (q k) a))
      (Function.update l k as) := by
  have hholds := h.holds k
  have hclosed := h.closed k
  rw [hl] at hholds hclosed
  have hmem : a ∈ l k := by
    rw [hl]
    exact List.mem_cons_self
  have ha : a ∉ as := (List.nodup_cons.mp hholds.nodup).1
  have hend : as ≠ [] ∨ next a = none := by
    cases as with
    | nil => exact Or.inr (hclosed a rfl)
    | cons b as => exact Or.inl (List.cons_ne_nil b as)
  refine h.update (hholds.pop hend).1 (fun b hb => ?_) (fun k' hk b hb => ?_) fun k' hk => ?_
  · have hba : b ≠ a := by
      rintro rfl
      exact ha (List.mem_of_getLast? hb)
    rw [popNext, Function.update_of_ne hba]
    refine hclosed b ?_
    cases as with
    | nil => cases hb
    | cons c as => rwa [List.getLast?_cons_cons]
  · refine Function.update_of_ne ?_ _ _
    rintro rfl
    exact h.disjoint k k' (Ne.symm hk) hmem hb
  · have hdisjoint := h.disjoint k k' (Ne.symm hk)
    rw [hl] at hdisjoint
    exact (List.disjoint_cons_left.mp hdisjoint).2

end Infra
