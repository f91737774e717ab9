import Mathlib.Data.Finset.Card
import Mathlib.Logic.Function.Basic
import Mathlib.Logic.Relation
import Xylophone.Infra.Loop

/-!
# Depth-first search

Every node has items in an order, and an item leads to further nodes, which are searched before the
next item is looked at. The items are recorded as they are met, up to a capacity, and a node is
searched once. A search may come to an item that it never gets past; how deep it goes is bounded
by its fuel.

* `Graph.search_iff` — a search that may get stuck, from one that does not
* `Graph.search_total` — over finitely many nodes a search that does not get stuck ends
* `Graph.search_visits` — what is met, once each: the items of the nodes reached, and all of them
  below the capacity
* `Graph.search_found_iff` — when there is room for all of them, exactly these
-/

namespace Infra

/-- Nodes with their items, and the nodes that an item leads to. -/
structure Graph (α κ : Type*) where
  items : α → List κ
  next : κ → List α

/-- The nodes searched so far, and the items met. -/
structure Search (α κ : Type*) where
  seen : α → Bool
  found : List κ

variable {α κ σ β : Type*}

namespace Graph

variable [DecidableEq α] {g : Graph α κ} {cap : Nat} {stuck : κ → Bool}

/-- An item is met: nothing happens when the capacity is reached. -/
def visit (g : Graph α κ) (cap : Nat) (stuck : κ → Bool)
    (go : Search α κ → α → Option (Search α κ)) (w : Search α κ) (k : κ) : Option (Search α κ) :=
  if cap ≤ w.found.length then some w
  else if stuck k then none
  else (g.next k).foldlM go { w with found := w.found ++ [k] }

/-- A node is searched, unless it has been before. -/
def search (g : Graph α κ) (cap : Nat) (stuck : κ → Bool) :
    Nat → Search α κ → α → Option (Search α κ)
  | 0, _, _ => none
  | n + 1, w, a =>
    if w.seen a then some w
    else (g.items a).foldlM (g.visit cap stuck (g.search cap stuck n))
      { w with seen := Function.update w.seen a true }

variable {w w' w'' : Search α κ} {a : α} {k : κ} {n : Nat}

/-- More fuel changes no result. -/
theorem search_succ (h : g.search cap stuck n w a = some w') :
    g.search cap stuck (n + 1) w a = some w' := by
  induction n generalizing w a w' with
  | zero => cases h
  | succ n ih =>
    rw [search] at h ⊢
    split at h
    · next hseen => rwa [if_pos hseen]
    · next hseen =>
      rw [if_neg hseen]
      refine foldlM_mono (fun w k w' hv => ?_) h
      unfold visit at hv ⊢
      split at hv
      · next hfull => rwa [if_pos hfull]
      · next hroom =>
        rw [if_neg hroom]
        split at hv
        · cases hv
        · next hfree =>
          rw [if_neg hfree]
          exact foldlM_mono (fun w a w' hg => ih hg) hv

theorem search_mono {m : Nat} (hnm : n ≤ m) (h : g.search cap stuck n w a = some w') :
    g.search cap stuck m w a = some w' := by
  induction hnm with
  | refl => exact h
  | step _ ih => exact search_succ ih

/-- A search has one result. -/
theorem search_unique {m : Nat} (h : g.search cap stuck n w a = some w')
    (h' : g.search cap stuck m w a = some w'') : w' = w'' := by
  have hn := search_mono (Nat.le_max_left n m) h
  have hm := search_mono (Nat.le_max_right n m) h'
  exact Option.some.inj (hn.symm.trans hm)

/-! ## Searches that get stuck -/

/-- `free`: no item holds the search up. -/
def free : κ → Bool := fun _ => false

/-- Items that hold the search up are not among those that are new in `w'`. -/
def Avoids (stuck : κ → Bool) (w w' : Search α κ) : Prop :=
  ∃ new, w'.found = w.found ++ new ∧ ∀ k ∈ new, stuck k = false

omit [DecidableEq α] in
theorem Avoids.refl (w : Search α κ) : Avoids stuck w w := ⟨[], (List.append_nil _).symm, nofun⟩

omit [DecidableEq α] in
/-- What two parts of a search have found. -/
theorem Avoids.trans_iff (h : w.found <+: w'.found) (h' : w'.found <+: w''.found) :
    Avoids stuck w w'' ↔ Avoids stuck w w' ∧ Avoids stuck w' w'' := by
  obtain ⟨l, hl⟩ := h
  obtain ⟨l', hl'⟩ := h'
  constructor
  · rintro ⟨new, hnew, hall⟩
    rw [← hl', ← hl, List.append_assoc, List.append_cancel_left_eq] at hnew
    subst hnew
    exact ⟨⟨l, hl.symm, fun k hk => hall k (List.mem_append_left _ hk)⟩,
      ⟨l', hl'.symm, fun k hk => hall k (List.mem_append_right _ hk)⟩⟩
  · rintro ⟨⟨new, hnew, hall⟩, ⟨new', hnew', hall'⟩⟩
    refine ⟨new ++ new', by rw [hnew', hnew, List.append_assoc], fun k hk => ?_⟩
    obtain hk | hk := List.mem_append.mp hk
    · exact hall k hk
    · exact hall' k hk

omit [DecidableEq α] in
/-- A loop, from one whose turns do not get stuck. -/
theorem foldlM_avoids {f f' : Search α κ → β → Option (Search α κ)}
    (hextends : ∀ w b w', f' w b = some w' → w.found <+: w'.found)
    (h : ∀ w b w', f w b = some w' ↔ f' w b = some w' ∧ Avoids stuck w w') {l : List β} :
    (l.foldlM f w = some w' ↔ l.foldlM f' w = some w' ∧ Avoids stuck w w') ∧
      (l.foldlM f' w = some w' → w.found <+: w'.found) := by
  induction l generalizing w with
  | nil =>
    constructor
    · constructor
      · intro heq
        obtain rfl := Option.some.inj heq
        exact ⟨rfl, Avoids.refl _⟩
      · exact And.left
    · intro heq
      obtain rfl := Option.some.inj heq
      exact List.prefix_rfl
  | cons b l ih =>
    have hpre : ∀ w₁, f' w b = some w₁ → l.foldlM f' w₁ = some w' →
        w.found <+: w₁.found ∧ w₁.found <+: w'.found := fun w₁ hfirst hrest =>
      ⟨hextends w b w₁ hfirst, ih.2 hrest⟩
    rw [foldlM_cons_some, foldlM_cons_some]
    refine ⟨⟨?_, ?_⟩, ?_⟩
    · rintro ⟨w₁, hfirst, hrest⟩
      obtain ⟨hfirst', havoid⟩ := (h w b w₁).mp hfirst
      obtain ⟨hrest', havoid'⟩ := ih.1.mp hrest
      obtain ⟨hp, hp'⟩ := hpre w₁ hfirst' hrest'
      exact ⟨⟨w₁, hfirst', hrest'⟩, (Avoids.trans_iff hp hp').mpr ⟨havoid, havoid'⟩⟩
    · rintro ⟨⟨w₁, hfirst', hrest'⟩, havoid⟩
      obtain ⟨hp, hp'⟩ := hpre w₁ hfirst' hrest'
      obtain ⟨havoid₁, havoid₂⟩ := (Avoids.trans_iff hp hp').mp havoid
      exact ⟨w₁, (h w b w₁).mpr ⟨hfirst', havoid₁⟩, ih.1.mpr ⟨hrest', havoid₂⟩⟩
    · rintro ⟨w₁, hfirst', hrest'⟩
      obtain ⟨hp, hp'⟩ := hpre w₁ hfirst' hrest'
      exact hp.trans hp'

omit [DecidableEq α] in
/-- An item, from a search that does not get stuck. -/
theorem visit_avoids {go go' : Search α κ → α → Option (Search α κ)}
    (h : ∀ w a w', (go w a = some w' ↔ go' w a = some w' ∧ Avoids stuck w w') ∧
      (go' w a = some w' → w.found <+: w'.found)) :
    (g.visit cap stuck go w k = some w' ↔ g.visit cap free go' w k = some w' ∧ Avoids stuck w w') ∧
      (g.visit cap free go' w k = some w' → w.found <+: w'.found) := by
  unfold visit
  by_cases hfull : cap ≤ w.found.length
  · rw [if_pos hfull, if_pos hfull]
    constructor
    · constructor
      · intro heq
        obtain rfl := Option.some.inj heq
        exact ⟨rfl, Avoids.refl _⟩
      · exact And.left
    · intro heq
      obtain rfl := Option.some.inj heq
      exact List.prefix_rfl
  rw [if_neg hfull, if_neg hfull, free, if_neg Bool.false_ne_true]
  have hloop : ((g.next k).foldlM _ { w with found := w.found ++ [k] } = some w' ↔ _) ∧ _ :=
    foldlM_avoids (fun w a w' => (h w a w').2) fun w a w' => (h w a w').1
  have hadd : w.found <+: ({ w with found := w.found ++ [k] } : Search α κ).found :=
    List.prefix_append _ _
  have hextends : (g.next k).foldlM go' { w with found := w.found ++ [k] } = some w' →
      w.found <+: w'.found := fun heq => hadd.trans (hloop.2 heq)
  refine ⟨?_, hextends⟩
  have hone : Avoids stuck w { w with found := w.found ++ [k] } ↔ stuck k = false := by
    constructor
    · rintro ⟨new, hnew, hall⟩
      obtain rfl := List.append_cancel_left hnew
      exact hall k (List.mem_singleton.mpr rfl)
    · intro hk
      exact ⟨[k], rfl, fun k' hk' => by rwa [List.mem_singleton.mp hk']⟩
  by_cases hk : stuck k = true
  · rw [if_pos hk]
    refine iff_of_false nofun fun ⟨heq, havoid⟩ => ?_
    have hfirst := hone.mp ((Avoids.trans_iff hadd (hloop.2 heq)).mp havoid).1
    rw [hk] at hfirst
    cases hfirst
  · rw [if_neg hk, hloop.1]
    refine and_congr_right fun heq => ?_
    rw [Avoids.trans_iff hadd (hloop.2 heq), hone]
    exact (and_iff_right (Bool.not_eq_true _ ▸ hk)).symm

/-- **A search that may get stuck ends like one that does not, if it meets no item that holds it
up.** -/
theorem search_iff (g : Graph α κ) (cap : Nat) (stuck : κ → Bool) (n : Nat) (w : Search α κ) (a : α)
    (w' : Search α κ) :
    (g.search cap stuck n w a = some w' ↔
      g.search cap free n w a = some w' ∧ Avoids stuck w w') ∧
      (g.search cap free n w a = some w' → w.found <+: w'.found) := by
  induction n generalizing w a w' with
  | zero => exact ⟨iff_of_false nofun (fun h => nomatch h.1), nofun⟩
  | succ n ih =>
    rw [search, search]
    by_cases hseen : w.seen a
    · rw [if_pos hseen, if_pos hseen]
      constructor
      · constructor
        · intro heq
          obtain rfl := Option.some.inj heq
          exact ⟨rfl, Avoids.refl _⟩
        · exact And.left
      · intro heq
        obtain rfl := Option.some.inj heq
        exact List.prefix_rfl
    · rw [if_neg hseen, if_neg hseen]
      exact foldlM_avoids (fun w k w' => (visit_avoids fun w a w' => ih w a w').2)
        fun w k w' => (visit_avoids fun w a w' => ih w a w').1

/-! ## Finitely many nodes -/

/-- The nodes that have not been searched. -/
def unseen (nodes : Finset α) (w : Search α κ) : Finset α := nodes.filter fun a => w.seen a = false

/-- Every search over finitely many nodes ends when no item holds it up. -/
theorem search_total {nodes : Finset α} (hnext : ∀ k, ∀ c ∈ g.next k, c ∈ nodes)
    (ha : a ∈ nodes) (hn : (unseen nodes w).card < n) :
    ∃ w', g.search cap free n w a = some w' ∧ ∀ c, w.seen c = true → w'.seen c = true := by
  induction n generalizing w a with
  | zero => exact absurd hn (Nat.not_lt_zero _)
  | succ n ih =>
    rw [search]
    by_cases hseen : w.seen a
    · exact ⟨w, if_pos hseen, fun _ => id⟩
    rw [if_neg hseen]
    -- what stays true in all loops below: the node is marked, and so fewer are left
    let P : Search α κ → Prop := fun w' =>
      (∀ c, w.seen c = true → w'.seen c = true) ∧ w'.seen a = true
    have hless : ∀ w', P w' → (unseen nodes w').card < n := by
      intro w' hw'
      refine Nat.lt_of_lt_of_le (Finset.card_lt_card ?_) (Nat.le_of_lt_succ hn)
      refine Finset.ssubset_iff_of_subset (fun c hc => ?_) |>.mpr ⟨a, ?_, ?_⟩
      · obtain ⟨hc, hnot⟩ := Finset.mem_filter.mp hc
        refine Finset.mem_filter.mpr ⟨hc, Bool.eq_false_iff.mpr fun hs => ?_⟩
        rw [hw'.1 c hs] at hnot
        cases hnot
      · exact Finset.mem_filter.mpr ⟨ha, Bool.eq_false_iff.mpr hseen⟩
      · intro hmem
        have hnot := (Finset.mem_filter.mp hmem).2
        rw [hw'.2] at hnot
        cases hnot
    have hvisit : ∀ w' k, P w' → ∃ w'', g.visit cap free (g.search cap free n) w' k = some w'' ∧
        P w'' := by
      intro w' k hw'
      unfold visit
      split
      · exact ⟨w', rfl, hw'⟩
      rw [free, if_neg Bool.false_ne_true]
      refine foldlM_total (P := P) (fun w₁ c hc hw₁ => ?_) hw'
      obtain ⟨w₂, hsearch, hmono⟩ := ih (hnext k c hc) (hless w₁ hw₁)
      exact ⟨w₂, hsearch, fun c' hc' => hmono c' (hw₁.1 c' hc'), hmono a hw₁.2⟩
    have hstart : P { w with seen := Function.update w.seen a true } := by
      refine ⟨fun c hc => ?_, Function.update_self ..⟩
      show Function.update w.seen a true c = true
      by_cases hca : c = a
      · rw [hca, Function.update_self]
      · rw [Function.update_of_ne hca, hc]
    obtain ⟨w', heq, hw'⟩ := foldlM_total (P := P) (fun w₁ k _ hw₁ => hvisit w₁ k hw₁) hstart
    exact ⟨w', heq, hw'.1⟩

/-! ## What a search meets -/

/-- A node is reached from another through items. -/
def Reaches (g : Graph α κ) : α → α → Prop :=
  Relation.ReflTransGen fun a c => ∃ k ∈ g.items a, c ∈ g.next k

section Visits

-- the node that an item belongs to
variable (owner : κ → α)

/-- What part of a search does that was to meet the items `own` and to search the nodes `start`. -/
structure Visits (g : Graph α κ) (cap : Nat) (owner : κ → α) (w w' : Search α κ) (own : List κ)
    (start : List α) : Prop where
  seen : ∀ c, w.seen c = true → w'.seen c = true
  reached : ∀ c, w'.seen c = true → w.seen c = true ∨ ∃ d ∈ start, g.Reaches d c
  found : ∃ new, w'.found = w.found ++ new ∧ new.Nodup ∧ ∀ k ∈ new, k ∈ g.items (owner k) ∧
    w'.seen (owner k) = true ∧ (k ∈ own ∨ w.seen (owner k) = false)
  /-- Below the capacity nothing is left out. -/
  complete : w'.found.length < cap → (∀ k ∈ own, k ∈ w'.found) ∧
    (∀ d ∈ start, w'.seen d = true) ∧
    ∀ c, w'.seen c = true → w.seen c = false → ∀ k ∈ g.items c,
      k ∈ w'.found ∧ ∀ d ∈ g.next k, w'.seen d = true

variable {owner} {own own' : List κ} {start start' : List α}

omit [DecidableEq α] in
theorem Visits.refl (w : Search α κ) : Visits g cap owner w w [] [] where
  seen _ := id
  reached _ := Or.inl
  found := ⟨[], (List.append_nil _).symm, List.nodup_nil, nofun⟩
  complete _ := ⟨nofun, nofun, fun c hc hnot => by rw [hc] at hnot; cases hnot⟩

omit [DecidableEq α] in
/-- Two parts of a search, when the second is to meet items that the first has not met. -/
theorem Visits.trans (h : Visits g cap owner w w' own start)
    (h' : Visits g cap owner w' w'' own' start') (hfresh : ∀ k ∈ own', k ∉ w'.found) :
    Visits g cap owner w w'' (own ++ own') (start ++ start') := by
  obtain ⟨new, hnew, hnodup, hall⟩ := h.found
  obtain ⟨new', hnew', hnodup', hall'⟩ := h'.found
  have hback : ∀ c, w'.seen c = false → w.seen c = false := fun c hc =>
    Bool.eq_false_iff.mpr fun hs => by rw [h.seen c hs] at hc; cases hc
  refine ⟨fun c hc => h'.seen c (h.seen c hc), fun c hc => ?_,
    ⟨new ++ new', by rw [hnew', hnew, List.append_assoc], ?_, fun k hk => ?_⟩, fun hroom => ?_⟩
  · obtain hc | ⟨d, hd, hreach⟩ := h'.reached c hc
    · obtain hc | ⟨d, hd, hreach⟩ := h.reached c hc
      · exact Or.inl hc
      · exact Or.inr ⟨d, List.mem_append_left _ hd, hreach⟩
    · exact Or.inr ⟨d, List.mem_append_right _ hd, hreach⟩
  · rw [List.nodup_append']
    refine ⟨hnodup, hnodup', fun k hk hk' => ?_⟩
    obtain ⟨-, -, hk' | hunseen⟩ := hall' k hk'
    · exact hfresh k hk' (by rw [hnew]; exact List.mem_append_right _ hk)
    · rw [(hall k hk).2.1] at hunseen
      cases hunseen
  · obtain hk | hk := List.mem_append.mp hk
    · obtain ⟨hitem, hseen, hk | hunseen⟩ := hall k hk
      · exact ⟨hitem, h'.seen _ hseen, Or.inl (List.mem_append_left _ hk)⟩
      · exact ⟨hitem, h'.seen _ hseen, Or.inr hunseen⟩
    · obtain ⟨hitem, hseen, hk | hunseen⟩ := hall' k hk
      · exact ⟨hitem, hseen, Or.inl (List.mem_append_right _ hk)⟩
      · exact ⟨hitem, hseen, Or.inr (hback _ hunseen)⟩
  · have hroom' : w'.found.length < cap := by
      rw [hnew', List.length_append] at hroom
      omega
    obtain ⟨hmet, hstart, hclosed⟩ := h.complete hroom'
    obtain ⟨hmet', hstart', hclosed'⟩ := h'.complete hroom
    have hmem : ∀ k, k ∈ w'.found → k ∈ w''.found := fun k hk => by
      rw [hnew']
      exact List.mem_append_left _ hk
    refine ⟨fun k hk => ?_, fun d hd => ?_, fun c hc hnot k hk => ?_⟩
    · obtain hk | hk := List.mem_append.mp hk
      · exact hmem k (hmet k hk)
      · exact hmet' k hk
    · obtain hd | hd := List.mem_append.mp hd
      · exact h'.seen d (hstart d hd)
      · exact hstart' d hd
    · cases hc' : w'.seen c with
      | true =>
        obtain ⟨hfound, hnext⟩ := hclosed c hc' hnot k hk
        exact ⟨hmem k hfound, fun d hd => h'.seen d (hnext d hd)⟩
      | false => exact hclosed' c hc hc' k hk

/-- Every item found belongs to a node that was searched. -/
def OwnersSeen (owner : κ → α) (w : Search α κ) : Prop := ∀ k ∈ w.found, w.seen (owner k) = true

omit [DecidableEq α] in
theorem Visits.ownersSeen (h : Visits g cap owner w w' own start) (hw : OwnersSeen owner w) :
    OwnersSeen owner w' := by
  obtain ⟨new, hnew, -, hall⟩ := h.found
  intro k hk
  rw [hnew] at hk
  obtain hk | hk := List.mem_append.mp hk
  · exact h.seen _ (hw k hk)
  · exact (hall k hk).2.1

omit [DecidableEq α] in
/-- A loop over nodes. -/
theorem visits_nodes {go : Search α κ → α → Option (Search α κ)}
    (hgo : ∀ w c w', OwnersSeen owner w → go w c = some w' → Visits g cap owner w w' [] [c])
    {l : List α} (hw : OwnersSeen owner w) (h : l.foldlM go w = some w') :
    Visits g cap owner w w' [] l := by
  induction l generalizing w with
  | nil =>
    obtain rfl := Option.some.inj h
    exact Visits.refl _
  | cons c l ih =>
    obtain ⟨w₁, hfirst, hrest⟩ := foldlM_cons_some.mp h
    have hvisits := hgo w c w₁ hw hfirst
    exact hvisits.trans (ih (hvisits.ownersSeen hw) hrest) nofun

omit [DecidableEq α] in
/-- An item of a node that is being searched. -/
theorem visits_item {go : Search α κ → α → Option (Search α κ)}
    (hgo : ∀ w c w', OwnersSeen owner w → go w c = some w' → Visits g cap owner w w' [] [c])
    (hw : OwnersSeen owner w) (hitem : k ∈ g.items (owner k)) (hseen : w.seen (owner k) = true)
    (h : g.visit cap free go w k = some w') : Visits g cap owner w w' [k] (g.next k) := by
  unfold visit at h
  split at h
  · next hfull =>
    obtain rfl := Option.some.inj h
    exact ⟨fun _ => id, fun _ => Or.inl, ⟨[], (List.append_nil _).symm, List.nodup_nil, nofun⟩,
      fun hroom => absurd hroom (Nat.not_lt.mpr hfull)⟩
  rw [free, if_neg Bool.false_ne_true] at h
  have hadd : Visits g cap owner w { w with found := w.found ++ [k] } [k] [] := by
    refine ⟨fun _ => id, fun _ => Or.inl, ⟨[k], rfl, List.nodup_singleton k, fun k' hk' => ?_⟩,
      fun _ => ⟨fun k' hk' => List.mem_append_right _ hk', nofun, fun c hc hnot => ?_⟩⟩
    · rw [List.mem_singleton.mp hk']
      exact ⟨hitem, hseen, Or.inl (List.mem_singleton.mpr rfl)⟩
    · rw [show w.seen c = true from hc] at hnot
      cases hnot
  have hnodes := visits_nodes hgo (hadd.ownersSeen hw) h
  have hboth := hadd.trans hnodes nofun
  rwa [List.append_nil, List.nil_append] at hboth

omit [DecidableEq α] in
/-- The loop over the items of a node. -/
theorem visits_items {go : Search α κ → α → Option (Search α κ)}
    (hgo : ∀ w c w', OwnersSeen owner w → go w c = some w' → Visits g cap owner w w' [] [c])
    {l : List κ} (hw : OwnersSeen owner w) (hseen : w.seen a = true) (hnodup : l.Nodup)
    (hitems : ∀ k ∈ l, owner k = a ∧ k ∈ g.items a) (hfresh : ∀ k ∈ l, k ∉ w.found)
    (h : l.foldlM (g.visit cap free go) w = some w') :
    Visits g cap owner w w' l (l.flatMap g.next) := by
  induction l generalizing w with
  | nil =>
    obtain rfl := Option.some.inj h
    exact Visits.refl _
  | cons k l ih =>
    obtain ⟨w₁, hfirst, hrest⟩ := foldlM_cons_some.mp h
    obtain ⟨rfl, hitem⟩ := hitems k List.mem_cons_self
    obtain ⟨hnot, hnodup⟩ := List.nodup_cons.mp hnodup
    have hvisits := visits_item hgo hw hitem hseen hfirst
    -- the other items have not been met on the way, as their node was seen before
    have hfresh₁ : ∀ k' ∈ l, k' ∉ w₁.found := by
      obtain ⟨new, hnew, -, hall⟩ := hvisits.found
      intro k' hk' hmem
      rw [hnew] at hmem
      obtain hmem | hmem := List.mem_append.mp hmem
      · exact hfresh k' (List.mem_cons_of_mem _ hk') hmem
      · obtain ⟨-, -, hk | hunseen⟩ := hall k' hmem
        · rw [List.mem_singleton.mp hk] at hk'
          exact hnot hk'
        · rw [(hitems k' (List.mem_cons_of_mem _ hk')).1, hseen] at hunseen
          cases hunseen
    exact hvisits.trans (ih (hvisits.ownersSeen hw) (hvisits.seen _ hseen) hnodup
      (fun k' hk' => hitems k' (List.mem_cons_of_mem _ hk')) hfresh₁ hrest) hfresh₁

/-- **What a search visits.** -/
theorem search_visits (hnodup : ∀ a, (g.items a).Nodup)
    (howner : ∀ a, ∀ k ∈ g.items a, owner k = a) (hw : OwnersSeen owner w)
    (h : g.search cap free n w a = some w') : Visits g cap owner w w' [] [a] := by
  induction n generalizing w a w' with
  | zero => cases h
  | succ n ih =>
    rw [search] at h
    split at h
    · next hseen =>
      obtain rfl := Option.some.inj h
      refine ⟨fun _ => id, fun _ => Or.inl, ⟨[], (List.append_nil _).symm, List.nodup_nil, nofun⟩,
        fun _ => ⟨nofun, fun d hd => ?_, fun c hc hnot => ?_⟩⟩
      · rw [List.mem_singleton.mp hd, hseen]
      · rw [hc] at hnot
        cases hnot
    next hunseen =>
    have hmark : ∀ c, Function.update w.seen a true c = true ↔ c = a ∨ w.seen c = true := by
      intro c
      by_cases hc : c = a
      · rw [hc, Function.update_self]
        exact iff_of_true rfl (Or.inl rfl)
      · rw [Function.update_of_ne hc]
        exact (or_iff_right hc).symm
    have hstart : OwnersSeen owner { w with seen := Function.update w.seen a true } := fun k hk =>
      (hmark _).mpr (Or.inr (hw k hk))
    have hitems := visits_items (fun w c w' hw hs => ih hw hs) hstart
      ((hmark a).mpr (Or.inl rfl)) (hnodup a) (fun k hk => ⟨howner a k hk, hk⟩)
      (fun k hk hmem => hunseen (by rw [← howner a k hk]; exact hw k hmem)) h
    refine ⟨fun c hc => hitems.seen c ((hmark c).mpr (Or.inr hc)), fun c hc => ?_, ?_,
      fun hroom => ?_⟩
    · obtain hc | ⟨d, hd, hreach⟩ := hitems.reached c hc
      · obtain rfl | hc := (hmark c).mp hc
        · exact Or.inr ⟨c, List.mem_singleton.mpr rfl, Relation.ReflTransGen.refl⟩
        · exact Or.inl hc
      · obtain ⟨k, hk, hd⟩ := List.mem_flatMap.mp hd
        exact Or.inr ⟨a, List.mem_singleton.mpr rfl, hreach.head ⟨k, hk, hd⟩⟩
    · obtain ⟨new, hnew, hnodup, hall⟩ := hitems.found
      refine ⟨new, hnew, hnodup, fun k hk => ?_⟩
      obtain ⟨hitem, hseen, hown | hunseen'⟩ := hall k hk
      · refine ⟨hitem, hseen, Or.inr ?_⟩
        rw [howner a k hown]
        exact Bool.eq_false_iff.mpr hunseen
      · refine ⟨hitem, hseen, Or.inr (Bool.eq_false_iff.mpr fun hs => ?_)⟩
        cases ((hmark _).mpr (Or.inr hs)).symm.trans hunseen'
    · obtain ⟨hmet, hnext, hclosed⟩ := hitems.complete hroom
      refine ⟨nofun, fun d hd => ?_, fun c hc hnot k hk => ?_⟩
      · rw [List.mem_singleton.mp hd]
        exact hitems.seen a ((hmark a).mpr (Or.inl rfl))
      · by_cases hca : c = a
        · subst hca
          exact ⟨hmet k hk, fun d hd => hnext d (List.mem_flatMap.mpr ⟨k, hk, hd⟩)⟩
        · refine hclosed c hc (Bool.eq_false_iff.mpr fun hs => ?_) k hk
          obtain rfl | hs := (hmark c).mp hs
          · exact hca rfl
          · rw [hs] at hnot
            cases hnot

/-- **A search from nothing meets items of the nodes reached, each once; and all of them, if it
stays below the capacity.** -/
theorem search_found (hnodup : ∀ a, (g.items a).Nodup)
    (howner : ∀ a, ∀ k ∈ g.items a, owner k = a)
    (h : g.search cap free n ⟨fun _ => false, []⟩ a = some w') :
    w'.found.Nodup ∧ (∀ k ∈ w'.found, k ∈ g.items (owner k) ∧ g.Reaches a (owner k)) ∧
      (w'.found.length < cap → ∀ c, g.Reaches a c → ∀ k ∈ g.items c, k ∈ w'.found) := by
  have hvisits := search_visits hnodup howner (fun _ hk => absurd hk List.not_mem_nil) h
  obtain ⟨new, hnew, hnodup', hall⟩ := hvisits.found
  rw [List.nil_append] at hnew
  subst hnew
  refine ⟨hnodup', fun k hk => ?_, fun hroom c hreach => ?_⟩
  · obtain ⟨hitem, hseen, -⟩ := hall k hk
    obtain hs | ⟨d, hd, hreach⟩ := hvisits.reached _ hseen
    · cases hs
    · rw [List.mem_singleton.mp hd] at hreach
      exact ⟨hitem, hreach⟩
  · obtain ⟨-, hstart, hclosed⟩ := hvisits.complete hroom
    have hseen : w'.seen c = true := by
      induction hreach with
      | refl => exact hstart a (List.mem_singleton.mpr rfl)
      | tail _ hlast ih =>
        obtain ⟨k, hk, hc⟩ := hlast
        exact (hclosed _ ih rfl k hk).2 _ hc
    exact fun k hk => (hclosed c hseen rfl k hk).1

/-- **When there is room for all items of the nodes reached, exactly these are met.** -/
theorem search_found_iff (hnodup : ∀ a, (g.items a).Nodup)
    (howner : ∀ a, ∀ k ∈ g.items a, owner k = a) {all : Finset κ}
    (hall : ∀ k, k ∈ all ↔ k ∈ g.items (owner k) ∧ g.Reaches a (owner k)) (hcard : all.card ≤ cap)
    (h : g.search cap free n ⟨fun _ => false, []⟩ a = some w') (k : κ) :
    k ∈ w'.found ↔ k ∈ all := by
  classical
  obtain ⟨hnodup', hsound, hcomplete⟩ := search_found hnodup howner h
  have hsubset : w'.found.toFinset ⊆ all := fun k hk =>
    (hall k).mpr (hsound k (List.mem_toFinset.mp hk))
  by_cases hroom : w'.found.length < cap
  · refine ⟨fun hk => hsubset (List.mem_toFinset.mpr hk), fun hk => ?_⟩
    obtain ⟨hitem, hreach⟩ := (hall k).mp hk
    exact hcomplete hroom _ hreach k hitem
  · have hle : all.card ≤ w'.found.toFinset.card := by
      rw [List.toFinset_card_of_nodup hnodup']
      omega
    rw [← Finset.eq_of_subset_of_card_le hsubset hle, List.mem_toFinset]

end Visits

end Graph

end Infra
