import Mathlib.Data.List.Chain
import Mathlib.Data.List.Nodup
import Mathlib.Logic.Function.Basic

/-!
# Intrusive queues

A queue whose links are stored in its elements: `next` gives the link of every element there is,
and a queue is a pair of the first and the last element. Several queues share one `next`.

A queue *holds* a list when following the links from the first element gives the list. Pushing an
element that is already in a queue does not fail; `Holds` is kept in a form that survives it:
the link of the last element may lead back to it (`ends`).

* `Holds.push` — a new element goes to the end
* `Holds.push_mem` — an element of the queue is pushed again: what came after it is cut off
* `Holds.pop` — the first element is taken out
* `Holds.frame` — a queue with other elements is not touched
* `Holds.reaches_iff` — the elements of a queue are those met when following its links
* `Holds.unique` — a queue holds one list
-/

namespace Infra

/-- The first and the last element of a queue. -/
structure Ends (α : Type*) where
  head : Option α
  tail : Option α
deriving DecidableEq, Repr

variable {α : Type*} [DecidableEq α]

/-- The links after an element is pushed. -/
def pushNext (next : α → Option α) (q : Ends α) (a : α) : α → Option α :=
  match q.tail with
  | some t => Function.update (Function.update next a none) t (some a)
  | none => Function.update next a none

/-- The ends after an element is pushed. -/
def pushEnds (q : Ends α) (a : α) : Ends α where
  head := if q.tail = none then some a else q.head
  tail := some a

/-- The links after the first element is taken out. -/
def popNext (next : α → Option α) (a : α) : α → Option α := Function.update next a none

/-- The ends after the first element is taken out. -/
def popEnds (next : α → Option α) (q : Ends α) (a : α) : Ends α where
  head := next a
  tail := if next a = none then none else q.tail

/-- Following the links of the queue gives the elements of `l`. -/
structure Holds (next : α → Option α) (q : Ends α) (l : List α) : Prop where
  head : q.head = l.head?
  tail : q.tail = l.getLast?
  links : l.IsChain fun a b => next a = some b
  /-- The link of the last element is empty, or leads back to it. -/
  ends : ∀ a, l.getLast? = some a → next a = none ∨ next a = some a
  nodup : l.Nodup

/-- The element is met when the links are followed from the given one. -/
inductive Reaches (next : α → Option α) : Option α → α → Prop where
  | here (a : α) : Reaches next (some a) a
  | step {a b : α} (h : Reaches next (next a) b) : Reaches next (some a) b

/-- If the element is the last one, its link is empty. -/
def ClosedAt (next : α → Option α) (l : List α) (a : α) : Prop :=
  l.getLast? = some a → next a = none

/-- The link of the last element is empty: no element was pushed twice. -/
def Closed (next : α → Option α) (l : List α) : Prop := ∀ a, ClosedAt next l a

variable {next next' : α → Option α} {q : Ends α} {l : List α} {a b : α}

omit [DecidableEq α] in
theorem holds_nil : Holds next ⟨none, none⟩ [] where
  head := rfl
  tail := rfl
  links := List.isChain_nil
  ends := fun _ h => by cases h
  nodup := List.nodup_nil

omit [DecidableEq α] in
/-- Links of other elements do not matter. -/
theorem Holds.frame (h : Holds next q l) (hsame : ∀ b ∈ l, next' b = next b) : Holds next' q l where
  head := h.head
  tail := h.tail
  links := by
    have hlinks := h.links
    rw [List.isChain_iff_getElem] at hlinks ⊢
    intro i hi
    rw [hsame _ (List.getElem_mem _)]
    exact hlinks i hi
  ends := by
    intro b hb
    rw [hsame b (List.mem_of_getLast? hb)]
    exact h.ends b hb
  nodup := h.nodup

omit [DecidableEq α] in
theorem Holds.tail_eq_none (h : Holds next q l) : q.tail = none ↔ l = [] := by
  rw [h.tail, List.getLast?_eq_none_iff]

/-- Links that a push does not touch. -/
theorem pushNext_of_ne (hne : b ≠ a) (htail : q.tail ≠ some b) : pushNext next q a b = next b := by
  unfold pushNext
  cases ht : q.tail with
  | none => exact Function.update_of_ne hne _ _
  | some t =>
    have hbt : b ≠ t := by
      rintro rfl
      exact htail ht
    simp only [Function.update_of_ne hbt, Function.update_of_ne hne]

/-- **A new element goes to the end.** -/
theorem Holds.push (h : Holds next q l) (ha : a ∉ l) :
    Holds (pushNext next q a) (pushEnds q a) (l ++ [a]) ∧ Closed (pushNext next q a) (l ++ [a]) := by
  have hclosed : Closed (pushNext next q a) (l ++ [a]) := by
    intro b hb
    rw [List.getLast?_concat] at hb
    obtain rfl := Option.some.inj hb
    unfold pushNext
    cases ht : q.tail with
    | none => exact Function.update_self ..
    | some t =>
      have hat : a ≠ t := by
        rintro rfl
        rw [h.tail] at ht
        exact ha (List.mem_of_getLast? ht)
      simp only [Function.update_of_ne hat, Function.update_self]
  refine ⟨⟨?_, ?_, ?_, fun b hb => Or.inl (hclosed b hb), ?_⟩, hclosed⟩
  · unfold pushEnds
    simp only []
    split
    · next hnone =>
      rw [h.tail_eq_none] at hnone
      rw [hnone]
      rfl
    · next hsome =>
      rw [h.tail_eq_none] at hsome
      rw [h.head, List.head?_append_of_ne_nil _ hsome]
  · rw [List.getLast?_concat]
    rfl
  · rw [List.isChain_append]
    refine ⟨?_, List.isChain_singleton _, ?_⟩
    · -- the links inside `l` start at elements that are not the last
      have hlinks := h.links
      rw [List.isChain_iff_getElem] at hlinks ⊢
      intro i hi
      have hnotLast : q.tail ≠ some (l[i]) := by
        rw [h.tail, List.getLast?_eq_getElem?]
        intro he
        rw [List.getElem?_eq_getElem (by omega)] at he
        have := (List.Nodup.getElem_inj_iff h.nodup).mp (Option.some.inj he)
        omega
      have hne : l[i] ≠ a := by
        intro he
        exact ha (he ▸ List.getElem_mem _)
      rw [pushNext_of_ne hne hnotLast]
      exact hlinks i hi
    · intro x hx y hy
      rw [List.head?_singleton, Option.mem_some_iff] at hy
      subst hy
      rw [Option.mem_def, ← h.tail] at hx
      unfold pushNext
      rw [hx]
      exact Function.update_self ..
  · rw [List.nodup_append]
    exact ⟨h.nodup, List.nodup_singleton a, fun x hx y hy => by
      rw [List.mem_singleton.mp hy]
      rintro rfl
      exact ha hx⟩

/-- **An element is pushed again.** What came after it is cut off; pushed right after itself, its
link leads back to it. -/
theorem Holds.push_mem {xs ys : List α} (h : Holds next q (xs ++ a :: ys)) :
    Holds (pushNext next q a) (pushEnds q a) (xs ++ [a]) := by
  have hnodup : (xs ++ [a]).Nodup := by
    have hn := h.nodup
    rw [List.append_cons] at hn
    exact (List.nodup_append.mp hn).1
  have htail : q.tail ≠ none := by
    rw [Ne, h.tail_eq_none]
    simp
  obtain ⟨t, ht⟩ := Option.ne_none_iff_exists'.mp htail
  have hlast : (xs ++ a :: ys).getLast? = some t := by rw [← h.tail, ht]
  refine ⟨?_, ?_, ?_, ?_, hnodup⟩
  · unfold pushEnds
    simp only [htail, if_false]
    rw [h.head]
    cases xs <;> rfl
  · rw [List.getLast?_concat]
    rfl
  · have hlinks := h.links
    have hlinks' : (xs ++ [a]).IsChain fun x y => next x = some y := by
      rw [List.append_cons] at hlinks
      exact (List.isChain_append.mp hlinks).1
    rw [List.isChain_iff_getElem] at hlinks' ⊢
    intro i hi
    -- a link inside `xs ++ [a]` starts in `xs`, and neither `a` nor the last element is there
    rw [List.length_append, List.length_singleton] at hi
    have hmem : (xs ++ [a])[i] ∈ xs := by
      rw [List.getElem_append_left (by omega)]
      exact List.getElem_mem _
    have hne : (xs ++ [a])[i] ≠ a := by
      intro he
      have := (List.nodup_append.mp hnodup).2.2 _ hmem a (List.mem_singleton_self a)
      exact this he
    have hnotLast : q.tail ≠ some ((xs ++ [a])[i]) := by
      rw [ht]
      intro he
      have hmem' : t ∈ xs := by
        rw [Option.some.inj he]
        exact hmem
      have hin : t ∈ a :: ys := by
        rw [List.getLast?_append_of_ne_nil _ (List.cons_ne_nil a ys)] at hlast
        exact List.mem_of_getLast? hlast
      exact (List.nodup_append.mp h.nodup).2.2 t hmem' t hin rfl
    rw [pushNext_of_ne hne hnotLast]
    exact hlinks' i (by rw [List.length_append, List.length_singleton]; omega)
  · intro b hb
    rw [List.getLast?_concat] at hb
    obtain rfl := Option.some.inj hb
    unfold pushNext
    rw [ht]
    by_cases hta : a = t
    · subst hta
      right
      exact Function.update_self ..
    · left
      simp only [Function.update_of_ne hta, Function.update_self]

/-- **The first element is taken out.** -/
theorem Holds.pop (h : Holds next q (a :: l)) (hl : l ≠ [] ∨ next a = none) :
    Holds (popNext next a) (popEnds next q a) l ∧ next a = l.head? := by
  have ha : a ∉ l := (List.nodup_cons.mp h.nodup).1
  have hnext : next a = l.head? := by
    cases l with
    | nil => exact hl.resolve_left fun hne => hne rfl
    | cons b l => exact (List.isChain_cons_cons.mp h.links).1
  have hsame : ∀ b ∈ l, popNext next a b = next b := by
    intro b hb
    refine Function.update_of_ne ?_ _ _
    rintro rfl
    exact ha hb
  have hrest : Holds next (popEnds next q a) l := by
    refine ⟨hnext, ?_, ?_, ?_, (List.nodup_cons.mp h.nodup).2⟩
    · unfold popEnds
      simp only [hnext]
      cases l with
      | nil => rfl
      | cons b l =>
        rw [List.head?_cons, if_neg (Option.some_ne_none b), h.tail, List.getLast?_cons_cons]
    · exact List.IsChain.tail h.links
    · intro b hb
      refine h.ends b ?_
      cases l with
      | nil => cases hb
      | cons c l => rwa [List.getLast?_cons_cons]
  exact ⟨hrest.frame hsame, hnext⟩

omit [DecidableEq α] in
/-- Following a link does not leave the queue. -/
theorem Holds.next_mem (h : Holds next q l) (ha : a ∈ l) (hb : next a = some b) : b ∈ l := by
  obtain ⟨i, hi, rfl⟩ := List.getElem_of_mem ha
  have hlinks := h.links
  rw [List.isChain_iff_getElem] at hlinks
  by_cases hlast : i + 1 < l.length
  · have hnext := hlinks i hlast
    rw [hb] at hnext
    rw [Option.some.inj hnext]
    exact List.getElem_mem _
  · have he : l.getLast? = some l[i] := by
      rw [List.getLast?_eq_getElem?, show l.length - 1 = i by omega, List.getElem?_eq_getElem hi]
    rcases h.ends _ he with hnone | hself
    · rw [hnone] at hb
      cases hb
    · rw [hself] at hb
      rw [← Option.some.inj hb]
      exact ha

omit [DecidableEq α] in
theorem reaches_of_isChain :
    ∀ {xs ys : List α}, ((xs ++ a :: ys).IsChain fun a b => next a = some b) →
    Reaches next (xs ++ a :: ys).head? a
  | [], _, _ => .here a
  | [x], _, h => by
    rw [List.singleton_append, List.head?_cons]
    refine .step ?_
    rw [(List.isChain_cons_cons.mp h).1]
    exact .here a
  | x :: y :: xs, ys, h => by
    rw [List.cons_append, List.head?_cons]
    have hcons := List.isChain_cons_cons.mp h
    refine .step ?_
    rw [hcons.1]
    have hrest : ((y :: xs) ++ a :: ys).IsChain fun a b => next a = some b := hcons.2
    exact reaches_of_isChain hrest

omit [DecidableEq α] in
/-- **The elements of a queue are those met when following its links.** -/
theorem Holds.reaches_iff (h : Holds next q l) : Reaches next q.head a ↔ a ∈ l := by
  constructor
  · intro hr
    have hstay : ∀ {x : Option α} {b : α}, Reaches next x b → (∀ c, x = some c → c ∈ l) → b ∈ l := by
      intro x b hx
      induction hx with
      | here c => exact fun hc => hc c rfl
      | step _ ih => exact fun hc => ih fun d hd => h.next_mem (hc _ rfl) hd
    refine hstay hr fun c hc => ?_
    rw [h.head] at hc
    exact List.mem_of_head? hc
  · intro ha
    obtain ⟨xs, ys, rfl⟩ := List.append_of_mem ha
    rw [h.head]
    exact reaches_of_isChain h.links

omit [DecidableEq α] in
/-- Two lists that begin alike and follow the same links are one list, if neither goes on behind a last
element of the other. -/
theorem chain_unique {l' : List α} (hhead : l.head? = l'.head?)
    (hl : l.IsChain fun a b => next a = some b) (hl' : l'.IsChain fun a b => next a = some b)
    (hends : ∀ a, l.getLast? = some a → next a = none ∨ next a = some a)
    (hends' : ∀ a, l'.getLast? = some a → next a = none ∨ next a = some a)
    (hnodup : l.Nodup) (hnodup' : l'.Nodup) : l = l' := by
  -- a list of one element, and one that goes on
  have hstop : ∀ {a b : α} {m : List α}, (next a = none ∨ next a = some a) →
      (a :: b :: m).IsChain (fun a b => next a = some b) → (a :: b :: m).Nodup → False := by
    intro a b m hend hchain hnd
    have hlink := (List.isChain_cons_cons.mp hchain).1
    rcases hend with hnone | hself
    · rw [hlink] at hnone
      cases hnone
    · obtain rfl : b = a := Option.some.inj (hlink.symm.trans hself)
      exact (List.nodup_cons.mp hnd).1 List.mem_cons_self
  induction l generalizing l' with
  | nil => cases l' with
    | nil => rfl
    | cons a' m' => cases hhead
  | cons a m ih => cases l' with
    | nil => cases hhead
    | cons a' m' =>
      obtain rfl : a = a' := Option.some.inj hhead
      cases m with
      | nil => cases m' with
        | nil => rfl
        | cons b' m' => exact (hstop (hends a rfl) hl' hnodup').elim
      | cons b m => cases m' with
        | nil => exact (hstop (hends' a rfl) hl hnodup).elim
        | cons b' m' =>
          obtain ⟨hlink, hrest⟩ := List.isChain_cons_cons.mp hl
          obtain ⟨hlink', hrest'⟩ := List.isChain_cons_cons.mp hl'
          have hnext : (b :: m).head? = (b' :: m').head? := hlink.symm.trans hlink'
          rw [ih hnext hrest hrest' hends hends' hnodup.of_cons hnodup'.of_cons]

omit [DecidableEq α] in
/-- **A queue holds one list.** -/
theorem Holds.unique {l' : List α} (h : Holds next q l) (h' : Holds next q l') : l = l' :=
  chain_unique (h.head.symm.trans h'.head) h.links h'.links h.ends h'.ends h.nodup h'.nodup

end Infra
