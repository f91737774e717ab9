import Mathlib.Data.List.TakeWhile

/-!
# Tokens

The tokens of a list are its longest parts without a separator.

* `splitInduction` — induction from one separator to the next
* `tokens_isTokens` — all the places where a token stands, in order
* `tokens_eq_cons` — the first token, and the rest of the list
-/

namespace Infra

variable {α : Type*} {p : α → Bool} {s t u : List α} {ts : List (List α)} {c : α} {i j : Nat}

/-- The parts between the separators that are not empty. -/
def tokens (p : α → Bool) (s : List α) : List (List α) :=
  (s.splitOnP p).filter fun t => !t.isEmpty

/-- `t` stands in `s` behind `i` elements. It is not empty, it contains no separator, and on either
side of it there is a separator or an end of `s`. -/
structure TokenAt (p : α → Bool) (s : List α) (i : Nat) (t : List α) : Prop where
  nonempty : t ≠ []
  free : ∀ c ∈ t, p c = false
  place : ∃ l r, s = l ++ t ++ r ∧ l.length = i ∧ (∀ c ∈ l.getLast?, p c = true) ∧
    ∀ c ∈ r.head?, p c = true

/-- `ts` are the tokens of `s`, in the order in which they stand there. -/
def IsTokens (p : α → Bool) (s : List α) (ts : List (List α)) : Prop :=
  ∃ places : List (Nat × List α), ts = places.map Prod.snd ∧
    places.Pairwise (fun a b => a.1 < b.1) ∧ ∀ i t, (i, t) ∈ places ↔ TokenAt p s i t

/-! ## From one separator to the next -/

/-- There is no separator in front of the first one. -/
theorem takeWhile_free (p : α → Bool) (s : List α) :
    ∀ c ∈ s.takeWhile (fun c => !p c), p c = false :=
  fun c hc => by simpa using List.mem_takeWhile_imp hc

/-- A list ends without a separator, or there is a first one. -/
theorem splitInduction {motive : List α → Prop} (last : ∀ t, (∀ c ∈ t, p c = false) → motive t)
    (next : ∀ t c s, (∀ c ∈ t, p c = false) → p c = true → motive s → motive (t ++ c :: s))
    (s : List α) : motive s := by
  have hfree := takeWhile_free p s
  have hsplit : s.takeWhile (fun c => !p c) ++ s.dropWhile (fun c => !p c) = s :=
    List.takeWhile_append_dropWhile
  rw [← hsplit]
  cases hdrop : s.dropWhile (fun c => !p c) with
  | nil =>
    rw [List.append_nil]
    exact last _ hfree
  | cons c rest =>
    have hc : p c = true := by
      have hnot := List.head?_dropWhile_not (fun c => !p c) s
      rw [hdrop] at hnot
      simpa using hnot
    have hless : rest.length < s.length := by
      have hlen := congrArg List.length hsplit
      rw [hdrop, List.length_append, List.length_cons] at hlen
      omega
    exact next _ c rest hfree hc (splitInduction last next rest)
termination_by s.length

theorem tokens_of_free (h : ∀ c ∈ t, p c = false) :
    tokens p t = [t].filter fun t => !t.isEmpty := by
  rw [tokens, List.splitOnP_eq_singleton h]

theorem tokens_append_cons (h : ∀ c ∈ t, p c = false) (hc : p c = true) (s : List α) :
    tokens p (t ++ c :: s) = ([t].filter fun t => !t.isEmpty) ++ tokens p s := by
  rw [tokens, List.splitOnP_append_cons_of_forall_mem h c hc, ← List.singleton_append,
    List.filter_append, tokens]

/-! ## All the places -/

/-- Behind a separator the places are those of the rest. -/
theorem tokenAt_append_cons (hc : p c = true) :
    TokenAt p (t ++ c :: s) (t.length + 1 + j) u ↔ TokenAt p s j u := by
  have hsplit : t ++ c :: s = (t ++ [c]) ++ s := by simp
  rw [hsplit]
  constructor
  · rintro ⟨hne, hfree, l, r, heq, hlen, hleft, hright⟩
    have hfront : t ++ [c] <+: l := by
      refine List.prefix_of_prefix_length_le ⟨s, rfl⟩ ⟨u ++ r, ?_⟩ ?_
      · rw [heq, List.append_assoc]
      · rw [List.length_append, List.length_singleton]
        omega
    obtain ⟨l, rfl⟩ := hfront
    rw [List.append_assoc _ l, List.append_assoc _ (l ++ u), List.append_cancel_left_eq] at heq
    refine ⟨hne, hfree, l, r, heq, by simp at hlen; omega, fun a ha => hleft a ?_, hright⟩
    rw [List.getLast?_append, Option.mem_def.mp ha]
    rfl
  · rintro ⟨hne, hfree, l, r, rfl, rfl, hleft, hright⟩
    refine ⟨hne, hfree, t ++ [c] ++ l, r, by simp, ?_, fun a ha => ?_, hright⟩
    · rw [List.length_append, List.length_append, List.length_singleton]
    · rw [List.getLast?_append] at ha
      cases hlast : l.getLast? with
      | none =>
        rw [hlast, Option.none_or, List.getLast?_concat] at ha
        rwa [← Option.some_inj.mp ha]
      | some b =>
        rw [hlast, Option.some_or] at ha
        exact hleft a (by rw [hlast]; exact ha)

/-- In front of a separator, or of the end, there is one token at most. -/
theorem tokenAt_front {r₀ : List α} (h : ∀ c ∈ t, p c = false) (hr₀ : ∀ c ∈ r₀.head?, p c = true)
    (hi : i ≤ t.length) : TokenAt p (t ++ r₀) i u ↔ u ≠ [] ∧ i = 0 ∧ u = t := by
  constructor
  · rintro ⟨hne, hfree, l, r, heq, rfl, hleft, hright⟩
    have hfront : l <+: t := by
      refine List.prefix_of_prefix_length_le ⟨u ++ r, ?_⟩ ⟨r₀, rfl⟩ hi
      rw [heq, List.append_assoc]
    -- a separator in front of the token would be in `t`
    obtain rfl : l = [] := by
      rcases List.eq_nil_or_concat l with rfl | ⟨l', a, rfl⟩
      · rfl
      · have hsep := hleft a (by simp)
        rw [h a (hfront.subset (by simp))] at hsep
        exact absurd hsep Bool.false_ne_true
    refine ⟨hne, rfl, ?_⟩
    rw [List.nil_append, List.append_eq_append_iff] at heq
    rcases heq with ⟨rest, rfl, hrest⟩ | ⟨rest, rfl, hrest⟩
    · cases rest with
      | nil => simp
      | cons a rest =>
        have hsep := hr₀ a (by rw [hrest]; rfl)
        rw [hfree a (by simp)] at hsep
        exact absurd hsep Bool.false_ne_true
    · cases rest with
      | nil => simp
      | cons a rest =>
        have hsep := hright a (by rw [hrest]; rfl)
        rw [h a (by simp)] at hsep
        exact absurd hsep Bool.false_ne_true
  · rintro ⟨hne, rfl, rfl⟩
    exact ⟨hne, h, [], r₀, rfl, rfl, by simp, hr₀⟩

/-- A token ends within the list. -/
theorem TokenAt.lt (h : TokenAt p s i t) : i < s.length := by
  obtain ⟨hne, -, l, r, rfl, rfl, -, -⟩ := h
  have hpos := List.length_pos_iff.mpr hne
  simp only [List.length_append]
  omega

/-- The place of a token in front of the first separator, unless it is empty. -/
def frontPlace (t : List α) : List (Nat × List α) := ([t].filter fun t => !t.isEmpty).map (0, ·)

theorem mem_frontPlace : (i, u) ∈ frontPlace t ↔ u ≠ [] ∧ i = 0 ∧ u = t := by
  unfold frontPlace
  rw [List.mem_map]
  constructor
  · rintro ⟨u', hu', heq⟩
    obtain ⟨rfl, rfl⟩ := Prod.mk.inj heq
    obtain ⟨hsingle, hne⟩ := List.mem_filter.mp hu'
    exact ⟨by simpa using hne, rfl, List.mem_singleton.mp hsingle⟩
  · rintro ⟨hne, rfl, rfl⟩
    exact ⟨u, List.mem_filter.mpr ⟨List.mem_singleton_self u, by simpa using hne⟩, rfl⟩

theorem map_snd_frontPlace (t : List α) :
    (frontPlace t).map Prod.snd = [t].filter fun t => !t.isEmpty := by
  unfold frontPlace
  rw [List.map_map]
  exact List.map_id _

theorem pairwise_frontPlace (t : List α) : (frontPlace t).Pairwise fun a b => a.1 < b.1 := by
  unfold frontPlace
  rw [List.pairwise_map]
  exact (List.pairwise_singleton _ t).filter _

/-- A list without a separator is a token itself, unless it is empty. -/
theorem IsTokens.of_free (h : ∀ c ∈ t, p c = false) :
    IsTokens p t ([t].filter fun t => !t.isEmpty) := by
  refine ⟨frontPlace t, (map_snd_frontPlace t).symm, pairwise_frontPlace t, fun i u => ?_⟩
  have hfront : i ≤ t.length → (TokenAt p t i u ↔ u ≠ [] ∧ i = 0 ∧ u = t) := fun hi => by
    have hend : ∀ c ∈ ([] : List α).head?, p c = true := by simp
    simpa using tokenAt_front h hend hi
  rw [mem_frontPlace]
  exact ⟨fun hmem => (hfront (by omega)).mpr hmem, fun htoken => (hfront htoken.lt.le).mp htoken⟩

/-- The token in front of a separator, and those behind it. -/
theorem IsTokens.append_cons (h : ∀ c ∈ t, p c = false) (hc : p c = true)
    (hs : IsTokens p s ts) :
    IsTokens p (t ++ c :: s) (([t].filter fun t => !t.isEmpty) ++ ts) := by
  obtain ⟨places, rfl, hsorted, hplaces⟩ := hs
  let later := places.map fun e => (t.length + 1 + e.1, e.2)
  have hlater : ∀ {j : Nat} {u : List α}, (j, u) ∈ later ↔
      ∃ k, j = t.length + 1 + k ∧ TokenAt p s k u := fun {j u} => by
    refine List.mem_map.trans ⟨?_, ?_⟩
    · rintro ⟨⟨k, u'⟩, he, heq⟩
      obtain ⟨rfl, rfl⟩ := Prod.mk.inj heq
      exact ⟨k, rfl, (hplaces k u').mp he⟩
    · rintro ⟨k, rfl, htoken⟩
      exact ⟨(k, u), (hplaces k u).mpr htoken, rfl⟩
  refine ⟨frontPlace t ++ later, ?_, ?_, fun i u => ?_⟩
  · rw [List.map_append, map_snd_frontPlace, List.map_map]
    rfl
  · refine List.pairwise_append.mpr ⟨pairwise_frontPlace t, ?_, ?_⟩
    · rw [List.pairwise_map]
      exact hsorted.imp fun hlt => Nat.add_lt_add_left hlt _
    · rintro ⟨i, u⟩ ha ⟨j, u'⟩ hb
      obtain ⟨-, rfl, -⟩ := mem_frontPlace.mp ha
      obtain ⟨k, rfl, -⟩ := hlater.mp hb
      omega
  · have hfront : i ≤ t.length → (TokenAt p (t ++ c :: s) i u ↔ u ≠ [] ∧ i = 0 ∧ u = t) :=
      fun hi => tokenAt_front h (by simpa using hc) hi
    rw [List.mem_append, mem_frontPlace, hlater]
    constructor
    · rintro (hmem | ⟨k, rfl, htoken⟩)
      · exact (hfront (by omega)).mpr hmem
      · exact (tokenAt_append_cons hc).mpr htoken
    · intro htoken
      rcases Nat.lt_or_ge t.length i with hlt | hle
      · obtain ⟨k, rfl⟩ := Nat.exists_eq_add_of_le hlt
        exact .inr ⟨k, rfl, (tokenAt_append_cons hc).mp htoken⟩
      · exact .inl ((hfront hle).mp htoken)

/-- **All the places where a token stands**, in order. -/
theorem tokens_isTokens (p : α → Bool) (s : List α) : IsTokens p s (tokens p s) := by
  induction s using splitInduction (p := p) with
  | last t h =>
    rw [tokens_of_free h]
    exact IsTokens.of_free h
  | next t c s h hc ih =>
    rw [tokens_append_cons h hc]
    exact ih.append_cons h hc

/-! ## The first token -/

/-- What stands behind the first elements of a part. -/
theorem drop_add_takeWhile (q : α → Bool) (s : List α) (i : Nat) :
    s.drop (i + ((s.drop i).takeWhile q).length) = (s.drop i).dropWhile q := by
  rw [← List.drop_drop]
  calc (s.drop i).drop ((s.drop i).takeWhile q).length
      = ((s.drop i).takeWhile q ++ (s.drop i).dropWhile q).drop
          ((s.drop i).takeWhile q).length := by
        rw [List.takeWhile_append_dropWhile]
    _ = (s.drop i).dropWhile q := List.drop_left

/-- Separators in front of the first token. -/
theorem tokens_dropWhile (p : α → Bool) (s : List α) : tokens p (s.dropWhile p) = tokens p s := by
  induction s with
  | nil => rfl
  | cons c s ih =>
    by_cases hc : p c = true
    · have hskip := tokens_append_cons (t := []) (by simp) hc s
      rw [List.dropWhile_cons_of_pos hc, ih]
      exact hskip.symm
    · rw [List.dropWhile_cons_of_neg hc]

/-- There is no token among separators. -/
theorem tokens_eq_nil (h : s.dropWhile p = []) : tokens p s = [] := by
  rw [← tokens_dropWhile, h]
  rfl

/-- **The first token**, behind the separators in front of it, and the rest of the list. -/
theorem tokens_eq_cons (h : s.dropWhile p ≠ []) :
    tokens p s = (s.dropWhile p).takeWhile (fun c => !p c) ::
      tokens p ((s.dropWhile p).dropWhile fun c => !p c).tail := by
  have hfirst := List.head?_dropWhile_not p s
  rw [← tokens_dropWhile p s]
  generalize s.dropWhile p = s at h hfirst
  have hne : s.takeWhile (fun c => !p c) ≠ [] := by
    cases s with
    | nil => exact absurd rfl h
    | cons c s =>
      have hc : p c = false := by simpa using hfirst
      rw [List.takeWhile_cons_of_pos (by simp [hc])]
      exact List.cons_ne_nil _ _
  have hfree := takeWhile_free p s
  have hsplit : s.takeWhile (fun c => !p c) ++ s.dropWhile (fun c => !p c) = s :=
    List.takeWhile_append_dropWhile
  have hlater := List.head?_dropWhile_not (fun c => !p c) s
  generalize s.takeWhile (fun c => !p c) = t at hne hfree hsplit
  generalize s.dropWhile (fun c => !p c) = r at hsplit hlater
  subst hsplit
  have hkept : ([t].filter fun t => !t.isEmpty) = [t] := by simpa using hne
  cases r with
  | nil =>
    rw [List.append_nil, tokens_of_free hfree, hkept]
    rfl
  | cons c r =>
    have hc : p c = true := by simpa using hlater
    rw [tokens_append_cons hfree hc, hkept]
    rfl

end Infra
