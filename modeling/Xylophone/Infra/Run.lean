import Mathlib.Logic.Relation

/-!
# Runs of a labelled transition system

A system is a relation `step s a s'`: in state `s` the operation `a` may lead to `s'`. Some
results hold only of runs whose operations all meet a condition, so a run carries one: `ok s a`
is read in the state before the step. With the condition `fun _ _ => True` a run is any run.

Every prefix of a run is a run, so what holds at the end of every run holds in every state
reached.

Where the operations are functions, a run is the list of its operations, and `EveryStep` says what
holds of each of its steps.

* `Run.invariant` — what every step under the condition preserves, every run preserves
* `EveryStep.invariant` — the same of a list of operations
* `everyStep_iff` — two conditions that agree as long as an invariant holds
-/

namespace Infra

variable {σ α : Type*} {step : σ → α → σ → Prop} {ok : σ → α → Prop} {s s' s'' : σ}

/-- `s'` is reached from `s` by steps that all meet the condition `ok`. -/
def Run (step : σ → α → σ → Prop) (ok : σ → α → Prop) : σ → σ → Prop :=
  Relation.ReflTransGen (fun s s' => ∃ a, ok s a ∧ step s a s')

namespace Run

theorem refl (s : σ) : Run step ok s s := Relation.ReflTransGen.refl

theorem tail {a : α} (h : Run step ok s s') (hok : ok s' a) (hs : step s' a s'') :
    Run step ok s s'' := Relation.ReflTransGen.tail h ⟨a, hok, hs⟩

theorem trans (h : Run step ok s s') (h' : Run step ok s' s'') : Run step ok s s'' :=
  Relation.ReflTransGen.trans h h'

theorem single {a : α} (hok : ok s a) (hs : step s a s') : Run step ok s s' :=
  (refl s).tail hok hs

/-- **The invariant rule.** What every step under the condition preserves, every run preserves. -/
theorem invariant {I : σ → Prop} (hstep : ∀ s a s', I s → ok s a → step s a s' → I s')
    (h0 : I s) (h : Run step ok s s') : I s' := by
  induction h with
  | refl => exact h0
  | tail _ hlast ih =>
    obtain ⟨a, hok, hs⟩ := hlast
    exact hstep _ a _ ih hok hs

end Run

/-! ## Runs that can be computed -/

/-- Carry out the operations one after the other, as long as each meets the condition. -/
def runList (f : σ → α → Option σ) (ok : σ → α → Prop) [∀ s a, Decidable (ok s a)] :
    σ → List α → Option σ
  | s, [] => some s
  | s, a :: as => if ok s a then (f s a).bind fun s' => runList f ok s' as else none

theorem Run.of_runList {f : σ → α → Option σ} [∀ s a, Decidable (ok s a)]
    (hf : ∀ {s a s'}, f s a = some s' → step s a s') :
    ∀ {as : List α} {s s' : σ}, runList f ok s as = some s' → Run step ok s s'
  | [], _, _, h => by
    obtain rfl := Option.some.inj h
    exact Run.refl _
  | a :: as, s, s', h => by
    rw [runList] at h
    split at h
    · next hok =>
      obtain ⟨v, hv, hrest⟩ := Option.bind_eq_some_iff.mp h
      exact (Run.single hok (hf hv)).trans (of_runList hf hrest)
    · cases h

/-! ## Runs of a function -/

section EveryStep

variable {f : σ → α → σ} {P Q : σ → α → Prop} {I : σ → Prop} {as : List α}

/-- Every step of the run meets the condition, which is read in the state before the step. -/
def EveryStep (f : σ → α → σ) (P : σ → α → Prop) : σ → List α → Prop
  | _, [] => True
  | s, a :: as => P s a ∧ EveryStep f P (f s a) as

/-- **The invariant rule.** -/
theorem EveryStep.invariant (hstep : ∀ s a, a ∈ as → I s → P s a → I (f s a)) (h0 : I s)
    (h : EveryStep f P s as) : I (as.foldl f s) := by
  induction as generalizing s with
  | nil => exact h0
  | cons a as ih =>
    obtain ⟨hfirst, hrest⟩ := h
    exact ih (fun s b hb => hstep s b (List.mem_cons_of_mem _ hb))
      (hstep s a List.mem_cons_self h0 hfirst) hrest

/-- What holds of every step while the invariant does. -/
theorem EveryStep.imp (hstep : ∀ s a, a ∈ as → I s → P s a → I (f s a))
    (himp : ∀ s a, a ∈ as → I s → P s a → Q s a) (h0 : I s) (h : EveryStep f P s as) :
    EveryStep f Q s as := by
  induction as generalizing s with
  | nil => trivial
  | cons a as ih =>
    obtain ⟨hfirst, hrest⟩ := h
    exact ⟨himp s a List.mem_cons_self h0 hfirst,
      ih (fun s b hb => hstep s b (List.mem_cons_of_mem _ hb))
        (fun s b hb => himp s b (List.mem_cons_of_mem _ hb))
        (hstep s a List.mem_cons_self h0 hfirst) hrest⟩

/-- **Two conditions on the steps.** They agree as long as the invariant holds, and the invariant
holds as long as they do. -/
theorem everyStep_iff (hstep : ∀ s a, a ∈ as → I s → P s a → I (f s a))
    (hiff : ∀ s a, a ∈ as → I s → (P s a ↔ Q s a)) (h0 : I s) :
    EveryStep f P s as ↔ EveryStep f Q s as :=
  ⟨EveryStep.imp hstep (fun s a ha hs => (hiff s a ha hs).mp) h0,
    EveryStep.imp (fun s a ha hs hq => hstep s a ha hs ((hiff s a ha hs).mpr hq))
      (fun s a ha hs => (hiff s a ha hs).mpr) h0⟩

end EveryStep

end Infra
