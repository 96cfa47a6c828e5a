import ZeroMQ.Foundation.Run

/-!
# Machines with outputs

A machine takes a state and an input to an output and a new state, or to a fault; a specification
does the same without faults. `refines_run` is the refinement rule: if every step of the machine
from a state related to a state of the specification succeeds, gives the output of the specification
and leads to related states, then so does every run. A condition may be imposed in terms of the
specification, of the machine, or of both.
-/

namespace Foundation

open Prod

variable {σ τ α β ε : Type}

/-- Run a machine and collect its outputs. -/
def runMachine (step : σ → α → Except ε (β × σ)) : σ → List α → Except ε (List β × σ)
  | s, [] => .ok ([], s)
  | s, a :: as =>
    match step s a with
    | .error e => .error e
    | .ok (b, s) =>
      match runMachine step s as with
      | .error e => .error e
      | .ok (bs, s) => .ok (b :: bs, s)

/-- Run a specification and collect its outputs. -/
def runSpec (spec : τ → α → β × τ) : τ → List α → List β × τ
  | u, [] => ([], u)
  | u, a :: as =>
    let r := spec u a
    let rest := runSpec spec r.2 as
    (r.1 :: rest.1, rest.2)

/-- Every input of a run meets a condition in the state of the specification it is given in. -/
def InputsMeet (spec : τ → α → β × τ) (good : τ → α → Prop) : τ → List α → Prop
  | _, [] => True
  | u, a :: as => good u a ∧ InputsMeet spec good (spec u a).2 as

variable {step : σ → α → Except ε (β × σ)} {spec : τ → α → β × τ} {R : σ → τ → Prop} {s s' s'' : σ}

/-- **Refinement rule**, with a condition in terms of the machine and one in terms of the specification. -/
theorem refines_run_of_both
    {good : σ → α → Prop} {good' : τ → α → Prop}
    (hstep : ∀ s u a, R s u → good s a → good' u a →
      ∃ s', step s a = .ok ((spec u a).1, s') ∧ R s' (spec u a).2) {u : τ} (hR : R s u) {as : List α}
    (hgood : StepsMeet (fun s a => (step s a).map snd) good s as) (hgood' : InputsMeet spec good' u as) :
    ∃ s', runMachine step s as = .ok ((runSpec spec u as).1, s') ∧ R s' (runSpec spec u as).2 := by
  induction as generalizing s u with
  | nil => exact ⟨s, rfl, hR⟩
  | cons a as ih =>
    obtain ⟨s1, hs1, hR1⟩ := hstep s u a hR hgood.1 hgood'.1
    have hfirst : (step s a).map snd = .ok s1 := by rw [hs1]; rfl
    obtain ⟨s2, hs2, hR2⟩ := ih hR1 (hgood.2 s1 hfirst) hgood'.2
    refine ⟨s2, ?_, hR2⟩
    simp only [runMachine, hs1, hs2]
    rfl

lemma refines_run {good : τ → α → Prop}
    (hstep : ∀ s u a, R s u → good u a → ∃ s', step s a = .ok ((spec u a).1, s') ∧ R s' (spec u a).2) {u : τ}
    (hR : R s u) {as : List α} (hgood : InputsMeet spec good u as) :
    ∃ s', runMachine step s as = .ok ((runSpec spec u as).1, s') ∧ R s' (runSpec spec u as).2 :=
  refines_run_of_both (fun s u a hR _ hgood => hstep s u a hR hgood) hR
    (stepsMeet_of_forall (fun _ _ _ => trivial) s) hgood

lemma inputsMeet_of_forall {good : τ → α → Prop} {as : List α}
    (h : ∀ u, ∀ a ∈ as, good u a) (u : τ) : InputsMeet spec good u as := by
  induction as generalizing u with
  | nil => trivial
  | cons a as ih =>
    exact ⟨h u a List.mem_cons_self, ih (fun u b hb => h u b (List.mem_cons_of_mem _ hb)) _⟩

/-- Whether the inputs meet a decidable condition can be decided by executing the specification. -/
instance decidableInputsMeet (spec : τ → α → β × τ) (good : τ → α → Prop) [∀ u a, Decidable (good u a)] :
    ∀ u as, Decidable (InputsMeet spec good u as)
  | _, [] => isTrue trivial
  | u, a :: as =>
    have := decidableInputsMeet spec good (spec u a).2 as
    inferInstanceAs (Decidable (good u a ∧ InputsMeet spec good (spec u a).2 as))

lemma refines_run_of_meet
    {good : σ → α → Prop}
    (hstep : ∀ s u a, R s u → good s a →
      ∃ s', step s a = .ok ((spec u a).1, s') ∧ R s' (spec u a).2) {u : τ} (hR : R s u) {as : List α}
    (hgood : StepsMeet (fun s a => (step s a).map snd) good s as) :
    ∃ s', runMachine step s as = .ok ((runSpec spec u as).1, s') ∧ R s' (runSpec spec u as).2 :=
  refines_run_of_both (fun s u a hR hgood _ => hstep s u a hR hgood) hR hgood
    (inputsMeet_of_forall (fun _ _ _ => trivial) u)

lemma runMachine_append {as as' : List α}
    {bs bs' : List β} (h : runMachine step s as = .ok (bs, s'))
    (h' : runMachine step s' as' = .ok (bs', s'')) :
    runMachine step s (as ++ as') = .ok (bs ++ bs', s'') := by
  induction as generalizing s bs with
  | nil =>
    obtain ⟨rfl, rfl⟩ := h
    exact h'
  | cons a as ih =>
    simp only [runMachine] at h
    cases hstep : step s a with
    | error e => simp [hstep] at h
    | ok r =>
      obtain ⟨b, s1⟩ := r
      cases hrun : runMachine step s1 as with
      | error e => simp [hstep, hrun] at h
      | ok r' =>
        obtain ⟨bs1, s2⟩ := r'
        simp only [hstep, hrun, Except.ok.injEq, mk.injEq] at h
        obtain ⟨rfl, rfl⟩ := h
        simp only [List.cons_append, runMachine, hstep, ih hrun]

/-- If every step from a state of the invariant leads back into it, or fails in a way that is allowed, then so does
every run. -/
lemma Yields.runMachine {I : σ → Prop} {E : ε → Prop}
    (hstep : ∀ s a, I s → Yields (step s a) (fun r => I r.2) E) (hs : I s) (as : List α) :
    Yields (runMachine step s as) (fun r => I r.2) E := by
  induction as generalizing s with
  | nil => exact hs
  | cons a as ih =>
    have hfirst := hstep s a hs
    rw [Foundation.runMachine]
    cases hr : step s a with
    | error e =>
      rw [hr] at hfirst
      exact hfirst
    | ok r =>
      rw [hr] at hfirst
      have hrest := ih hfirst
      dsimp only
      cases hrun : Foundation.runMachine step r.2 as with
      | error e | ok r' =>
        rw [hrun] at hrest
        exact hrest

end Foundation
