import Mathlib.Data.List.Basic

/-!
# Runs of a step function that may fault

A step function takes a state and a label to a new state or to a fault. A run is a list of labels
executed one after the other until the list is empty or a step faults. `StepsMeet` says that every
step of a run meets a condition in the state it is taken from, and `runSteps_invariant` is the
induction every safety theorem of a run goes through.
-/

namespace Foundation

open Except List

variable {σ α ε : Type}

/-- Execute the labels one after the other; a fault ends the run. -/
def runSteps (step : σ → α → Except ε σ) : σ → List α → Except ε σ
  | s, [] => .ok s
  | s, a :: as =>
    match step s a with
    | .ok s' => runSteps step s' as
    | .error e => .error e

/-- Every step of the run meets `good` in the state it is taken from. -/
def StepsMeet (step : σ → α → Except ε σ) (good : σ → α → Prop) : σ → List α → Prop
  | _, [] => True
  | s, a :: as => good s a ∧ ∀ s', step s a = .ok s' → StepsMeet step good s' as

variable {step : σ → α → Except ε σ}

/-- A run that begins with a step that succeeds continues from the state that step reaches. -/
lemma runSteps_cons_ok {s s' : σ} {a : α} (h : step s a = .ok s')
    (as : List α) : runSteps step s (a :: as) = runSteps step s' as := by
  rw [runSteps, h]

lemma runSteps_append {s s' : σ} {as : List α}
    (h : runSteps step s as = .ok s') (bs : List α) :
    runSteps step s (as ++ bs) = runSteps step s' bs := by
  induction as generalizing s with
  | nil => rw [nil_append, ok.inj h]
  | cons a as ih =>
    rw [runSteps] at h
    cases hstep : step s a with
    | error e => simp [hstep] at h
    | ok s1 =>
      rw [hstep] at h
      rw [cons_append, runSteps_cons_ok hstep]
      exact ih h

lemma runSteps_append_error {s : σ} {as : List α} {e : ε}
    (h : runSteps step s as = .error e) (bs : List α) :
    runSteps step s (as ++ bs) = .error e := by
  induction as generalizing s with
  | nil => cases h
  | cons a as ih =>
    rw [runSteps] at h
    cases hstep : step s a with
    | error e' => rw [cons_append, runSteps, hstep]; rwa [hstep] at h
    | ok s1 =>
      rw [hstep] at h
      rw [cons_append, runSteps_cons_ok hstep]
      exact ih h

variable {good good' : σ → α → Prop} {I P Q : σ → Prop}

/-- **Invariant rule.** If every good step from a state of the invariant succeeds and leads back
into the invariant, then so does every run of good steps. -/
theorem runSteps_invariant
    (hstep : ∀ s a, I s → good s a → ∃ s', step s a = .ok s' ∧ I s') {s : σ} (hs : I s)
    {as : List α} (hgood : StepsMeet step good s as) :
    ∃ s', runSteps step s as = .ok s' ∧ I s' := by
  induction as generalizing s with
  | nil => exact ⟨s, rfl, hs⟩
  | cons a as ih =>
    obtain ⟨s1, hs1, hinv⟩ := hstep s a hs hgood.1
    rw [runSteps_cons_ok hs1]
    exact ih hinv (hgood.2 s1 hs1)

/-- A property that good steps keep when they succeed holds at the end of every run of good steps that
succeeds. -/
lemma runSteps_preserves
    (hstep : ∀ s a s', I s → good s a → step s a = .ok s' → I s') {s s' : σ} (hs : I s)
    {as : List α} (hgood : StepsMeet step good s as) (hrun : runSteps step s as = .ok s') :
    I s' := by
  induction as generalizing s with
  | nil =>
    rw [← ok.inj hrun]
    exact hs
  | cons a as ih =>
    rw [runSteps] at hrun
    cases hs1 : step s a with
    | error e => simp [hs1] at hrun
    | ok s1 =>
      rw [hs1] at hrun
      exact ih (hstep s a s1 hs hgood.1 hs1) (hgood.2 s1 hs1) hrun

/-- If every good step from a state of the invariant leads back into it or fails in a way that is allowed,
then so does every run of good steps. -/
lemma runSteps_outcome {E : ε → Prop}
    (hstep : ∀ s a, I s → good s a → (∃ s', step s a = .ok s' ∧ I s') ∨ ∃ e, step s a = .error e ∧ E e)
    {s : σ} (hs : I s) {as : List α} (hgood : StepsMeet step good s as) :
    (∃ s', runSteps step s as = .ok s' ∧ I s') ∨ ∃ e, runSteps step s as = .error e ∧ E e := by
  induction as generalizing s with
  | nil => exact .inl ⟨s, rfl, hs⟩
  | cons a as ih =>
    obtain ⟨s1, hs1, hinv⟩ | ⟨e, hfail, he⟩ := hstep s a hs hgood.1
    · rw [runSteps_cons_ok hs1]
      exact ih hinv (hgood.2 s1 hs1)
    · refine .inr ⟨e, ?_, he⟩
      rw [runSteps, hfail]

/-- If the steps that are not good are those that fail with a certain fault, then so it is with runs. -/
lemma runSteps_error_iff {e : ε}
    (hstep : ∀ s a, step s a = .error e ↔ ¬good s a) (s : σ) (as : List α) :
    runSteps step s as = .error e ↔ ¬StepsMeet step good s as := by
  induction as generalizing s with
  | nil => simp [runSteps, StepsMeet]
  | cons a as ih =>
    rw [runSteps]
    cases hs : step s a with
    | error e' =>
      have hgood := hstep s a
      rw [hs] at hgood
      simp [StepsMeet, hs, hgood]
    | ok s1 =>
      have hgood : good s a := by
        by_contra hnot
        rw [(hstep s a).mpr hnot] at hs
        cases hs
      simp [StepsMeet, hs, hgood, ih]

/-- If every step from a state of the invariant is good and leads back into it, or is not good and fails with a
certain fault, then so it is with runs. -/
lemma runSteps_dichotomy {e : ε}
    (hstep : ∀ s a, I s → (good s a ∧ ∃ s', step s a = .ok s' ∧ I s') ∨ (¬good s a ∧ step s a = .error e))
    {s : σ} (hs : I s) (as : List α) :
    (StepsMeet step good s as ∧ ∃ s', runSteps step s as = .ok s' ∧ I s') ∨
      (¬StepsMeet step good s as ∧ runSteps step s as = .error e) := by
  induction as generalizing s with
  | nil => exact .inl ⟨trivial, s, rfl, hs⟩
  | cons a as ih =>
    obtain ⟨hgood, s1, hs1, hinv⟩ | ⟨hnot, hfail⟩ := hstep s a hs
    · rw [runSteps_cons_ok hs1]
      have hmeet : StepsMeet step good s (a :: as) ↔ StepsMeet step good s1 as := by
        constructor
        · exact fun h => h.2 s1 hs1
        intro h
        refine ⟨hgood, fun s2 hs2 => ?_⟩
        rw [← ok.inj (hs1.symm.trans hs2)]
        exact h
      rw [hmeet]
      exact ih hinv
    · refine .inr ⟨fun h => hnot h.1, ?_⟩
      rw [runSteps, hfail]

/-! ### Results -/

section Ensures

variable {β : Type} {Q : σ → Prop} {Q' : β → Prop} {r : Except ε σ} {f : σ → Except ε β}

lemma exists_of_bind_ok {b : β} (h : r >>= f = .ok b) : ∃ s, r = .ok s ∧ f s = .ok b := by
  cases r with
  | error e => cases h
  | ok s => exact ⟨s, rfl, h⟩

/-- If there is a result, it has a property. -/
def Ensures (r : Except ε σ) (Q : σ → Prop) : Prop := ∀ s, r = .ok s → Q s

lemma Ensures.ok {s : σ} (h : Q s) : Ensures (.ok s : Except ε σ) Q := by
  intro s' hs'
  rw [← ok.inj hs']
  exact h

lemma Ensures.error (e : ε) : Ensures (.error e : Except ε σ) Q := fun _ h => (by cases h)

lemma Ensures.bind (h : Ensures r Q) (hf : ∀ s, Q s → Ensures (f s) Q') : Ensures (r >>= f) Q' := by
  intro b hb
  cases hr : r with
  | error e => rw [hr] at hb; cases hb
  | ok s =>
    rw [hr] at hb
    exact hf s (h s hr) b hb

lemma Ensures.mono {Q2 : σ → Prop} (h : Ensures r Q) (hQ : ∀ s, Q s → Q2 s) : Ensures r Q2 :=
  fun s hs => hQ s (h s hs)

lemma Ensures.map {g : σ → β} (h : Ensures r fun s => Q' (g s)) : Ensures (r.map g) Q' := by
  intro b hb
  cases hr : r with
  | error e => rw [hr] at hb; cases hb
  | ok s =>
    rw [hr] at hb
    rw [← ok.inj hb]
    exact h s hr

end Ensures

/-! ### Results and errors -/

section Yields

variable {β : Type} {Q Q₂ : σ → Prop} {Q' : β → Prop} {E : ε → Prop} {r : Except ε σ} {f : σ → Except ε β}

/-- A result has a property, and so has an error. -/
def Yields (r : Except ε σ) (Q : σ → Prop) (E : ε → Prop) : Prop :=
  match r with
  | .ok s => Q s
  | .error e => E e

lemma Yields.mono (h : Yields r Q E) (hQ : ∀ s, Q s → Q2 s) : Yields r Q2 E := by
  cases r with
  | ok s => exact hQ s h
  | error e => exact h

lemma Yields.mono_error {E' : ε → Prop} (h : Yields r Q E) (hE : ∀ e, E e → E' e) : Yields r Q E' := by
  cases r with
  | ok s => exact h
  | error e => exact hE e h

lemma Yields.bind (h : Yields r Q E) (hf : ∀ s, Q s → Yields (f s) Q' E) : Yields (r >>= f) Q' E := by
  cases r with
  | ok s => exact hf s h
  | error e => exact h

lemma yields_true (r : Except ε σ) : Yields r (fun _ => True) fun _ => True := by
  cases r <;> trivial

/-- A property of results and one of errors. -/
lemma yields_of (h : Ensures r Q) (hE : ∀ e, r = .error e → E e) : Yields r Q E := by
  cases r with
  | ok s => exact h s rfl
  | error e => exact hE e rfl

lemma Yields.ensures (h : Yields r Q E) : Ensures r Q := by
  rintro s rfl
  exact h

lemma Yields.map {g : σ → β} (h : Yields r (fun s => Q' (g s)) E) : Yields (r.map g) Q' E := by
  cases r with
  | ok s | error e => exact h

/-- If good steps from a state of the invariant lead back into it, or an error that is allowed, then so
have runs of good steps. -/
lemma Yields.runSteps {step : σ → α → Except ε σ} {good : σ → α → Prop} {I : σ → Prop}
    (hstep : ∀ s a, I s → good s a → Yields (step s a) I E) {s : σ} (hs : I s) {as : List α}
    (hgood : StepsMeet step good s as) : Yields (runSteps step s as) I E := by
  induction as generalizing s with
  | nil => exact hs
  | cons a as ih =>
    have hfirst := hstep s a hs hgood.1
    rw [Foundation.runSteps]
    cases hs1 : step s a with
    | error e =>
      rw [hs1] at hfirst
      exact hfirst
    | ok s1 =>
      rw [hs1] at hfirst
      exact ih hfirst (hgood.2 s1 hs1)

end Yields

/-- A run succeeds and ends in a state with a property. -/
def okAnd (r : Except ε σ) (P : σ → Prop) : Prop :=
  match r with
  | .ok s => P s
  | .error _ => False

instance (r : Except ε σ) (P : σ → Prop) [DecidablePred P] : Decidable (okAnd r P) :=
  match r with
  | .ok s => inferInstanceAs (Decidable (P s))
  | .error _ => inferInstanceAs (Decidable False)

variable {r : Except ε σ}

lemma okAnd.exists (h : okAnd r P) : ∃ s, r = .ok s ∧ P s := by
  cases r with
  | ok s => exact ⟨s, rfl, h⟩
  | error e => exact h.elim

/-- A run that can be executed, with something that is known of every run that succeeds. -/
lemma okAnd.exists_and (h : okAnd r P) (hQ : ∀ s, r = .ok s → Q s) : ∃ s, r = .ok s ∧ P s ∧ Q s := by
  obtain ⟨s, hs, hP⟩ := h.exists
  exact ⟨s, hs, hP, hQ s hs⟩

/-- A run that can be executed, with something that follows from what can be checked of its end. -/
lemma okAnd.exists_imp (h : okAnd r P) (hQ : ∀ s, r = .ok s → P s → Q s) : ∃ s, r = .ok s ∧ Q s := by
  obtain ⟨s, hs, hP⟩ := h.exists
  exact ⟨s, hs, hQ s hs hP⟩

lemma stepsMeet_of_forall {as : List α} (h : ∀ a ∈ as, ∀ s, good s a) (s : σ) : StepsMeet step good s as := by
  induction as generalizing s with
  | nil => trivial
  | cons a as ih =>
    refine ⟨h a mem_cons_self s, fun s' _ => ih (fun b hb => ?_) s'⟩
    exact h b (mem_cons_of_mem _ hb)

lemma StepsMeet.and {s : σ} {as : List α}
    (h : StepsMeet step good s as) (h' : StepsMeet step good' s as) :
    StepsMeet step (fun s a => good s a ∧ good' s a) s as := by
  induction as generalizing s with
  | nil => trivial
  | cons a as ih => exact ⟨⟨h.1, h'.1⟩, fun s' hs' => ih (h.2 s' hs') (h'.2 s' hs')⟩

lemma StepsMeet.mono {s : σ} {as : List α}
    (h : StepsMeet step good s as) (hgood : ∀ s a, good s a → good' s a) : StepsMeet step good' s as := by
  induction as generalizing s with
  | nil => trivial
  | cons a as ih => exact ⟨hgood s a h.1, fun s' hs' => ih (h.2 s' hs')⟩

/-- A run meets a condition if its first label does and the rest does from where the first step leads. -/
lemma StepsMeet.cons {step : σ → α → Except ε σ} {good : σ → α → Prop} {s s' : σ} {a : α} {as : List α}
    (hs : step s a = .ok s') (hgood : good s a) (h : StepsMeet step good s' as) :
    StepsMeet step good s (a :: as) := by
  refine ⟨hgood, fun s1 hs1 => ?_⟩
  obtain rfl := ok.inj (hs.symm.trans hs1)
  exact h

lemma StepsMeet.of_append {s : σ} {as bs : List α}
    (h : StepsMeet step good s (as ++ bs)) : StepsMeet step good s as := by
  induction as generalizing s with
  | nil => trivial
  | cons a as ih => exact ⟨h.1, fun s' hs' => ih (h.2 s' hs')⟩

lemma StepsMeet.after {s s' : σ} {as bs : List α}
    (h : StepsMeet step good s (as ++ bs)) (hrun : runSteps step s as = .ok s') : StepsMeet step good s' bs := by
  induction as generalizing s with
  | nil =>
    rw [← ok.inj hrun]
    exact h
  | cons a as ih =>
    rw [runSteps] at hrun
    cases hs : step s a with
    | error e => simp [hs] at hrun
    | ok s1 =>
      rw [hs] at hrun
      exact ih (h.2 s1 hs) hrun

/-- Whether a run meets a decidable condition can be decided by executing it. -/
instance decidableStepsMeet (step : σ → α → Except ε σ) (good : σ → α → Prop)
    [∀ s a, Decidable (good s a)] : ∀ s as, Decidable (StepsMeet step good s as)
  | _, [] => isTrue trivial
  | s, a :: as =>
    match h : step s a with
    | .ok s' =>
      have := decidableStepsMeet step good s' as
      decidable_of_iff (good s a ∧ StepsMeet step good s' as) <| by
        simp [StepsMeet, h]
    | .error _ => decidable_of_iff (good s a) <| by simp [StepsMeet, h]

end Foundation
