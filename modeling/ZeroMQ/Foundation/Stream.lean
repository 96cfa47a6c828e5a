import Mathlib.Data.List.Basic

/-!
# Readers of a stream

A reader takes one symbol at a time, may emit an item for it and may fail. What it makes of a list of
symbols is the items emitted and either the state it ends in or the failure; `Outcome.andThen`
composes such results, and reading a concatenation is reading one part after the other.

A reader that works on larger pieces at a time and agrees with the first one on every piece it accepts
gives the same result for every way of cutting the list (`runChunks_eq_feedAll`).
-/

namespace Foundation

/-- The items emitted and the state at the end, or the failure. -/
abbrev Outcome (μ ε σ : Type) := List μ × Except ε σ

variable {σ β γ μ ε : Type}

/-- Go on from the state at the end. -/
def Outcome.andThen (r : Outcome μ ε σ) (f : σ → Outcome μ ε σ) : Outcome μ ε σ :=
  match r with
  | (ms, .error e) => (ms, .error e)
  | (ms, .ok s) => (ms ++ (f s).1, (f s).2)

@[simp] lemma Outcome.andThen_error (ms : List μ) (e : ε) (f : σ → Outcome μ ε σ) :
    Outcome.andThen (ms, .error e) f = (ms, .error e) := rfl

@[simp] lemma Outcome.andThen_ok (ms : List μ) (s : σ) (f : σ → Outcome μ ε σ) :
    Outcome.andThen (ms, .ok s) f = (ms ++ (f s).1, (f s).2) := rfl

/-- The result of one step as an outcome. -/
def Outcome.ofStep : Except ε (Option μ × σ) → Outcome μ ε σ
  | .error e => ([], .error e)
  | .ok (m, s) => (m.toList, .ok s)

/-- Read a list of symbols one by one. -/
def feedAll (feed : σ → β → Except ε (Option μ × σ)) : σ → List β → Outcome μ ε σ
  | s, [] => ([], .ok s)
  | s, b :: bs =>
    match feed s b with
    | .error e => ([], .error e)
    | .ok (m, s') => (m.toList ++ (feedAll feed s' bs).1, (feedAll feed s' bs).2)

variable {feed : σ → β → Except ε (Option μ × σ)}

@[simp] lemma feedAll_nil (s : σ) : feedAll feed s [] = ([], .ok s) := rfl

lemma feedAll_cons_ok {s s' : σ} {b : β} {m : Option μ} (h : feed s b = .ok (m, s'))
    (bs : List β) : feedAll feed s (b :: bs) =
      (m.toList ++ (feedAll feed s' bs).1, (feedAll feed s' bs).2) := by
  simp only [feedAll, h]

lemma feedAll_cons_error {s : σ} {b : β} {e : ε} (h : feed s b = .error e) (bs : List β) :
    feedAll feed s (b :: bs) = ([], .error e) := by
  simp only [feedAll, h]

lemma feedAll_append (s : σ) (xs ys : List β) :
    feedAll feed s (xs ++ ys) = (feedAll feed s xs).andThen fun s => feedAll feed s ys := by
  induction xs generalizing s with
  | nil => rfl
  | cons x xs ih =>
    rw [List.cons_append]
    cases hx : feed s x with
    | error e =>
      rw [feedAll_cons_error hx, feedAll_cons_error hx]
      rfl
    | ok r =>
      obtain ⟨m, s'⟩ := r
      rw [feedAll_cons_ok hx, feedAll_cons_ok hx, ih s']
      obtain ⟨ms, e | s''⟩ := feedAll feed s' xs
      · rfl
      · simp

/-- Reading fails at the symbol that a state reached before cannot take. -/
lemma feedAll_error_iff {s : σ} {bs : List β} {e : ε} :
    (feedAll feed s bs).2 = .error e ↔
      ∃ before b after ms s', bs = before ++ b :: after ∧ feedAll feed s before = (ms, .ok s') ∧
        feed s' b = .error e := by
  constructor
  · intro h
    induction bs generalizing s with
    | nil => cases h
    | cons b bs ih =>
      cases hb : feed s b with
      | error e' =>
        rw [feedAll_cons_error hb] at h
        obtain rfl := Except.error.inj h
        exact ⟨[], b, bs, [], s, rfl, rfl, hb⟩
      | ok res =>
        obtain ⟨m, s1⟩ := res
        rw [feedAll_cons_ok hb] at h
        obtain ⟨before, b', after, ms, s', rfl, hbefore, herror⟩ := ih h
        refine ⟨b :: before, b', after, m.toList ++ ms, s', rfl, ?_, herror⟩
        rw [feedAll_cons_ok hb, hbefore]
  · rintro ⟨before, b, after, ms, s', rfl, hbefore, herror⟩
    rw [feedAll_append, hbefore, Outcome.andThen_ok, feedAll_cons_error herror]

lemma feedAll_items {I : σ → Prop} {Q : μ → Prop}
    (hstep : ∀ {s b m s'}, I s → feed s b = .ok (m, s') → I s' ∧ ∀ x ∈ m, Q x) {s : σ} (hs : I s)
    (bs : List β) : ∀ x ∈ (feedAll feed s bs).1, Q x := by
  induction bs generalizing s with
  | nil => simp
  | cons b bs ih =>
    intro x hx
    cases hb : feed s b with
    | error e =>
      rw [feedAll_cons_error hb] at hx
      simp at hx
    | ok r =>
      obtain ⟨m, s'⟩ := r
      obtain ⟨hs', hm⟩ := hstep hs hb
      rw [feedAll_cons_ok hb, List.mem_append] at hx
      rcases hx with hx | hx
      · exact hm x (Option.mem_toList.mp hx)
      · exact ih hs' x hx

/-- Read a list of pieces one by one. -/
def runChunks (read : σ → γ → Outcome μ ε σ) : σ → List γ → Outcome μ ε σ
  | s, [] => ([], .ok s)
  | s, c :: cs => (read s c).andThen fun s => runChunks read s cs

/-- Every piece is acceptable in the state it is read in. -/
def ChunksMeet (read : σ → γ → Outcome μ ε σ) (good : σ → γ → Prop) : σ → List γ → Prop
  | _, [] => True
  | s, c :: cs => good s c ∧ ∀ s', (read s c).2 = .ok s' → ChunksMeet read good s' cs

/-- **Cutting does not matter.** -/
theorem runChunks_eq_feedAll {read : σ → γ → Outcome μ ε σ} {good : σ → γ → Prop}
    {symbols : γ → List β} (hread : ∀ s c, good s c → read s c = feedAll feed s (symbols c))
    {s : σ} {cs : List γ} (hcs : ChunksMeet read good s cs) :
    runChunks read s cs = feedAll feed s (cs.flatMap symbols) := by
  induction cs generalizing s with
  | nil => rfl
  | cons c cs ih =>
    rw [runChunks, List.flatMap_cons, feedAll_append, hread s c hcs.1]
    have hrest := hcs.2
    rw [hread s c hcs.1] at hrest
    revert hrest
    obtain ⟨ms, e | s'⟩ := feedAll feed s (symbols c)
    · intro _
      rfl
    · intro hrest
      rw [Outcome.andThen_ok, Outcome.andThen_ok, ih (hrest s' rfl)]

end Foundation
