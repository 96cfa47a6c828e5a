import Mathlib.Algebra.Ring.Nat
import Mathlib.Data.List.Chain
import Mathlib.Order.Lattice

/-!
# Comb sort

A comb sort makes passes over a list, each with a gap. In a pass every item is compared with the one that many places
ahead, and the two are swapped if the first is greater. The gap shrinks from pass to pass, and at a gap of one passes
are made until nothing is swapped. Such a pass takes out an inversion whenever items are swapped, so there is an end,
and when nothing is swapped the list is sorted.
-/

namespace Foundation

open List Nat Bool

variable {α : Type} (greater : α → α → Bool)

/-! ### Passes -/

/-- A pass, and whether items have been swapped. The window has the items from the next one to be compared up to the
one it is compared with; an item that is compared with itself stays. -/
def combPass : List α → List α → List α × Bool
  | window, [] => (window, false)
  | [], y :: rest =>
    let r := combPass [] rest
    (y :: r.1, r.2)
  | x :: window, y :: rest =>
    if greater x y then
      let r := combPass (window ++ [x]) rest
      (y :: r.1, true)
    else
      let r := combPass (window ++ [y]) rest
      (x :: r.1, r.2)

/-- How many pairs of a list are out of order. -/
def inversions : List α → ℕ
  | [] => 0
  | x :: l => l.countP (greater x) + inversions l

lemma inversions_le (l : List α) : inversions greater l ≤ l.length * l.length := by
  induction l with
  | nil => exact le_rfl
  | cons x l ih =>
    have hcount : l.countP (greater x) ≤ l.length := countP_le_length
    rw [inversions, length_cons, add_mul, mul_add]
    omega

lemma combPass_perm (window rest : List α) : (combPass greater window rest).1.Perm (window ++ rest) := by
  induction rest generalizing window with
  | nil =>
    rw [combPass, append_nil]
  | cons y rest ih =>
    cases window with
    | nil => exact (ih []).cons y
    | cons x window =>
      rw [combPass]
      split
      · refine ((ih _).cons y).trans ?_
        rw [append_assoc, singleton_append, cons_append]
        exact ((perm_middle.cons y).trans (.swap x y _)).trans (perm_middle.symm.cons x)
      · refine ((ih _).cons x).trans ?_
        rw [append_assoc, singleton_append, cons_append]

lemma combPass_unswapped {x : α} {rest : List α} (h : (combPass greater [x] rest).2 = false) :
    (combPass greater [x] rest).1 = x :: rest ∧ (x :: rest).IsChain fun a b => greater a b = false := by
  induction rest generalizing x with
  | nil => exact ⟨rfl, .singleton x⟩
  | cons y rest ih =>
    rw [combPass] at h ⊢
    by_cases hgreater : greater x y = true
    · rw [if_pos hgreater] at h
      cases h
    · rw [if_neg hgreater] at h ⊢
      obtain ⟨hsame, hchain⟩ := ih h
      exact ⟨congrArg (x :: ·) hsame, .cons_cons (eq_false_iff.mpr hgreater) hchain⟩

variable {greater}

/-- At a gap of one there are fewer inversions after items have been swapped. -/
lemma combPass_inversions (hasymm : ∀ x y, greater x y = true → greater y x = false) (x : α) (rest : List α) :
    inversions greater (combPass greater [x] rest).1 + (if (combPass greater [x] rest).2 then 1 else 0) ≤
      inversions greater (x :: rest) := by
  induction rest generalizing x with
  | nil => exact le_rfl
  | cons y rest ih =>
    -- What comes out behind the first item are the other items of the two and of the rest.
    have hcount : ∀ a b, (combPass greater [b] rest).1.countP (greater a) = (b :: rest).countP (greater a) :=
      fun a b => (combPass_perm greater [b] rest).countP_eq _
    rw [combPass]
    by_cases hgreater : greater x y = true
    · have hrest := ih x
      have hle : inversions greater (combPass greater [x] rest).1 ≤ inversions greater (x :: rest) :=
        (le_add_right _ _).trans hrest
      rw [if_pos hgreater]
      simp only [nil_append, inversions, hcount, countP_cons, hgreater, hasymm x y hgreater,
        false_eq_true, if_true, if_false] at hle ⊢
      omega
    · have hrest := ih y
      rw [if_neg hgreater]
      simp only [nil_append, inversions, hcount, countP_cons, hgreater] at hrest ⊢
      omega

variable (greater) (shrink jump : ℕ → ℕ)

/-- The passes, with a bound for their number; `jump` is how far ahead the second item is at a gap. -/
def combSort : ℕ → ℕ → Bool → List α → Option (List α)
  | 0, gap, swapped, l => if gap > 1 ∨ swapped then none else some l
  | fuel + 1, gap, swapped, l =>
    if gap > 1 ∨ swapped then
      let gap := if gap > 1 then shrink gap else gap
      let r := combPass greater (l.take (jump gap)) (l.drop (jump gap))
      combSort fuel gap r.2 r.1
    else some l

variable {greater shrink jump}

/-- The passes that are left. -/
def combMeasure (greater : α → α → Bool) (gap : ℕ) (swapped : Bool) (l : List α) : ℕ :=
  if gap > 1 then gap + l.length * l.length else if swapped then inversions greater l + 1 else 0

lemma combSort_spec (hasymm : ∀ x y, greater x y = true → greater y x = false)
    (hshrink : ∀ g, 2 ≤ g → 1 ≤ shrink g ∧ shrink g < g) (hjump : jump 1 = 1) {fuel gap : ℕ} {swapped : Bool}
    {l : List α} (hsorted : gap ≤ 1 → swapped = false → l.IsChain fun a b => greater a b = false)
    (hgap : swapped = true → 1 ≤ gap) (hfuel : combMeasure greater gap swapped l ≤ fuel) :
    ∃ l', combSort greater shrink jump fuel gap swapped l = some l' ∧ l'.Perm l ∧
      l'.IsChain fun a b => greater a b = false := by
  induction fuel generalizing gap swapped l with
  | zero =>
    by_cases hloop : gap > 1 ∨ swapped = true
    · rw [combMeasure] at hfuel
      rcases hloop with hlarge | hswapped
      · rw [if_pos hlarge] at hfuel
        omega
      · rw [hswapped, if_pos rfl] at hfuel
        split at hfuel <;> omega
    · obtain ⟨hsmall, hswapped⟩ := not_or.mp hloop
      exact ⟨l, if_neg hloop, .refl l, hsorted (Nat.le_of_not_lt hsmall) (eq_false_iff.mpr hswapped)⟩
  | succ fuel ih =>
    rw [combSort]
    by_cases hloop : gap > 1 ∨ swapped = true
    · rw [if_pos hloop]
      generalize hnext : (if gap > 1 then shrink gap else gap) = gap'
      have hperm := combPass_perm greater (l.take (jump gap')) (l.drop (jump gap'))
      rw [take_append_drop] at hperm
      have hpos : 1 ≤ gap' := by
        rw [← hnext]
        split
        next hlarge => exact (hshrink gap hlarge).1
        next hsmall => exact hgap (hloop.resolve_left hsmall)
      -- What a pass at a gap of one does.
      have hone : gap' = 1 → ((combPass greater (l.take (jump gap')) (l.drop (jump gap'))).2 = false →
            (combPass greater (l.take (jump gap')) (l.drop (jump gap'))).1.IsChain fun a b => greater a b = false) ∧
          inversions greater (combPass greater (l.take (jump gap')) (l.drop (jump gap'))).1 +
            (if (combPass greater (l.take (jump gap')) (l.drop (jump gap'))).2 then 1 else 0) ≤ inversions greater l := by
        rintro rfl
        rw [hjump]
        cases l with
        | nil => exact ⟨fun _ => .nil, le_rfl⟩
        | cons x l =>
          refine ⟨fun h => ?_, combPass_inversions hasymm x l⟩
          obtain ⟨hsame, hchain⟩ := combPass_unswapped greater h
          exact (congrArg (List.IsChain _) hsame).mpr hchain
      have hmeasure : combMeasure greater gap' (combPass greater (l.take (jump gap')) (l.drop (jump gap'))).2
          (combPass greater (l.take (jump gap')) (l.drop (jump gap'))).1 ≤ fuel := by
        have hbound := inversions_le greater (combPass greater (l.take (jump gap')) (l.drop (jump gap'))).1
        rw [hperm.length_eq] at hbound
        rw [combMeasure, hperm.length_eq]
        rw [combMeasure] at hfuel
        by_cases hlarge : gap > 1
        · have hless := (hshrink gap hlarge).2
          rw [if_pos hlarge] at hfuel hnext
          split
          · omega
          · split <;> omega
        · obtain ⟨-, hless⟩ := hone (by rw [if_neg hlarge] at hnext; omega)
          rw [if_neg hlarge] at hnext hfuel
          rw [if_pos (hloop.resolve_left hlarge)] at hfuel
          rw [if_neg (by omega)]
          split at hless
          next hagain => rw [if_pos hagain]; omega
          next hagain => rw [if_neg hagain]; omega
      obtain ⟨l', hok, hperm', hchain⟩ := ih (fun hsmall => (hone (by omega)).1) (fun _ => hpos) hmeasure
      exact ⟨l', hok, hperm'.trans hperm, hchain⟩
    · obtain ⟨hsmall, hswapped⟩ := not_or.mp hloop
      exact ⟨l, if_neg hloop, .refl l, hsorted (Nat.le_of_not_lt hsmall) (eq_false_iff.mpr hswapped)⟩

variable (jump) in
/-- **Comb sort.** With a comparison that says which of two items is the greater one the list is sorted. -/
theorem combSort_sorted {le : α → α → Prop} [IsTrans α le] (htotal : ∀ x y, le x y ∨ le y x)
    (hgreater : ∀ x y, greater x y = true ↔ ¬ le x y) (hshrink : ∀ g, 2 ≤ g → 1 ≤ shrink g ∧ shrink g < g)
    (hjump : jump 1 = 1) {fuel : ℕ} {l : List α} (hfuel : l.length + l.length * l.length ≤ fuel) :
    ∃ l', combSort greater shrink jump fuel l.length false l = some l' ∧ l'.Perm l ∧ l'.Pairwise le := by
  have hle : ∀ {x y}, greater x y = false → le x y := fun h => by
    by_contra hnot
    rw [(hgreater _ _).mpr hnot] at h
    cases h
  have hasymm : ∀ x y, greater x y = true → greater y x = false := fun x y h => by
    have hyx : le y x := (htotal x y).resolve_left ((hgreater x y).mp h)
    exact eq_false_iff.mpr fun hyx' => (hgreater y x).mp hyx' hyx
  have hsorted : l.length ≤ 1 → false = false → l.IsChain fun a b => greater a b = false := by
    intro hsmall _
    cases l with
    | nil => exact .nil
    | cons x l =>
      rw [eq_nil_of_length_eq_zero (by rw [length_cons] at hsmall; omega : l.length = 0)]
      exact .singleton x
  have hmeasure : combMeasure greater l.length false l ≤ fuel := by
    rw [combMeasure]
    split
    · exact hfuel
    · exact zero_le _
  obtain ⟨l', hok, hperm, hchain⟩ := combSort_spec hasymm hshrink hjump hsorted (fun h => by cases h) hmeasure
  exact ⟨l', hok, hperm, isChain_iff_pairwise.mp (hchain.imp fun _ _ h => hle h)⟩

end Foundation
