import Mathlib.Data.List.Perm.Subperm

/-!
# Taking turns

A sequence of turns is fair to `q` compared with `p` if there is a turn of `q` between any two turns of
`p`. `Due p q` says that `p` has had a turn since the last one of `q`, so that the next of the two should
be `q`.

If some parties are fair to each other and nobody else takes a turn, each of them gets one of every `k`
turns, where `k` is their number.
-/

namespace Foundation

open List

variable {α : Type*} {p q x : α} {l w : List α}

/-- There is a `q` between any two `p`. -/
def Alternates (p q : α) (l : List α) : Prop := ∀ l₁ l₂ l₃, l = l₁ ++ p :: (l₂ ++ p :: l₃) → q ∈ l₂

/-- There is no `q` after the last `p`. -/
def Due (p q : α) (l : List α) : Prop := ∃ l₁ l₂, l = l₁ ++ p :: l₂ ∧ q ∉ l₂

lemma Alternates.nil (p q : α) : Alternates p q [] := by
  intro l1 l2 l3 h
  simp at h

lemma Alternates.singleton (p q x : α) : Alternates p q [x] := by
  intro l1 l2 l3 h
  have hlength := congrArg length h
  simp only [length_append, length_cons, length_nil] at hlength
  omega

lemma Due.not_nil : ¬Due p q [] := by
  rintro ⟨l1, l2, h, -⟩
  simp at h

lemma append_singleton_eq {l1 l2 : List α} (h : l ++ [x] = l1 ++ p :: l2) :
    (l2 = [] ∧ x = p ∧ l = l1) ∨ ∃ l3, l2 = l3 ++ [x] ∧ l = l1 ++ p :: l3 := by
  rcases eq_nil_or_concat l2 with rfl | ⟨l3, y, rfl⟩
  · obtain ⟨hl, hx⟩ := append_inj' h rfl
    exact .inl ⟨rfl, (cons.inj hx).1, hl⟩
  have hassoc : l ++ [x] = (l1 ++ p :: l3) ++ [y] := by
    rw [h, concat_eq_append, append_assoc, cons_append]
  obtain ⟨hl, hx⟩ := append_inj' hassoc rfl
  obtain rfl : x = y := (cons.inj hx).1
  exact .inr ⟨l3, concat_eq_append, hl⟩

lemma Alternates.append (h : Alternates p q l) (hx : x = p → ¬Due p q l) : Alternates p q (l ++ [x]) := by
  intro l1 l2 l3 heq
  have hassoc : l ++ [x] = (l1 ++ p :: l2) ++ p :: l3 := by simpa using heq
  rcases append_singleton_eq hassoc with ⟨-, rfl, hl⟩ | ⟨l4, -, hl⟩
  · by_contra hq
    exact hx rfl ⟨l1, l2, hl, hq⟩
  · exact h l1 l2 l4 (by simpa using hl)

/-- After a turn `q` is due if the turn was that of `p`, or if `q` was due and the turn was not its own. -/
lemma Due.of_append (h : Due p q (l ++ [x])) : x = p ∨ (x ≠ q ∧ Due p q l) := by
  obtain ⟨l1, l2, heq, hq⟩ := h
  rcases append_singleton_eq heq with ⟨-, rfl, -⟩ | ⟨l3, rfl, hl⟩
  · exact .inl rfl
  · simp only [mem_append, mem_singleton, not_or] at hq
    exact .inr ⟨fun hx => hq.2 hx.symm, l1, l3, hl, hq.1⟩

lemma Alternates.mem_between (h : Alternates p q (p :: l ++ [p])) : q ∈ l := h [] l [] rfl

lemma Alternates.window (h : Alternates p q l) (hw : w <:+: l) : Alternates p q w := by
  obtain ⟨before, after, rfl⟩ := hw
  intro l1 l2 l3 heq
  refine h (before ++ l1) l2 (l3 ++ after) ?_
  simp [heq]

lemma exists_twice (h : ¬l.Nodup) : ∃ p l1 l2 l3, l = l1 ++ p :: (l2 ++ p :: l3) := by
  induction l with
  | nil => exact absurd nodup_nil h
  | cons x l ih =>
    by_cases hx : x ∈ l
    · obtain ⟨l2, l3, rfl⟩ := append_of_mem hx
      exact ⟨x, [], l2, l3, rfl⟩
    · obtain ⟨p, l1, l2, l3, rfl⟩ := ih fun hl => h (nodup_cons.mpr ⟨hx, hl⟩)
      exact ⟨p, x :: l1, l2, l3, rfl⟩

/-- **One of every `k` turns.** If `k` parties are fair to each other and nobody else takes a turn, then
in any `k` turns in a row each of them has one. -/
theorem perm_of_alternates {parties : List α} (hparties : parties.Nodup)
    (hfair : ∀ p ∈ parties, ∀ q ∈ parties, q ≠ p → Alternates p q l) (hmem : ∀ x ∈ l, x ∈ parties)
    (hw : w <:+: l) (hlength : w.length = parties.length) : w.Perm parties := by
  classical
  have hsub : ∀ x ∈ w, x ∈ parties := fun x hx => hmem x (hw.subset hx)
  have hnodup : w.Nodup := by
    by_contra hdup
    obtain ⟨p, l1, l2, l3, heq⟩ := exists_twice hdup
    have hp : p ∈ parties := hsub p (by simp [heq])
    -- all the others have had a turn between the two of `p`
    have hothers : parties.erase p ⊆ l2 := by
      intro q hq
      obtain ⟨hne, hq⟩ := hparties.mem_erase_iff.mp hq
      exact ((hfair p hp q hq hne).window hw) l1 l2 l3 heq
    have hle := (subperm_of_subset (hparties.erase p) hothers).length_le
    rw [length_erase_of_mem hp, ← hlength, heq] at hle
    simp only [length_append, length_cons] at hle
    omega
  exact (subperm_of_subset hnodup hsub).perm_of_length_le (Nat.le_of_eq hlength.symm)

end Foundation
