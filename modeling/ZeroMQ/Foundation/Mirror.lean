import Mathlib.Data.List.Basic

/-!
# A value that is kept at two ends

Two ends, the left and the right one, each have at most one value. The left end tells the right one of every
change, and the right end tells the left one while it is joined; what an end is told it takes over. What is on
the way is in two queues.

`Mirrored` says of the last value on the way in a direction that it is the sender's, and that two ends that are
joined have the same value if nothing is on the way. The right end may be joined and parted at any time: when it
is joined it tells its value, and while it is not, it may only miss values when it has one.
-/

namespace Foundation

open List

variable {β : Type}

/-- The left end has `a` and the right end `b`; `u` is on the way to the right end, and `d` to the left one. -/
structure Mirrored (joined : Prop) (u d : List β) (a b : Option β) : Prop where
  /-- The last value on the way to the right end is what the left end has. -/
  right : ∀ v, u.getLast? = some v → a = some v
  /-- The last value on the way to the left end is what the right end has. -/
  left : joined → ∀ v, d.getLast? = some v → b = some v
  agree : joined → u = [] → d = [] → a = b
  /-- What the left end has is on the way, unless the right end has something. -/
  kept : u = [] → b = none → a = none
  known : b = none → d = []

namespace Mirrored

variable {joined : Prop} {u d : List β} {a b : Option β} {v w : β}

lemma getLast?_of_tail (h : u.getLast? = some w) : (v :: u).getLast? = some w := by
  rw [getLast?_cons, h]
  rfl

lemma ofLeft (hjoined : ¬joined) (a b : Option β) : Mirrored joined a.toList [] a b where
  right := by
    intro v h
    cases a with
    | none => cases h
    | some w => exact h
  left := fun h => absurd h hjoined
  agree := fun h => absurd h hjoined
  kept := by
    intro hu _
    cases a with
    | none => rfl
    | some w => cases hu
  known := fun _ => rfl

section

variable (h : Mirrored joined u d a b)

include h

lemma change_left (v : β) : Mirrored joined (u ++ [v]) d (some v) b where
  right := by
    intro w hw
    rw [getLast?_concat] at hw
    exact hw
  left := h.left
  agree := by
    intro _ hu
    simp at hu
  kept := by
    intro hu
    simp at hu
  known := h.known

lemma change_right (v : β) : Mirrored joined u (d ++ [v]) a (some v) where
  right := h.right
  left := by
    intro _ w hw
    rw [getLast?_concat] at hw
    exact hw
  agree := by
    intro _ _ hd
    simp at hd
  kept := by
    intro _ hb
    cases hb
  known := by
    intro hb
    cases hb

lemma change_apart (hapart : ¬joined) (v : β) : Mirrored joined u d a (some v) where
  right := h.right
  left := fun hjoined => absurd hjoined hapart
  agree := fun hjoined => absurd hjoined hapart
  kept := by
    intro _ hb
    cases hb
  known := by
    intro hb
    cases hb

lemma tell_left (change : Prop) [Decidable change] (v : β) :
    Mirrored joined (if change then u ++ [v] else u) d (if change then some v else a) b := by
  by_cases hchange : change
  · rw [if_pos hchange, if_pos hchange]
    exact h.change_left v
  · rw [if_neg hchange, if_neg hchange]
    exact h

/-- The right end has a new value, if something happens, and tells it if it is joined. -/
lemma tell_right (change : Prop) [Decidable change] [Decidable joined] (v : β) :
    Mirrored joined u (if joined ∧ change then d ++ [v] else d) a (if change then some v else b) := by
  by_cases hchange : change
  · rw [if_pos hchange]
    by_cases hjoined : joined
    · rw [if_pos ⟨hjoined, hchange⟩]
      exact h.change_right v
    · rw [if_neg fun hboth => hjoined hboth.1]
      exact h.change_apart hjoined v
  · rw [if_neg hchange, if_neg fun hboth => hchange hboth.2]
    exact h

end

lemma same_right (h : Mirrored joined (v :: u) d a b) (hb : b = some v) : Mirrored joined u d a b where
  right := fun w hw => h.right w (getLast?_of_tail hw)
  left := h.left
  agree := by
    intro _ hu _
    subst hu
    exact (h.right v rfl).trans hb.symm
  kept := by
    intro _ hnone
    rw [hnone] at hb
    cases hb
  known := h.known

lemma take_right (h : Mirrored joined (v :: u) d a b) : Mirrored joined u (d ++ [v]) a (some v) where
  right := fun w hw => h.right w (getLast?_of_tail hw)
  left := by
    intro _ w hw
    rw [getLast?_concat] at hw
    exact hw
  agree := by
    intro _ _ hd
    simp at hd
  kept := by
    intro _ hb
    cases hb
  known := by
    intro hb
    cases hb

lemma same_left (h : Mirrored joined u (v :: d) a b) (ha : a = some v) : Mirrored joined u d a b where
  right := h.right
  left := fun hjoined w hw => h.left hjoined w (getLast?_of_tail hw)
  agree := by
    intro hjoined _ hd
    subst hd
    exact ha.trans (h.left hjoined v rfl).symm
  kept := h.kept
  known := by
    intro hb
    cases h.known hb

lemma take_left (h : Mirrored joined u (v :: d) a b) : Mirrored joined (u ++ [v]) d (some v) b where
  right := by
    intro w hw
    rw [getLast?_concat] at hw
    exact hw
  left := fun hjoined w hw => h.left hjoined w (getLast?_of_tail hw)
  agree := by
    intro _ hu
    simp at hu
  kept := by
    intro hu
    simp at hu
  known := by
    intro hb
    cases h.known hb

variable {joined' : Prop}

lemma part (h : Mirrored joined u d a b) (hjoined : ¬joined') : Mirrored joined' u d a b where
  right := h.right
  left := fun h' => absurd h' hjoined
  agree := fun h' => absurd h' hjoined
  kept := h.kept
  known := h.known

lemma join (h : Mirrored joined u d a b) : Mirrored joined' u (d ++ b.toList) a b where
  right := h.right
  left := by
    intro _ v hv
    cases b with
    | none =>
      rw [h.known rfl] at hv
      cases hv
    | some w =>
      rw [Option.toList_some, getLast?_concat] at hv
      exact hv
  agree := by
    intro _ hu hd
    cases b with
    | none => exact h.kept hu rfl
    | some w => simp at hd
  kept := h.kept
  known := by
    intro hb
    subst hb
    rw [h.known rfl]
    rfl

end Mirrored

end Foundation
