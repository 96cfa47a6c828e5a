import Mathlib.Data.List.Nodup

/-!
# Queues of changes

A change gives a key a new value or takes its value away. A queue of changes is coalesced if it has at most
one change of every key: a new change replaces the old one of its key and goes to the end of the queue.
Whoever applies a coalesced queue gets what all changes give one after the other.
-/

namespace Foundation

variable {κ β : Type} [DecidableEq κ]

/-- A new value for a key, or none. -/
structure Change (κ β : Type) where
  key : κ
  value : Option β

namespace Change

variable {cs : List (Change κ β)} {c d : Change κ β} {m : κ → Option β}

/-- What a change makes of a map. -/
def apply (m : κ → Option β) (c : Change κ β) : κ → Option β := Function.update m c.key c.value

/-- What a queue of changes makes of a map. -/
def applyAll (m : κ → Option β) (cs : List (Change κ β)) : κ → Option β := cs.foldl apply m

@[simp] lemma applyAll_nil (m : κ → Option β) : applyAll m [] = m := rfl

@[simp] lemma applyAll_cons (m : κ → Option β) (c : Change κ β) (cs : List (Change κ β)) :
    applyAll m (c :: cs) = applyAll (c.apply m) cs := rfl

@[simp] lemma applyAll_append (m : κ → Option β) (cs ds : List (Change κ β)) :
    applyAll m (cs ++ ds) = applyAll (applyAll m cs) ds := List.foldl_append

lemma apply_self : c.apply m c.key = c.value := Function.update_self ..

lemma apply_of_ne {k : κ} (h : k ≠ c.key) : c.apply m k = m k := Function.update_of_ne h ..

lemma applyAll_congr {m' : κ → Option β} {k : κ} (h : m k = m' k) : applyAll m cs k = applyAll m' cs k := by
  induction cs generalizing m m' with
  | nil => exact h
  | cons c cs ih =>
    refine ih ?_
    by_cases hk : k = c.key
    · rw [hk, apply_self, apply_self]
    · rw [apply_of_ne hk, apply_of_ne hk, h]

/-- Only the changes of a key matter for it. -/
lemma applyAll_filter {α : Type} (g : α → Change κ β) (l : List α) (m : κ → Option β) (k : κ) :
    applyAll m (l.map g) k = applyAll m ((l.filter fun a => (g a).key = k).map g) k := by
  induction l generalizing m with
  | nil => rfl
  | cons a l ih =>
    rw [List.map_cons, applyAll_cons, List.filter_cons]
    split
    · exact ih _
    · next hne =>
      rw [← ih]
      exact applyAll_congr (apply_of_ne (by simpa [eq_comm] using hne))

end Change

/-! ### Coalescing -/

open Change List

section Coalesce

variable {α : Type} {g : α → Change κ β} {l : List α} {m : κ → Option β}

/-- The queue has at most one change of every key. -/
def Coalesced (g : α → Change κ β) (l : List α) : Prop := (l.map fun a => (g a).key).Nodup

/-- A new change goes to the end of the queue, and the old one of its key is taken out. -/
def coalesce (g : α → Change κ β) (l : List α) (a : α) : List α := (l.eraseP fun b => (g b).key = (g a).key) ++ [a]

omit [DecidableEq κ] in
omit [DecidableEq κ] in
lemma coalesced_cons {a : α} : Coalesced g (a :: l) ↔ (g a).key ∉ (l.map fun b => (g b).key) ∧ Coalesced g l :=
  nodup_cons

lemma Coalesced.not_mem_eraseP (h : Coalesced g l) (k : κ) :
    k ∉ (l.eraseP fun b => (g b).key = k).map fun b => (g b).key := by
  induction l with
  | nil => exact not_mem_nil
  | cons a l ih =>
    rw [coalesced_cons] at h
    by_cases ha : (g a).key = k
    · rw [eraseP_cons_of_pos (by simpa using ha), ← ha]
      exact h.1
    · rw [eraseP_cons_of_neg (by simpa using ha), map_cons, mem_cons, not_or]
      exact ⟨fun h => ha h.symm, ih h.2⟩

lemma Coalesced.eraseP (h : Coalesced g l) (k : κ) : Coalesced g (l.eraseP fun b => (g b).key = k) :=
  h.sublist (eraseP_sublist.map _)

lemma Coalesced.coalesce (h : Coalesced g l) (a : α) : Coalesced g (coalesce g l a) := by
  rw [Coalesced, Foundation.coalesce, map_append, map_singleton, nodup_append]
  refine ⟨h.eraseP _, nodup_singleton _, ?_⟩
  rintro k hk _ hlast rfl
  rw [mem_singleton] at hlast
  exact h.not_mem_eraseP (g a).key (hlast ▸ hk)

/-- What is in the queue: the new change, and the old ones of the other keys. -/
lemma Coalesced.mem_coalesce (h : Coalesced g l) {a b : α} :
    b ∈ Foundation.coalesce g l a ↔ b = a ∨ b ∈ l ∧ (g b).key ≠ (g a).key := by
  rw [Foundation.coalesce, mem_append, mem_singleton, or_comm]
  refine or_congr_right ⟨fun hb => ⟨mem_of_mem_eraseP hb, fun hkey => ?_⟩, fun ⟨hb, hkey⟩ => ?_⟩
  · exact h.not_mem_eraseP (g a).key (mem_map.mpr ⟨b, hb, hkey⟩)
  · exact (mem_eraseP_of_neg (by simpa using hkey)).mpr hb

lemma applyAll_eraseP (h : Coalesced g l) (k : κ) {k' : κ} (hk : k' ≠ k) :
    applyAll m ((l.eraseP fun b => (g b).key = k).map g) k' = applyAll m (l.map g) k' := by
  induction l generalizing m with
  | nil => rfl
  | cons a l ih =>
    rw [coalesced_cons] at h
    by_cases ha : (g a).key = k
    · rw [eraseP_cons_of_pos (by simpa using ha), map_cons, applyAll_cons]
      have hsame : m k' = (g a).apply m k' := (apply_of_ne (fun h => hk (h.trans ha))).symm
      exact applyAll_congr hsame
    · rw [eraseP_cons_of_neg (by simpa using ha), map_cons, map_cons, applyAll_cons, applyAll_cons]
      exact ih h.2

/-- **Coalescing.** A queue with the change of a key replaced gives what the queue and then the change give. -/
theorem applyAll_coalesce (h : Coalesced g l) (m : κ → Option β) (a : α) :
    applyAll m ((coalesce g l a).map g) = (g a).apply (applyAll m (l.map g)) := by
  funext k
  rw [coalesce, map_append, applyAll_append, map_singleton, applyAll_cons, applyAll_nil]
  by_cases hk : k = (g a).key
  · rw [hk, apply_self, apply_self]
  · rw [apply_of_ne hk, apply_of_ne hk, applyAll_eraseP h (g a).key hk]

end Coalesce

end Foundation
