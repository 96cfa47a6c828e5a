import Mathlib.Data.List.Nodup

/-!
# Chains of cells on a heap

A heap maps pointers to cells, and a cell has a pointer to the next one or a null pointer. `IsChain` says
that a pointer leads to the cells of a list, one after the other, and `IsTable` that this is so for an array of
pointers. What writes of `next` do to them is said here once: cells that are not written keep their chain, a
cell is put in front of a chain, and a cell is taken out of one.
-/

namespace Czmq

open Function List Option

section Chains

variable {α : Type} (next : α → Option ℕ)

/-- A pointer leads to the cells of a list and then ends. -/
def IsChain (heap : ℕ → Option α) : Option ℕ → List ℕ → Prop
  | head, [] => head = none
  | head, p :: l => head = some p ∧ ∃ x, heap p = some x ∧ IsChain heap (next x) l

variable {next} {heap heap' : ℕ → Option α} {head : Option ℕ} {l : List ℕ}

lemma IsChain.congr (h : IsChain next heap head l)
    (hnext : ∀ p ∈ l, (heap' p).map next = (heap p).map next) : IsChain next heap' head l := by
  induction l generalizing head with
  | nil => exact h
  | cons p l ih =>
    obtain ⟨hhead, x, hx, hrest⟩ := h
    have hp := hnext p mem_cons_self
    rw [hx, map_some] at hp
    obtain ⟨x', hx', heq⟩ := map_eq_some_iff.mp hp
    refine ⟨hhead, x', hx', ?_⟩
    rw [heq]
    exact ih hrest fun q hq => hnext q (mem_cons_of_mem _ hq)

lemma IsChain.update (h : IsChain next heap head l) {p : ℕ} (hp : p ∉ l) (x : Option α) :
    IsChain next (update heap p x) head l := by
  refine h.congr fun q hq => ?_
  have hne : q ≠ p := by
    rintro rfl
    exact hp hq
  rw [update_of_ne hne]

lemma IsChain.mem (h : IsChain next heap head l) {p : ℕ} (hp : p ∈ l) : ∃ x, heap p = some x := by
  induction l generalizing head with
  | nil => cases hp
  | cons q l ih =>
    obtain ⟨-, x, hx, hrest⟩ := h
    rcases mem_cons.mp hp with rfl | hp
    · exact ⟨x, hx⟩
    · exact ih hrest hp

lemma IsChain.head_eq (h : IsChain next heap head l) : head = l.head? := by
  cases l with
  | nil => exact h
  | cons p l => exact h.1

lemma IsChain.behind {l1 l2 : List ℕ} {p : ℕ} {x : α} (h : IsChain next heap head (l1 ++ p :: l2))
    (hx : heap p = some x) : IsChain next heap (next x) l2 := by
  induction l1 generalizing head with
  | nil =>
    obtain ⟨-, x', hx', hrest⟩ := h
    obtain rfl := some.inj (hx.symm.trans hx')
    exact hrest
  | cons q l1 ih =>
    obtain ⟨-, _, -, hrest⟩ := h
    exact ih hrest

lemma IsChain.unlink {l1 l2 : List ℕ} {p q : ℕ} {x y' : α}
    (h : IsChain next heap head (l1 ++ q :: p :: l2)) (hnodup : (l1 ++ q :: p :: l2).Nodup)
    (hx : heap p = some x) (hy' : next y' = next x) :
    IsChain next (Function.update heap q (some y')) head (l1 ++ q :: l2) := by
  induction l1 generalizing head with
  | nil =>
    obtain ⟨hhead, _, -, -, x', hx', hrest⟩ := h
    obtain rfl := some.inj (hx.symm.trans hx')
    have hq : q ∉ l2 := fun hmem => (nodup_cons.mp hnodup).1 (mem_cons_of_mem _ hmem)
    exact ⟨hhead, y', update_self _ _ _, by rw [hy']; exact hrest.update hq _⟩
  | cons r l1 ih =>
    obtain ⟨hhead, z, hz, hrest⟩ := h
    have hne : r ≠ q := fun heq => (nodup_cons.mp hnodup).1 (by rw [heq]; simp)
    refine ⟨hhead, z, ?_, ih hrest (nodup_cons.mp hnodup).2⟩
    rw [update_of_ne hne]
    exact hz

end Chains

/-! ### Arrays of chains -/

section Tables

variable {α : Type} (next : α → Option ℕ)

/-- The pointers of an array lead to the cells of lists, which have no cell in common. -/
structure IsTable (heap : ℕ → Option α) (items : ℕ → Option ℕ) (chains : ℕ → List ℕ) : Prop where
  chain : ∀ i, IsChain next heap (items i) (chains i)
  nodup : ∀ i, (chains i).Nodup
  apart : ∀ i j p, p ∈ chains i → p ∈ chains j → i = j

lemma isTable_empty (heap : ℕ → Option α) : IsTable next heap (fun _ => none) fun _ => [] where
  chain _ := rfl
  nodup _ := nodup_nil
  apart _ _ _ h := by cases h

variable {next} {heap heap' : ℕ → Option α} {items : ℕ → Option ℕ} {chains : ℕ → List ℕ}

lemma IsTable.congr (h : IsTable next heap items chains)
    (hnext : ∀ i, ∀ p ∈ chains i, (heap' p).map next = (heap p).map next) : IsTable next heap' items chains where
  chain i := (h.chain i).congr (hnext i)
  nodup := h.nodup
  apart := h.apart

lemma IsTable.push (h : IsTable next heap items chains) {p : ℕ} (hnew : ∀ i, p ∉ chains i) {i : ℕ} {x : α}
    (hx : next x = items i) : IsTable next (update heap p (some x)) (update items i (some p))
      (update chains i (p :: chains i)) where
  chain j := by
    by_cases hj : j = i
    · rw [hj, update_self, update_self]
      exact ⟨rfl, x, update_self _ _ _, by rw [hx]; exact (h.chain i).update (hnew i) _⟩
    · rw [update_of_ne hj, update_of_ne hj]
      exact (h.chain j).update (hnew j) _
  nodup j := by
    by_cases hj : j = i
    · rw [hj, update_self]
      exact nodup_cons.mpr ⟨hnew i, h.nodup i⟩
    · rw [update_of_ne hj]
      exact h.nodup j
  apart j k q hq hq' := by
    have hmem : ∀ m, q ∈ update chains i (p :: chains i) m → (q = p ∧ m = i) ∨ q ∈ chains m :=
      fun m hm => by
        by_cases hmi : m = i
        · rw [hmi, update_self] at hm
          rw [hmi]
          exact (mem_cons.mp hm).imp_left fun heq => ⟨heq, rfl⟩
        · rw [update_of_ne hmi] at hm
          exact .inr hm
    rcases hmem j hq with ⟨rfl, rfl⟩ | hj <;> rcases hmem k hq' with ⟨hqp, rfl⟩ | hk
    · rfl
    · exact absurd hk (hnew k)
    · exact absurd (hqp ▸ hj) (hnew j)
    · exact h.apart j k q hj hk

lemma IsTable.shorten (h : IsTable next heap items chains) {i : ℕ} {head : Option ℕ} {l : List ℕ}
    (hsub : l.Sublist (chains i)) (hchain : IsChain next heap' head l)
    (hnext : ∀ j, j ≠ i → ∀ p ∈ chains j, (heap' p).map next = (heap p).map next) :
    IsTable next heap' (update items i head) (update chains i l) where
  chain j := by
    by_cases hj : j = i
    · rw [hj, update_self, update_self]
      exact hchain
    · rw [update_of_ne hj, update_of_ne hj]
      exact (h.chain j).congr (hnext j hj)
  nodup j := by
    by_cases hj : j = i
    · rw [hj, update_self]
      exact (h.nodup i).sublist hsub
    · rw [update_of_ne hj]
      exact h.nodup j
  apart j k q hq hq' := by
    have hmem : ∀ m, q ∈ update chains i l m → q ∈ chains m := fun m hm => by
      by_cases hmi : m = i
      · rw [hmi, update_self] at hm
        rw [hmi]
        exact hsub.subset hm
      · rwa [update_of_ne hmi] at hm
    exact h.apart j k q (hmem j hq) (hmem k hq')

end Tables

end Czmq
