import Mathlib.Data.List.Basic

/-!
# Blocks of memory of a fixed size

A block has a fixed number of cells. Storing and loading are checked: an access that does not lie
inside the block gives nothing. What a block held before it was first written is arbitrary, so the
lemmas are about the part of it that is known, its first cells.
-/

namespace Foundation

open List

variable {α : Type}

/-- A block of `n` cells. -/
structure Block (α : Type) (n : ℕ) where
  cells : List α
  length_eq : cells.length = n

namespace Block

variable {n : ℕ}

/-- Store values from a position on. -/
def store (b : Block α n) (pos : ℕ) (data : List α) : Option (Block α n) :=
  if h : pos + data.length ≤ n then
    some ⟨b.cells.take pos ++ data ++ b.cells.drop (pos + data.length), by
      have := b.length_eq
      simp only [List.length_append, List.length_take, List.length_drop]
      omega⟩
  else none

/-- Load a number of values from a position on. -/
def load (b : Block α n) (pos len : ℕ) : Option (List α) :=
  if pos + len ≤ n then some ((b.cells.drop pos).take len) else none

/-- The value of a cell. -/
def get (b : Block α n) (i : Fin n) : α := b.cells.get (i.cast b.length_eq.symm)

variable {b : Block α n} {pre old post : List α}

lemma store_of_eq (hb : b.cells = pre ++ old ++ post)
    (data : List α) (hlen : data.length = old.length) :
    ∃ b', b.store pre.length data = some b' ∧ b'.cells = pre ++ data ++ post := by
  have hn := b.length_eq
  rw [hb, length_append, length_append] at hn
  have hle : pre.length + data.length ≤ n := by omega
  refine ⟨_, dif_pos hle, ?_⟩
  have htake : b.cells.take pre.length = pre := by
    rw [hb, append_assoc, take_left]
  have hdrop : b.cells.drop (pre.length + data.length) = post := by
    rw [hb, hlen, ← length_append, drop_left]
  simp only [htake, hdrop]

lemma store_append (hb : pre <+: b.cells) (data : List α)
    (hfits : pre.length + data.length ≤ n) :
    ∃ b', b.store pre.length data = some b' ∧ pre ++ data <+: b'.cells := by
  obtain ⟨rest, hrest⟩ := hb
  have hn := b.length_eq
  rw [← hrest, length_append] at hn
  have hcut : b.cells = pre ++ rest.take data.length ++ rest.drop data.length := by
    rw [append_assoc, take_append_drop, hrest]
  obtain ⟨b', hstore, hb'⟩ := store_of_eq hcut data (by rw [length_take]; omega)
  exact ⟨b', hstore, rest.drop data.length, hb'.symm⟩

lemma load_of_isPrefix (hb : pre <+: b.cells) {pos len : ℕ}
    (hlen : pos + len ≤ pre.length) : b.load pos len = some ((pre.drop pos).take len) := by
  obtain ⟨rest, hrest⟩ := hb
  have hn := b.length_eq
  rw [← hrest, length_append] at hn
  rw [load, if_pos (by omega), ← hrest, drop_append_of_le_length (by omega),
    take_append_of_le_length (by rw [length_drop]; omega)]

lemma get_of_isPrefix (hb : pre <+: b.cells) {i : Fin n}
    (hi : i.val < pre.length) : pre[i.val]? = some (b.get i) := by
  obtain ⟨rest, hrest⟩ := hb
  have hcell : b.cells[i.val]? = some (b.get i) := by
    rw [getElem?_eq_getElem (by rw [b.length_eq]; exact i.isLt)]
    rfl
  rw [← hcell, ← hrest, getElem?_append_left hi]

end Block

end Foundation
