import Mathlib.Data.List.Nodup

/-!
# Rings of cells

The cells of a ring lead to each other in both directions, through a head that is in the ring but not of it.
`IsRing` says that this is so for the cells of a list. Where the list is cut in two there is a gap between two
cells that lead to each other, of which one may be the head. A cell is put into a gap, or taken out again, by
writing two pointers.
-/

namespace Czmq

open List

/-- From the head, `next` leads through the cells of a list back to the head, and `prev` leads the other way. -/
structure IsRing (next prev : ℕ → Option ℕ) (head : ℕ) (l : List ℕ) : Prop where
  nodup : (head :: l).Nodup
  next : (head :: l).map next = (l ++ [head]).map some
  prev : (l ++ [head]).map prev = (head :: l).map some

section Rings

variable {next prev next' prev' : ℕ → Option ℕ} {head x y q : ℕ} {l l₁ l₂ A B : List ℕ}

lemma isRing_nil (hnext : next head = some head) (hprev : prev head = some head) : IsRing next prev head [] where
  nodup := nodup_singleton head
  next := congrArg (fun n => [n]) hnext
  prev := congrArg (fun n => [n]) hprev

/-! ### Gaps -/

/-- The gap between two parts of a ring is between `x` and `y`; `A` and `B` are the other cells, with the head at
the start of the first part and at the end of the second. -/
structure Gap (head : ℕ) (l₁ l₂ A : List ℕ) (x y : ℕ) (B : List ℕ) : Prop where
  left : head :: l₁ = A ++ [x]
  right : l₂ ++ [head] = y :: B

lemma gap (head : ℕ) (l1 l2 : List ℕ) :
    Gap head l1 l2 (head :: l1).dropLast (l1.getLastD head) (l2.headD head) (l2 ++ [head]).tail where
  left := by
    rw [← getLast_eq_getLastD (cons_ne_nil head l1)]
    exact (dropLast_append_getLast _).symm
  right := by
    cases l2 with
    | nil | cons y l2 => rfl

lemma Gap.behind (h : Gap head l1 l2 A x y B) (q : ℕ) : Gap head (l1 ++ [q]) l2 (A ++ [x]) q y B where
  left := by rw [← cons_append, h.left]
  right := h.right

lemma gap_ne (hq : q ∉ head :: (l1 ++ l2)) : l1.getLastD head ≠ q ∧ l2.headD head ≠ q := by
  constructor
  · intro heq
    have hmem : l1.getLastD head ∈ head :: l1 := getLastD_mem_cons
    rw [heq, mem_cons] at hmem
    exact hq (mem_cons.mpr (hmem.imp_right (mem_append_left _)))
  · intro heq
    refine hq ?_
    rw [← heq]
    cases l2 with
    | nil => exact mem_cons_self
    | cons y l2 => exact mem_cons_of_mem _ (mem_append_right _ mem_cons_self)

/-- Pointers follow a list with an element singled out exactly if they do so on both sides of it and at it. -/
lemma map_split_iff {f : ℕ → Option ℕ} {l m l' m' : List ℕ} {x y : ℕ} (hlength : l.length = l'.length) :
    (l ++ x :: m).map f = (l' ++ y :: m').map some ↔
      l.map f = l'.map some ∧ f x = some y ∧ m.map f = m'.map some := by
  rw [map_append, map_append, map_cons, map_cons]
  constructor
  · intro heq
    obtain ⟨hfirst, hrest⟩ := append_inj heq (by rw [length_map, length_map, hlength])
    exact ⟨hfirst, cons.inj hrest⟩
  · rintro ⟨hfirst, hx, hrest⟩
    rw [hfirst, hx, hrest]

lemma Gap.isRing_iff (h : Gap head l1 l2 A x y B) :
    IsRing next prev head (l1 ++ l2) ↔ (head :: (l1 ++ l2)).Nodup ∧
      (A.map next = l1.map some ∧ next x = some y ∧ l2.map next = B.map some) ∧
      l1.map prev = A.map some ∧ prev y = some x ∧ B.map prev = l2.map some := by
  have hA : A.length = l1.length := by
    have hlength := congrArg length h.left
    rw [length_cons, length_append, length_singleton] at hlength
    exact (Nat.succ.inj hlength).symm
  have hstart : head :: (l1 ++ l2) = A ++ x :: l2 := by
    rw [← cons_append, h.left, append_assoc, singleton_append]
  have hend : l1 ++ l2 ++ [head] = l1 ++ y :: B := by rw [append_assoc, h.right]
  have hnext : (head :: (l1 ++ l2)).map next = (l1 ++ l2 ++ [head]).map some ↔
      A.map next = l1.map some ∧ next x = some y ∧ l2.map next = B.map some := by
    rw [hstart, hend, map_split_iff hA]
  have hprev : (l1 ++ l2 ++ [head]).map prev = (head :: (l1 ++ l2)).map some ↔
      l1.map prev = A.map some ∧ prev y = some x ∧ B.map prev = l2.map some := by
    rw [hstart, hend, map_split_iff hA.symm]
  rw [← hnext, ← hprev]
  exact ⟨fun h => ⟨h.nodup, h.next, h.prev⟩, fun ⟨hnodup, hnext, hprev⟩ => ⟨hnodup, hnext, hprev⟩⟩

lemma IsRing.at_gap (h : IsRing next prev head (l1 ++ l2)) :
    next (l1.getLastD head) = some (l2.headD head) ∧ prev (l2.headD head) = some (l1.getLastD head) := by
  obtain ⟨-, ⟨-, hnext, -⟩, -, hprev, -⟩ := (gap head l1 l2).isRing_iff.mp h
  exact ⟨hnext, hprev⟩

lemma Gap.notMem (h : Gap head l1 l2 A x y B) (hnodup : (head :: (l1 ++ l2)).Nodup) :
    x ∉ A ∧ x ∉ l2 ∧ y ∉ l1 ∧ y ∉ B := by
  have hstart : (A ++ x :: l2).Nodup := by
    have heq : A ++ x :: l2 = head :: (l1 ++ l2) := by
      rw [← cons_append, h.left, append_assoc, singleton_append]
    rwa [heq]
  have hend : (l1 ++ y :: B).Nodup := by
    have heq : l1 ++ y :: B = l1 ++ l2 ++ [head] := by rw [append_assoc, h.right]
    rw [heq]
    exact (perm_append_singleton head (l1 ++ l2)).nodup_iff.mpr hnodup
  obtain ⟨-, hx, hA⟩ := nodup_append'.mp hstart
  obtain ⟨-, hy, hl1⟩ := nodup_append'.mp hend
  exact ⟨fun hmem => hA hmem mem_cons_self, (nodup_cons.mp hx).1,
    fun hmem => hl1 hmem mem_cons_self, (nodup_cons.mp hy).1⟩

/-- The cells of the other gaps keep their pointers if those at a gap are written, and that of a cell that is not
in the ring. -/
lemma Gap.congr (h : Gap head l1 l2 A x y B) (hnodup : (head :: (l1 ++ l2)).Nodup) (hq : q ∉ head :: (l1 ++ l2))
    (hnext : ∀ z, z ≠ x → z ≠ q → next' z = next z) (hprev : ∀ z, z ≠ y → z ≠ q → prev' z = prev z) :
    (A.map next' = A.map next ∧ l2.map next' = l2.map next) ∧ l1.map prev' = l1.map prev ∧
      B.map prev' = B.map prev := by
  obtain ⟨hxA, hxl2, hyl1, hyB⟩ := h.notMem hnodup
  have hsame : ∀ {f f' : ℕ → Option ℕ} {l : List ℕ} {z : ℕ}, (∀ p, p ≠ z → p ≠ q → f' p = f p) → z ∉ l →
      (∀ p ∈ l, p ∈ head :: (l1 ++ l2)) → l.map f' = l.map f := fun hf hz hl => map_congr_left fun p hp =>
    hf p (fun heq => hz (heq ▸ hp)) fun heq => hq (heq ▸ hl p hp)
  have hA : ∀ p ∈ A, p ∈ head :: (l1 ++ l2) := fun p hp => by
    rw [← cons_append, h.left]
    exact mem_append_left _ (mem_append_left _ hp)
  have hB : ∀ p ∈ B, p ∈ head :: (l1 ++ l2) := fun p hp => by
    have hend : p ∈ l2 ++ [head] := by
      rw [h.right]
      exact mem_cons_of_mem _ hp
    rcases mem_append.mp hend with hmem | hmem
    · exact mem_cons_of_mem _ (mem_append_right _ hmem)
    · exact mem_cons.mpr (.inl (mem_singleton.mp hmem))
  exact ⟨⟨hsame hnext hxA hA, hsame hnext hxl2 fun p hp => mem_cons_of_mem _ (mem_append_right _ hp)⟩,
    hsame hprev hyl1 fun p hp => mem_cons_of_mem _ (mem_append_left _ hp), hsame hprev hyB hB⟩

lemma nodup_middle : (head :: (l1 ++ q :: l2)).Nodup ↔ q ∉ head :: (l1 ++ l2) ∧ (head :: (l1 ++ l2)).Nodup := by
  rw [← nodup_cons]
  exact ((perm_middle.cons head).trans (.swap q head _)).nodup_iff

lemma IsRing.insert (h : IsRing next prev head (l1 ++ l2)) (hq : q ∉ head :: (l1 ++ l2))
    (hx : next' (l1.getLastD head) = some q) (hqnext : next' q = some (l2.headD head))
    (hnext : ∀ z, z ≠ l1.getLastD head → z ≠ q → next' z = next z)
    (hy : prev' (l2.headD head) = some q) (hqprev : prev' q = some (l1.getLastD head))
    (hprev : ∀ z, z ≠ l2.headD head → z ≠ q → prev' z = prev z) :
    IsRing next' prev' head (l1 ++ q :: l2) := by
  have hgap := gap head l1 l2
  obtain ⟨hnodup, ⟨hA, -, hl2⟩, hl1, -, hB⟩ := hgap.isRing_iff.mp h
  obtain ⟨⟨hA', hl2'⟩, hl1', hB'⟩ := hgap.congr hnodup hq hnext hprev
  have hring : IsRing next' prev' head (l1 ++ [q] ++ l2) := by
    refine (hgap.behind q).isRing_iff.mpr ⟨?_, ⟨?_, hqnext, hl2'.trans hl2⟩, ?_, hy, hB'.trans hB⟩
    · rw [append_assoc, singleton_append]
      exact nodup_middle.mpr ⟨hq, hnodup⟩
    · rw [map_append, map_append, hA', hA, map_singleton, map_singleton, hx]
    · rw [map_append, map_append, hl1', hl1, map_singleton, map_singleton, hqprev]
  rwa [append_assoc, singleton_append] at hring

lemma IsRing.remove (h : IsRing next prev head (l1 ++ q :: l2))
    (hx : next' (l1.getLastD head) = some (l2.headD head))
    (hnext : ∀ z, z ≠ l1.getLastD head → z ≠ q → next' z = next z)
    (hy : prev' (l2.headD head) = some (l1.getLastD head))
    (hprev : ∀ z, z ≠ l2.headD head → z ≠ q → prev' z = prev z) : IsRing next' prev' head (l1 ++ l2) := by
  have hgap := gap head l1 l2
  obtain ⟨hq, hnodup⟩ := nodup_middle.mp h.nodup
  obtain ⟨⟨hA', hl2'⟩, hl1', hB'⟩ := hgap.congr hnodup hq hnext hprev
  rw [← singleton_append, ← append_assoc] at h
  obtain ⟨-, ⟨hA, -, hl2⟩, hl1, -, hB⟩ := (hgap.behind q).isRing_iff.mp h
  rw [map_append, map_append] at hA hl1
  have hlength : (head :: l1).dropLast.length = l1.length := by rw [length_dropLast, length_cons]; rfl
  refine hgap.isRing_iff.mpr ⟨hnodup, ⟨?_, hx, hl2'.trans hl2⟩, ?_, hy, hB'.trans hB⟩
  · exact hA'.trans (append_inj_left hA (by rw [length_map, length_map, hlength]))
  · exact hl1'.trans (append_inj_left hl1 (by rw [length_map, length_map, hlength]))

lemma IsRing.next_mem (h : IsRing next prev head l) (hx : x ∈ head :: l) : ∃ y ∈ head :: l, next x = some y := by
  have hmem : next x ∈ (l ++ [head]).map some := h.next ▸ mem_map_of_mem hx
  obtain ⟨y, hy, hnext⟩ := mem_map.mp hmem
  exact ⟨y, (perm_append_singleton head l).subset hy, hnext.symm⟩

lemma path_unique (hl : (x :: l1).map next = (l1 ++ [head]).map some)
    (hl' : (x :: l2).map next = (l2 ++ [head]).map some) (h1 : head ∉ l1) (h2 : head ∉ l2) : l1 = l2 := by
  induction l1 generalizing x l2 with
  | nil =>
    have hx : next x = some head := (cons.inj hl).1
    cases l2 with
    | nil => rfl
    | cons y l2 =>
      have hy : next x = some y := (cons.inj hl').1
      obtain rfl : head = y := Option.some.inj (hx.symm.trans hy)
      exact absurd mem_cons_self h2
  | cons y l1 ih =>
    obtain ⟨hy, hrest⟩ := cons.inj hl
    cases l2 with
    | nil =>
      have hx : next x = some head := (cons.inj hl').1
      obtain rfl : y = head := Option.some.inj (hy.symm.trans hx)
      exact absurd mem_cons_self h1
    | cons z l2 =>
      obtain ⟨hz, hrest'⟩ := cons.inj hl'
      obtain rfl : y = z := Option.some.inj (hy.symm.trans hz)
      rw [ih hrest hrest' (fun h => h1 (mem_cons_of_mem _ h)) fun h => h2 (mem_cons_of_mem _ h)]

lemma IsRing.unique (h1 : IsRing next prev head l1) (h2 : IsRing next prev' head l2) : l1 = l2 :=
  path_unique h1.next h2.next (nodup_cons.mp h1.nodup).1 (nodup_cons.mp h2.nodup).1

end Rings

end Czmq
