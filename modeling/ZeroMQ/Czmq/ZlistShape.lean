import ZeroMQ.Czmq.Zlist

/-!
# The shape of a list

The cells of a list are its nodes, each with its item. In a list of the right shape the head leads through the nodes,
one after the other and none twice, to the tail, the size is their number, and no other node is on the heap.
-/

namespace Czmq

open Foundation Function List Prod Except Nat

namespace Zlist

variable {α : Type}

/-! ### Heaps of cells -/

/-- The pointer to the first of some cells. -/
def headOf (cells : List (ℕ × α)) : Option ℕ := (cells.map Prod.fst).head?

/-- The pointer to the last of some cells. -/
def lastOf (cells : List (ℕ × α)) : Option ℕ := (cells.map Prod.fst).getLast?

/-- The heap on which there are only some cells, each of which leads to the next one. -/
def heapOf : List (ℕ × α) → ℕ → Option (ListNode α)
  | [] => fun _ => none
  | (p, x) :: cells => update (heapOf cells) p (some ⟨headOf cells, x⟩)

section Heap

variable {l m m' : List (ℕ × α)} {p q : ℕ} {x y : α}

@[simp] lemma lastOf_concat (l : List (ℕ × α)) (p : ℕ) (x : α) : lastOf (l ++ [(p, x)]) = some p := by
  rw [lastOf, map_append, map_singleton, getLast?_concat]

lemma heapOf_of_notMem (hp : p ∉ l.map fst) : heapOf l p = none := by
  induction l with
  | nil => rfl
  | cons cell l ih =>
    obtain ⟨hne, hrest⟩ := not_or.mp (mem_cons.not.mp hp)
    exact (update_of_ne hne _ _).trans (ih hrest)

lemma heapOf_behind (hq : q ∉ l.map fst) : heapOf (l ++ m) q = heapOf m q := by
  induction l with
  | nil => rfl
  | cons cell l ih =>
    obtain ⟨hne, hrest⟩ := not_or.mp (mem_cons.not.mp hq)
    exact (update_of_ne hne _ _).trans (ih hrest)

lemma heapOf_before (hq : q ∈ l.map fst) (hhead : headOf m = headOf m') :
    heapOf (l ++ m) q = heapOf (l ++ m') q := by
  induction l with
  | nil => cases hq
  | cons cell l ih =>
    obtain ⟨p, x⟩ := cell
    have hnext : headOf (l ++ m) = headOf (l ++ m') := by
      cases l with
      | nil => exact hhead
      | cons cell l => rfl
    change update (heapOf (l ++ m)) p (some ⟨headOf (l ++ m), x⟩) q =
      update (heapOf (l ++ m')) p (some ⟨headOf (l ++ m'), x⟩) q
    rw [hnext, update_apply, update_apply]
    split
    next => rfl
    next hne => exact ih ((mem_cons.mp hq).resolve_left hne)

lemma heapOf_replace {heap : ℕ → Option (ListNode α)} (hhead : headOf m = headOf m')
    (hbefore : ∀ q ∈ l.map fst, heap q = heapOf (l ++ m) q)
    (hbehind : ∀ q, q ∉ l.map fst → heap q = heapOf m' q) : heap = heapOf (l ++ m') := by
  funext q
  by_cases hq : q ∈ l.map fst
  · exact (hbefore q hq).trans (heapOf_before hq hhead)
  · exact (hbehind q hq).trans (heapOf_behind hq).symm

section

variable (h : ((l ++ (p, x) :: m).map Prod.fst).Nodup)

include h

lemma notMem_of_nodup : p ∉ (l ++ m).map fst := by
  rw [map_append, map_cons] at h
  rw [map_append]
  exact (nodup_cons.mp (perm_middle.nodup_iff.mp h)).1

lemma ne_of_nodup (hq : q ∈ l.map fst) : q ≠ p := by
  rintro rfl
  exact notMem_of_nodup h (by rw [map_append]; exact mem_append_left _ hq)

lemma heapOf_eq : heapOf (l ++ (p, x) :: m) p = some ⟨headOf m, x⟩ := by
  rw [heapOf_behind fun hp => ne_of_nodup h hp rfl]
  exact update_self _ _ _

lemma heapOf_set (y : α) :
    update (heapOf (l ++ (p, x) :: m)) p (some ⟨headOf m, y⟩) = heapOf (l ++ (p, y) :: m) := by
  refine heapOf_replace (m := (p, x) :: m) rfl (fun q hq => update_of_ne (ne_of_nodup h hq) _ _) fun q hq => ?_
  change _ = update (heapOf m) p (some ⟨headOf m, y⟩) q
  rw [update_apply, update_apply, heapOf_behind hq]
  split
  next => rfl
  next hne => exact update_of_ne hne _ _

end

lemma heapOf_extend (h : ((l ++ [(q, y), (p, x)]).map fst).Nodup) :
    update (update (heapOf (l ++ [(q, y)])) p (some ⟨none, x⟩)) q (some ⟨some p, y⟩) =
      heapOf (l ++ [(q, y), (p, x)]) := by
  have hp : ∀ r ∈ l.map fst, r ≠ p := fun r hr => by
    rw [append_cons] at h
    exact ne_of_nodup h (by rw [map_append]; exact mem_append_left _ hr)
  refine heapOf_replace (m := [(q, y)]) rfl (fun r hr => ?_) fun r hr => ?_
  · rw [update_of_ne (ne_of_nodup h hr), update_of_ne (hp r hr)]
  change _ = update (update (fun _ => none) p _) q _ r
  rw [update_apply, update_apply, update_apply, update_apply, heapOf_behind hr]
  split
  next => rfl
  next hne => exact if_congr Iff.rfl rfl (update_of_ne hne _ _)

lemma heapOf_unlink (h : ((l ++ (q, y) :: (p, x) :: m).map fst).Nodup) :
    update (update (heapOf (l ++ (q, y) :: (p, x) :: m)) q (some ⟨headOf m, y⟩)) p none =
      heapOf (l ++ (q, y) :: m) := by
  have hsplit := h
  rw [append_cons] at hsplit
  have hp : p ∉ (l ++ [(q, y)] ++ m).map fst := notMem_of_nodup hsplit
  rw [append_assoc, map_append, mem_append, singleton_append, map_cons, mem_cons] at hp
  obtain ⟨hpl, hpq, hpm⟩ : p ∉ l.map fst ∧ p ≠ q ∧ p ∉ m.map fst := by tauto
  refine heapOf_replace (m := (q, y) :: (p, x) :: m) rfl (fun r hr => ?_) fun r hr => ?_
  · rw [update_of_ne (by rintro rfl; exact hpl hr), update_of_ne (ne_of_nodup h hr)]
  change _ = update (heapOf m) q _ r
  rw [update_apply, update_apply, update_apply, heapOf_behind hr]
  split
  next heq => rw [heq, if_neg hpq, heapOf_of_notMem hpm]
  next hne =>
    by_cases hrq : r = q
    · rw [if_pos hrq, if_pos hrq]
    · rw [if_neg hrq, if_neg hrq]
      exact (update_of_ne hrq _ _).trans (update_of_ne hne _ _)

lemma heapOf_free (hp : p ∉ m.map fst) : update (heapOf ((p, x) :: m)) p none = heapOf m := by
  rw [heapOf, update_idem, ← heapOf_of_notMem hp, update_eq_self]

lemma isChain_heapOf (h : (l.map fst).Nodup) : IsChain ListNode.next (heapOf l) (headOf l) (l.map fst) := by
  induction l with
  | nil => rfl
  | cons cell l ih =>
    obtain ⟨hnot, hrest⟩ := nodup_cons.mp h
    exact ⟨rfl, _, update_self _ _ _, (ih hrest).update hnot _⟩

end Heap

/-- The nodes of a list, from the head to the tail, with their items. -/
structure Listed (s : Zlist α) (cells : List (ℕ × α)) : Prop where
  heap : s.heap = heapOf cells
  nodup : (cells.map Prod.fst).Nodup
  head : s.head = headOf cells
  tail : s.tail = lastOf cells
  size : s.size = cells.length
  fresh : ∀ p ∈ cells.map Prod.fst, p < s.fresh

section Listed

variable {s s' : Zlist α} {cells l₁ l₂ : List (ℕ × α)} {p : ℕ} {x : α}

lemma listed_new : Listed (Zlist.new α) [] := ⟨rfl, nodup_nil, rfl, rfl, rfl, fun _ h => by cases h⟩

lemma Listed.node_eq (h : Listed s (l1 ++ (p, x) :: l2)) : s.node p = .ok ⟨headOf l2, x⟩ := by
  rw [Zlist.node, h.heap, heapOf_eq h.nodup]

lemma Listed.itemAt_eq (h : Listed s (l1 ++ l2)) : s.itemAt (headOf l2) = .ok (l2.map snd).head? := by
  cases l2 with
  | nil => rfl
  | cons cell l2 =>
    change (s.node cell.1).map _ = _
    rw [h.node_eq]
    rfl

lemma Listed.nodup_add (h : Listed s (l1 ++ l2)) (x : α) : ((l1 ++ (s.fresh, x) :: l2).map fst).Nodup := by
  rw [(perm_middle.map fst).nodup_iff, map_cons]
  exact nodup_cons.mpr ⟨fun hmem => lt_irrefl _ (h.fresh _ hmem), h.nodup⟩

lemma Listed.add (h : Listed s (l1 ++ l2)) (hheap : s'.heap = heapOf (l1 ++ (s.fresh, x) :: l2))
    (hhead : s'.head = headOf (l1 ++ (s.fresh, x) :: l2)) (htail : s'.tail = lastOf (l1 ++ (s.fresh, x) :: l2))
    (hsize : s'.size = s.size + 1) (hfresh : s'.fresh = s.fresh + 1) : Listed s' (l1 ++ (s.fresh, x) :: l2) := by
  have hperm : (l1 ++ (s.fresh, x) :: l2).Perm ((s.fresh, x) :: (l1 ++ l2)) := perm_middle
  refine ⟨hheap, h.nodup_add x, hhead, htail, ?_, fun q hq => ?_⟩
  · rw [hsize, h.size, hperm.length_eq, length_cons]
  rw [hfresh]
  rcases mem_cons.mp ((hperm.map fst).subset hq) with rfl | hq
  · exact lt_succ_self _
  · exact lt_succ_of_lt (h.fresh q hq)

variable (c : ListHandlers α)

lemma Listed.push (h : Listed s cells) (item : α) :
    ∃ s', s.push c item = (0, s') ∧ Listed s' ((s.fresh, c.duplicate item) :: cells) ∧ s'.cursor = none ∧
      s'.destroyed = s.destroyed := by
  have hall : Listed s ([] ++ cells) := h
  refine ⟨_, rfl, hall.add ?_ rfl ?_ rfl rfl, rfl, rfl⟩
  · change update s.heap s.fresh (some ⟨s.head, _⟩) = _
    rw [h.heap, h.head]
    rfl
  · change (if s.tail = none then some s.fresh else s.tail) = _
    rw [h.tail, lastOf, lastOf, nil_append, map_cons, getLast?_cons]
    cases (cells.map fst).getLast? with
    | none | some t => rfl

lemma Listed.append (h : Listed s cells) (item : α) :
    ∃ s', s.append c item = .ok (0, s') ∧ Listed s' (cells ++ [(s.fresh, c.duplicate item)]) ∧ s'.cursor = none ∧
      s'.destroyed = s.destroyed := by
  have hall : Listed s (cells ++ []) := by rwa [append_nil]
  have hnodup := hall.nodup_add (c.duplicate item)
  rcases eq_nil_or_concat cells with rfl | ⟨l, ⟨t, y⟩, rfl⟩
  · have htail : s.tail = none := h.tail
    simp only [Zlist.append, nodeNew, htail, bind, bind]
    refine ⟨_, rfl, hall.add ?_ rfl rfl rfl rfl, rfl, rfl⟩
    rw [h.heap]
    rfl
  · rw [concat_eq_append] at h hall hnodup ⊢
    have htail : s.tail = some t := h.tail.trans (lastOf_concat l t y)
    have hext := hnodup
    rw [← append_cons] at hext
    have ht : t ≠ s.fresh := ne_of_nodup hnodup (by rw [map_append]; exact mem_append_right _ mem_cons_self)
    have hnode : update s.heap s.fresh (some ⟨none, c.duplicate item⟩) t = some ⟨none, y⟩ := by
      rw [update_of_ne ht, h.heap]
      exact heapOf_eq h.nodup
    simp only [Zlist.append, nodeNew, htail, write, Zlist.node, hnode, bind, bind]
    refine ⟨_, rfl, hall.add ?_ ?_ (lastOf_concat _ _ _).symm rfl rfl, rfl, rfl⟩
    · change update (update s.heap _ _) _ _ = _
      rw [h.heap, heapOf_extend hext, append_cons]
    · change s.head = _
      rw [h.head]
      cases l <;> rfl

/-! ### Taking nodes out -/

lemma Listed.drop (h : Listed s (l1 ++ (p, x) :: l2)) (hheap : s'.heap = heapOf (l1 ++ l2))
    (hhead : s'.head = headOf (l1 ++ l2)) (htail : s'.tail = lastOf (l1 ++ l2)) (hsize : s'.size = s.size - 1)
    (hfresh : s'.fresh = s.fresh) : Listed s' (l1 ++ l2) := by
  have hsub : (l1 ++ l2).Sublist (l1 ++ (p, x) :: l2) := (sublist_cons_self _ _).append_left _
  refine ⟨hheap, h.nodup.sublist (hsub.map _), hhead, htail, ?_, fun q hq => ?_⟩
  · rw [hsize, h.size, length_append, length_append, length_cons]
    rfl
  · rw [hfresh]
    exact h.fresh q ((hsub.map _).subset hq)

lemma Listed.pop (h : Listed s ((p, x) :: cells)) :
    ∃ s', s.pop = .ok (some x, s') ∧ Listed s' cells ∧ s'.cursor = none ∧ s'.destroyed = s.destroyed := by
  have hhead : s.head = some p := h.head
  have hall : Listed s ([] ++ (p, x) :: cells) := h
  have hnot : p ∉ cells.map fst := notMem_of_nodup hall.nodup
  have htail : (if s.tail = some p then none else s.tail) = lastOf cells := by
    rw [h.tail, lastOf, lastOf, map_cons, getLast?_cons]
    cases hlast : (cells.map fst).getLast? with
    | none => exact if_pos rfl
    | some t =>
      refine if_neg fun heq => hnot ?_
      rw [← Option.some.inj heq]
      exact mem_of_getLast? hlast
  simp only [Zlist.pop, hhead, hall.node_eq, bind, bind]
  refine ⟨_, rfl, hall.drop ?_ rfl htail rfl rfl, rfl, rfl⟩
  change update s.heap p none = _
  rw [h.heap, heapOf_free hnot]
  rfl

/-- What is left of a list from which a node has been taken out, the node before it or the head made to lead on. -/
lemma Listed.unlinked (h : Listed s (l1 ++ (p, x) :: l2)) :
    ∃ s1, s.leadOn (lastOf l1) (headOf l2) = .ok s1 ∧ s1.tail = s.tail ∧ s1.cursor = s.cursor ∧ s1.size = s.size ∧
      s1.fresh = s.fresh ∧ s1.destroyed = s.destroyed ∧ s1.head = headOf (l1 ++ l2) ∧
      update s1.heap p none = heapOf (l1 ++ l2) := by
  rcases eq_nil_or_concat l1 with rfl | ⟨l, ⟨q, y⟩, rfl⟩
  · refine ⟨_, rfl, rfl, rfl, rfl, rfl, rfl, rfl, ?_⟩
    rw [h.heap]
    exact heapOf_free (notMem_of_nodup h.nodup)
  · rw [concat_eq_append] at h ⊢
    rw [← append_cons] at h ⊢
    rw [lastOf_concat]
    simp only [leadOn, write, h.node_eq, bind, bind]
    refine ⟨_, rfl, rfl, rfl, rfl, rfl, rfl, ?_, ?_⟩
    · change s.head = _
      rw [h.head]
      cases l <;> rfl
    · change update (update s.heap q _) p none = _
      rw [h.heap]
      exact heapOf_unlink h.nodup

variable [DecidableEq α]

omit c in
lemma find_spec {item : α} (fuel : ℕ) (h : Listed s (l1 ++ l2)) (habsent : item ∉ l1.map snd)
    (hfuel : l2.length ≤ fuel) :
    (item ∉ (l1 ++ l2).map snd ∧ s.find item fuel (lastOf l1) (headOf l2) = .ok none) ∨
      ∃ l p l', l1 ++ l2 = l ++ (p, item) :: l' ∧ item ∉ l.map snd ∧
        s.find item fuel (lastOf l1) (headOf l2) = .ok (some (lastOf l, p, ⟨headOf l', item⟩)) := by
  induction l2 generalizing l1 fuel with
  | nil =>
    refine .inl ⟨by rwa [append_nil], ?_⟩
    cases fuel <;> rfl
  | cons cell l2 ih =>
    obtain ⟨q, y⟩ := cell
    cases fuel with
    | zero => exact absurd hfuel (not_succ_le_zero _)
    | succ fuel =>
      change (_ ∧ s.find item (fuel + 1) (lastOf l1) (some q) = _) ∨
        ∃ l p l', _ ∧ _ ∧ s.find item (fuel + 1) (lastOf l1) (some q) = _
      simp only [find, h.node_eq, bind, Except.bind]
      by_cases hitem : y = item
      · rw [if_pos hitem, hitem]
        exact .inr ⟨l1, q, l2, rfl, habsent, rfl⟩
      rw [if_neg hitem, ← lastOf_concat l1 q y, append_cons]
      rw [append_cons] at h
      refine ih fuel h (fun hmem => ?_) (le_of_succ_le_succ hfuel)
      rw [map_append, map_singleton, mem_append, mem_singleton] at hmem
      exact hmem.elim habsent fun heq => hitem heq.symm

/-- The first node with an item is taken out, if there is one; a cursor at the node goes to the one before it. -/
lemma Listed.remove (h : Listed s cells) (item : α) :
    (item ∉ cells.map snd ∧ s.remove c item = .ok s) ∨
      ∃ l p l' s', cells = l ++ (p, item) :: l' ∧ item ∉ l.map snd ∧ s.remove c item = .ok s' ∧
        Listed s' (l ++ l') ∧ s'.cursor = (if s.cursor = some p then lastOf l else s.cursor) ∧
        s'.destroyed = s.destroyed ++ c.destroy [item] := by
  have hall : Listed s ([] ++ cells) := h
  have habsent : item ∉ ([] : List (ℕ × α)).map snd := not_mem_nil
  have hfind := find_spec s.size hall habsent h.size.ge
  have hnone : lastOf ([] : List (ℕ × α)) = none := rfl
  rw [nil_append, hnone, ← h.head] at hfind
  rcases hfind with ⟨hnot, hfind⟩ | ⟨l, p, l', rfl, hnot, hfind⟩
  · exact .inl ⟨hnot, by simp only [Zlist.remove, hfind, bind, Except.bind]⟩
  obtain ⟨s1, hok, htail, hcursor, hsize, hfresh, hdestroyed, hhead, hheap⟩ := h.unlinked
  simp only [Zlist.remove, hfind, hok, bind, Except.bind, hcursor, hdestroyed, hsize, htail]
  refine .inr ⟨l, p, l', _, rfl, hnot, rfl, h.drop hheap hhead ?_ rfl hfresh, rfl, rfl⟩
  change (if headOf l' = none then lastOf l else s.tail) = _
  rw [h.tail]
  cases l' with
  | nil =>
    rw [append_nil]
    exact if_pos rfl
  | cons cell l' =>
    refine (if_neg (Option.some_ne_none cell.1)).trans ?_
    rw [lastOf, lastOf, map_append, map_append, map_cons, map_cons, getLast?_append_cons,
      getLast?_append_cons]
    rfl

end Listed

end Zlist

end Czmq
