import ZeroMQ.Czmq.ZlistRefine
import ZeroMQ.Czmq.ZringSort
import ZeroMQ.Foundation.CombSort

/-!
# Sorting a list

`zlist_sort` is a comb sort: two pointers go through the list, one some nodes ahead of the other, and the items at them
are swapped if they are out of order. The division of the gap by 1.247330950103979 is `shrink`, as for a ring.
-/

namespace Czmq

open Foundation List Nat Prod

namespace Zlist

variable {α : Type}

/-! ### The sort -/

/-- The loop that puts the second pointer ahead. -/
def jump (s : Zlist α) : ℕ → Option ℕ → Except CzmqFault (Option ℕ)
  | 0, p => .ok p
  | _ + 1, none => .error .dangling
  | n + 1, some p => do
    let x ← s.node p
    s.jump n x.next

section Steps

variable (compare : α → α → Bool)

/-- The items of two nodes are swapped, if the first is greater. -/
def swapItems (s : Zlist α) (base test : ℕ) (swapped : Bool) : Except CzmqFault (Bool × Zlist α) := do
  let x ← s.node base
  let y ← s.node test
  if compare x.item y.item then do
    let s ← s.write base fun z => { z with item := y.item }
    let s ← s.write test fun z => { z with item := x.item }
    .ok (true, s)
  else .ok (swapped, s)

/-- The loop over the pairs of nodes. -/
def sortPass : ℕ → Zlist α → Option ℕ → Option ℕ → Bool → Except CzmqFault (Bool × Zlist α)
  | fuel + 1, s, some base, some test, swapped => do
    let (swapped, s) ← s.swapItems compare base test swapped
    let x ← s.node base
    let y ← s.node test
    sortPass fuel s x.next y.next swapped
  | 0, _, some _, some _, _ => .error .endless
  | _, s, _, _, swapped => .ok (swapped, s)

variable (shrink : ℕ → ℕ)

/-- The loop over the gaps. The gap is a `size_t` and the number of jumps an `int` that is counted down to zero, so
it is the gap modulo 2^32. -/
def sortLoop : ℕ → Zlist α → ℕ → Bool → Except CzmqFault (Zlist α)
  | 0, s, gap, swapped => if gap > 1 ∨ swapped then .error .endless else .ok s
  | fuel + 1, s, gap, swapped =>
    if gap > 1 ∨ swapped then do
      let gap := if gap > 1 then shrink gap else gap
      let test ← s.jump (gap % 2 ^ 32) s.head
      let (swapped, s) ← sortPass compare s.size s s.head test false
      sortLoop fuel s gap swapped
    else .ok s

/-- `zlist_sort`, with a bound for the number of passes. -/
def sort (fuel : ℕ) (s : Zlist α) : Except CzmqFault (Zlist α) := sortLoop compare shrink fuel s s.size false

end Steps

/-! ### What it does -/

section Effect

variable {s : Zlist α} {r : ItemList α} {cells cells' l l₁ l₂ window rest : List (ℕ × α)} {p q : ℕ} {x y : α}

lemma Listed.reorder (h : Listed s cells) (hnodes : cells'.map fst = cells.map fst) :
    Listed { s with heap := heapOf cells' } cells' := by
  have hlength : cells'.length = cells.length := by rw [← length_map, hnodes, length_map]
  refine ⟨rfl, ?_, ?_, ?_, h.size.trans hlength.symm, ?_⟩
  · rw [hnodes]
    exact h.nodup
  · rw [headOf, hnodes]
    exact h.head
  · rw [lastOf, hnodes]
    exact h.tail
  · rw [hnodes]
    exact h.fresh

lemma Listed.setItem (h : Listed s (l1 ++ (p, x) :: l2)) (y : α) :
    s.write p (fun z => { z with item := y }) = .ok { s with heap := heapOf (l1 ++ (p, y) :: l2) } := by
  rw [write, h.node_eq, ← heapOf_set h.nodup, ← h.heap]
  rfl

lemma Listed.jump (h : Listed s (l1 ++ l2)) (n : ℕ) (hn : n ≤ l2.length) :
    s.jump n (headOf l2) = .ok (headOf (l2.drop n)) := by
  induction n generalizing l1 l2 with
  | zero => rfl
  | succ n ih =>
    cases l2 with
    | nil => exact absurd hn (not_succ_le_zero n)
    | cons cell l2 =>
      have hnode := h.node_eq
      rw [append_cons] at h
      change (s.node cell.1).bind (fun z => s.jump n z.next) = _
      rw [hnode]
      exact ih h (le_of_succ_le_succ hn)

variable {compare : α → α → Bool}

lemma Listed.swapItems (h : Listed s (l ++ (p, x) :: window ++ (q, y) :: rest)) (swapped : Bool) :
    s.swapItems compare p q swapped = .ok (if compare x y then
      (true, { s with heap := heapOf (l ++ (p, y) :: window ++ (q, x) :: rest) }) else (swapped, s)) := by
  have hq := h.node_eq
  have hnodes : (l ++ (p, y) :: window ++ (q, y) :: rest).map fst =
      (l ++ (p, x) :: window ++ (q, y) :: rest).map fst := by
    simp only [map_append, map_cons]
  have hset := (h.reorder hnodes).setItem x
  have hassoc : ∀ z, l ++ (p, z) :: window ++ (q, y) :: rest = l ++ (p, z) :: (window ++ (q, y) :: rest) :=
    fun z => append_assoc _ _ _
  rw [hassoc] at h
  have hwrite := h.setItem y
  rw [← hassoc] at hwrite
  rw [Zlist.swapItems, h.node_eq, hq]
  change (if compare x y then _ else _) = _
  split
  · rw [hwrite]
    change Except.bind (Zlist.write _ q _) _ = _
    rw [hset]
    rfl
  · rfl

lemma Listed.sortPass (hirrefl : ∀ x, compare x x = false) (fuel : ℕ) (h : Listed s (l ++ window ++ rest))
    (hfuel : rest.length ≤ fuel) (swapped : Bool) :
    ∃ cells, cells.map fst = (l ++ window ++ rest).map fst ∧
      cells.map snd = l.map snd ++ (combPass compare (window.map snd) (rest.map snd)).1 ∧
      Zlist.sortPass compare fuel s (headOf (window ++ rest)) (headOf rest) swapped =
        .ok (swapped || (combPass compare (window.map snd) (rest.map snd)).2,
          { s with heap := heapOf cells }) := by
  induction rest generalizing s l window fuel swapped with
  | nil =>
    refine ⟨l ++ window, by rw [append_nil], map_append, ?_⟩
    rw [map_nil, combPass, Bool.or_false, ← append_nil (l ++ window), ← h.heap]
    cases fuel <;> cases headOf (window ++ []) <;> rfl
  | cons cell rest ih =>
    obtain ⟨q, y⟩ := cell
    cases fuel with
    | zero => exact absurd hfuel (not_succ_le_zero _)
    | succ fuel =>
      have hrest := le_of_succ_le_succ hfuel
      cases window with
      | nil =>
        -- The item is compared with itself.
        rw [append_nil] at h ⊢
        have hnode := h.node_eq
        have hnext : Listed s (l ++ [(q, y)] ++ [] ++ rest) := by rwa [append_nil, append_assoc]
        obtain ⟨cells, hfst, hsnd, hok⟩ := ih fuel hnext hrest swapped
        refine ⟨cells, ?_, ?_, ?_⟩
        · rw [hfst, append_nil, append_assoc]
          rfl
        · rw [hsnd, map_append, append_assoc]
          rfl
        · change Zlist.sortPass compare (fuel + 1) s (some q) (some q) swapped = _
          have hswap : s.swapItems compare q q swapped = .ok (swapped, s) := by
            rw [Zlist.swapItems, hnode]
            exact if_neg (Bool.eq_false_iff.mp (hirrefl y))
          simp only [Zlist.sortPass, hswap, hnode, bind, Except.bind]
          exact hok
      | cons cell window =>
        obtain ⟨p, x⟩ := cell
        have hswap : s.swapItems compare p q swapped = _ := h.swapItems swapped
        -- What the rest of the pass does, with the items that are at the two nodes then.
        have hgo : ∀ (a b : α) (s' : Zlist α), Listed s' (l ++ (p, a) :: window ++ (q, b) :: rest) → ∀ swapped,
            ∃ cells, cells.map fst = (l ++ (p, a) :: window ++ (q, b) :: rest).map fst ∧
              cells.map snd = l.map snd ++
                a :: (combPass compare (window.map snd ++ [b]) (rest.map snd)).1 ∧
              (do
                let x ← s'.node p
                let y ← s'.node q
                Zlist.sortPass compare fuel s' x.next y.next swapped) =
                .ok (swapped || (combPass compare (window.map snd ++ [b]) (rest.map snd)).2,
                  { s' with heap := heapOf cells }) := by
          intro a b s' h' swapped
          have hq := h'.node_eq
          have hsplit : l ++ (p, a) :: window ++ (q, b) :: rest = l ++ [(p, a)] ++ (window ++ [(q, b)]) ++ rest := by
            simp only [append_assoc, cons_append, nil_append]
          have hnext := h'
          rw [hsplit] at hnext
          obtain ⟨cells, hfst, hsnd, hok⟩ := ih fuel hnext hrest swapped
          rw [append_assoc] at h'
          have hp := h'.node_eq
          rw [map_append, map_append, map_singleton, map_singleton, append_assoc] at hsnd
          rw [map_append, map_singleton, append_assoc] at hok
          refine ⟨cells, hfst.trans (by rw [hsplit]), hsnd, ?_⟩
          rw [hp, hq]
          exact hok
        by_cases hgreater : compare x y = true
        · rw [if_pos hgreater] at hswap
          have hnodes : (l ++ (p, y) :: window ++ (q, x) :: rest).map fst =
              (l ++ (p, x) :: window ++ (q, y) :: rest).map fst := by
            simp only [map_append, map_cons]
          obtain ⟨cells, hfst, hsnd, hok⟩ := hgo y x _ (h.reorder hnodes) true
          refine ⟨cells, hfst.trans hnodes, ?_, ?_⟩
          · rw [hsnd, map_cons, map_cons, combPass, if_pos hgreater]
          · change Zlist.sortPass compare (fuel + 1) s (some p) (some q) swapped = _
            rw [Zlist.sortPass, hswap, map_cons, map_cons, combPass, if_pos hgreater, Bool.or_true]
            exact hok
        · rw [if_neg hgreater] at hswap
          obtain ⟨cells, hfst, hsnd, hok⟩ := hgo x y s h swapped
          refine ⟨cells, hfst, ?_, ?_⟩
          · rw [hsnd, map_cons, map_cons, combPass, if_neg hgreater]
          · change Zlist.sortPass compare (fuel + 1) s (some p) (some q) swapped = _
            rw [Zlist.sortPass, hswap, map_cons, map_cons, combPass, if_neg hgreater]
            exact hok

variable {shrink : ℕ → ℕ}

lemma Listed.sortLoop (hirrefl : ∀ x, compare x x = false) (hshrink : ∀ g, 2 ≤ g → 1 ≤ shrink g ∧ shrink g < g)
    {fuel gap : ℕ} {swapped : Bool} {items : List α} (h : Listed s cells) (hgap : gap ≤ cells.length)
    (hsort : combSort compare shrink (fun gap => gap % 2 ^ 32) fuel gap swapped (cells.map snd) = some items) :
    ∃ cells', cells'.map fst = cells.map fst ∧ cells'.map snd = items ∧
      Zlist.sortLoop compare shrink fuel s gap swapped = .ok { s with heap := heapOf cells' } := by
  induction fuel generalizing s cells gap swapped with
  | zero =>
    rw [combSort] at hsort
    split at hsort
    next => cases hsort
    next hloop => exact ⟨cells, rfl, Option.some.inj hsort, by rw [← h.heap]; exact if_neg hloop⟩
  | succ fuel ih =>
    rw [combSort] at hsort
    split at hsort
    next hloop =>
      dsimp only at hsort
      rw [Zlist.sortLoop, if_pos hloop]
      dsimp only
      have hless : (if gap > 1 then shrink gap else gap) ≤ gap := by
        split
        next hlarge => exact (hshrink gap hlarge).2.le
        next => exact le_rfl
      generalize (if gap > 1 then shrink gap else gap) = gap' at hsort hless ⊢
      have hjump : gap' % 2 ^ 32 ≤ cells.length := (mod_le _ _).trans (hless.trans hgap)
      have hall : Listed s ([] ++ cells) := h
      have hparts : Listed s ([] ++ cells.take (gap' % 2 ^ 32) ++ cells.drop (gap' % 2 ^ 32)) := by
        rwa [nil_append, take_append_drop]
      obtain ⟨cells1, hfst, hsnd, hpass⟩ := hparts.sortPass hirrefl s.size (by
        rw [h.size, length_drop]
        omega) false
      rw [take_append_drop] at hpass
      rw [nil_append, take_append_drop] at hfst
      rw [map_nil, nil_append] at hsnd
      rw [← map_take, ← map_drop, ← hsnd] at hsort
      rw [Bool.false_or] at hpass
      have hlength : cells1.length = cells.length := by rw [← length_map, hfst, length_map]
      obtain ⟨cells', hfst', hsnd', hok⟩ := ih (h.reorder hfst) (by omega) hsort
      refine ⟨cells', hfst'.trans hfst, hsnd', ?_⟩
      have hjumped := hall.jump _ hjump
      rw [← h.head] at hjumped hpass
      rw [hjumped]
      change Except.bind (Zlist.sortPass compare s.size s s.head _ false) _ = _
      rw [hpass]
      exact hok
    next hloop => exact ⟨cells, rfl, Option.some.inj hsort, by rw [← h.heap]; exact if_neg hloop⟩

/-- **Sorting a list.** If the comparison says which of two items is the greater one in a total preorder, `zlist_sort`
ends, and it leaves the list with the same items, in ascending order. Only items have moved: head, tail, size and
cursor are as they were, and so are the nodes and the links between them. -/
theorem zlist_sort_sorted {le : α → α → Prop} [IsTrans α le] (htotal : ∀ x y, le x y ∨ le y x)
    (hcompare : ∀ x y, compare x y = true ↔ ¬ le x y) (hshrink : ∀ g, 2 ≤ g → 1 ≤ shrink g ∧ shrink g < g)
    (h : Refines s r) {fuel : ℕ} (hfuel : s.size + s.size * s.size ≤ fuel) :
    ∃ s' r' nodes, s.sort compare shrink fuel = .ok s' ∧ s' = { s with heap := s'.heap } ∧ Refines s' r' ∧
      Sound s r nodes ∧ Sound s' r' nodes ∧ r'.all.Pairwise le ∧ r'.all.Perm r.all := by
  obtain ⟨l1, l2, hrep⟩ := h
  have hirrefl : ∀ x, compare x x = false := fun x =>
    Bool.eq_false_iff.mpr fun hx => (hcompare x x).mp hx ((htotal x x).elim id id)
  have hlisted := hrep.listed
  have hlength : (r.all).length = s.size := by rw [hrep.all_eq, length_map, hlisted.size]
  rw [← hlength] at hfuel
  obtain ⟨items, hsort, hperm, hsorted⟩ := combSort_sorted (fun gap => gap % 2 ^ 32) htotal hcompare hshrink rfl hfuel
  rw [hlength, hrep.all_eq] at hsort
  obtain ⟨cells, hnodes, rfl, hok⟩ := hlisted.sortLoop hirrefl hshrink hlisted.size.le hsort
  have hlisted' := hlisted.reorder hnodes
  -- The cursor is at the node it was at, where there are as many items before it as before.
  have hrep' : Rep { s with heap := heapOf cells }
      ⟨(cells.take l1.length).map snd, (cells.drop l1.length).map snd, r.destroyed⟩
      (cells.take l1.length) (cells.drop l1.length) := by
    refine ⟨by rwa [take_append_drop], rfl, rfl, ?_, hrep.destroyed⟩
    rw [hrep.cursor, headOf, headOf, map_drop, hnodes, map_append, drop_left' (length_map _)]
  have hall := hrep'.all_eq
  have hsound := hrep'.sound
  rw [take_append_drop] at hall hsound
  rw [hnodes] at hsound
  refine ⟨_, _, _, hok, rfl, ⟨_, _, hrep'⟩, hrep.sound, hsound, ?_, ?_⟩
  · rw [hall]
    exact hsorted
  · rw [hall]
    exact hperm

end Effect

/-- Three numbers are sorted. -/
theorem zlist_sort_sorted_numbers : ∃ s, runMachine (Zlist.step (⟨false, none⟩ : ListHandlers ℕ)) (Zlist.new ℕ)
      [.append 3, .append 1, .append 2] = .ok ([.status 0, .status 0, .status 0], s) ∧
    ∃ s' r' nodes, s.sort (fun x y => decide (y < x)) Zring.shrinkGap 12 = .ok s' ∧ s' = { s with heap := s'.heap } ∧
      Refines s' r' ∧ Sound s ⟨[3, 1, 2], [], []⟩ nodes ∧ Sound s' r' nodes ∧ r'.all.Pairwise (· ≤ ·) ∧
      r'.all.Perm [3, 1, 2] := by
  obtain ⟨s, hrun, hrefines⟩ := run_spec (⟨false, none⟩ : ListHandlers ℕ) [.append 3, .append 1, .append 2]
  have hsize : s.size = 3 := by
    obtain ⟨l1, l2, hrep⟩ := hrefines
    have hlength := congrArg List.length hrep.all_eq
    rw [length_map, ← hrep.listed.size] at hlength
    exact hlength.symm
  refine ⟨s, hrun, zlist_sort_sorted le_total (fun x y => ?_) Zring.shrinkGap_spec hrefines (by rw [hsize])⟩
  rw [decide_eq_true_iff, not_le]

end Zlist

end Czmq
