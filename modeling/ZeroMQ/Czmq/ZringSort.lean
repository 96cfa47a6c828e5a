import ZeroMQ.Czmq.ZringRun

/-!
# Sorting a ring

`zring_sort` is meant to be a comb sort: two pointers go through the ring, one some nodes ahead of the other, and the
items at them are swapped if they are out of order. The pointer behind starts at the head, and the loop ends when
one of the pointers is at the head, so no items are compared.

The division of the gap by 1.247330950103979 is `shrink`. Of it we only use that a gap of at least two becomes
smaller, but not zero.
-/

namespace Czmq

open Foundation List

namespace Zring

variable {α : Type}

/-! ### The sort -/

/-- The loop that puts the second pointer ahead. -/
def jump (s : Zring α) : ℕ → ℕ → Except CzmqFault ℕ
  | 0, p => .ok p
  | n + 1, p => do
    let x ← s.node p
    s.jump n x.next

section Steps

variable (below : Option α → Option α → Bool) (c : RingHandlers α)

/-- What the comparator says, or whether one pointer is below the other if there is no comparator. -/
def compareItems (x y : Option α) : Except CzmqFault ℤ :=
  match c.comparator with
  | some comparator =>
    match x, y with
    | some x, some y => .ok (comparator x y)
    | _, _ => .error .dangling
  | none => .ok (if below x y then 1 else 0)

/-- The items of two nodes are swapped, if the comparison is not zero. -/
def swapItems (s : Zring α) (base test : ℕ) (swapped : Bool) : Except CzmqFault (Bool × Zring α) := do
  let x ← s.node base
  let y ← s.node test
  let compare ← compareItems below c x.item y.item
  if compare ≠ 0 then do
    let s ← s.setItem base y.item
    let s ← s.setItem test x.item
    .ok (true, s)
  else .ok (swapped, s)

/-- The loop over the pairs of nodes. -/
def sortPass : ℕ → Zring α → ℕ → ℕ → Bool → Except CzmqFault (Bool × Zring α)
  | 0, s, base, test, swapped =>
    if base ≠ s.head ∧ test ≠ s.head then .error .endless else .ok (swapped, s)
  | fuel + 1, s, base, test, swapped =>
    if base ≠ s.head ∧ test ≠ s.head then do
      let (swapped, s) ← s.swapItems below c base test swapped
      let x ← s.node base
      let y ← s.node test
      sortPass fuel s x.next y.next swapped
    else .ok (swapped, s)

variable (shrink : ℕ → ℕ)

/-- The loop over the gaps. The gap is a `size_t` and the number of jumps an `int` that is counted down to zero, so
it is the gap modulo 2^32. -/
def sortLoop : ℕ → Zring α → ℕ → Bool → Except CzmqFault (Zring α)
  | 0, s, gap, swapped => if gap > 1 ∨ swapped then .error .endless else .ok s
  | fuel + 1, s, gap, swapped =>
    if gap > 1 ∨ swapped then do
      let gap := if gap > 1 then shrink gap else gap
      let test ← s.jump (gap % 2 ^ 32) s.head
      let (swapped, s) ← sortPass below c s.size s s.head test false
      sortLoop fuel s gap swapped
    else .ok s

/-- `zring_sort`, with a bound for the number of passes. -/
def sort (fuel : ℕ) (s : Zring α) : Except CzmqFault (Zring α) := sortLoop below c shrink fuel s s.size false

end Steps

/-! ### What it does -/

section Effect

variable {s : Zring α} {r r' : Ring α} {l₁ l₂ l₁' l₂' : List (ℕ × Elem α)} {p n gap fuel : ℕ}

lemma Sound.node (h : Sound s r l1 l2) (hp : p ∈ s.head :: (l1 ++ l2).map Prod.fst) :
    ∃ x, s.node p = .ok x ∧ x.next ∈ s.head :: (l1 ++ l2).map Prod.fst := by
  obtain ⟨q, hq, hnext⟩ := h.ring.next_mem hp
  obtain ⟨x, hx, rfl⟩ := Option.map_eq_some_iff.mp hnext
  refine ⟨x, ?_, hq⟩
  rw [Zring.node, hx]

lemma Sound.jump (h : Sound s r l1 l2) (n : ℕ) (hp : p ∈ s.head :: (l1 ++ l2).map Prod.fst) :
    ∃ q, s.jump n p = .ok q := by
  induction n generalizing p with
  | zero => exact ⟨p, rfl⟩
  | succ n ih =>
    obtain ⟨x, hx, hnext⟩ := h.node hp
    obtain ⟨q, hq⟩ := ih hnext
    refine ⟨q, ?_⟩
    rw [Zring.jump, hx]
    exact hq

variable (below : Option α → Option α → Bool) (c : RingHandlers α)

lemma sortPass_head (fuel : ℕ) (s : Zring α) (test : ℕ) (swapped : Bool) :
    sortPass below c fuel s s.head test swapped = .ok (swapped, s) := by
  cases fuel with
  | zero | succ fuel => exact if_neg fun h => h.1 rfl

variable {shrink : ℕ → ℕ}

lemma Sound.sortLoop (h : Sound s r l1 l2) (hshrink : ∀ g, 2 ≤ g → 1 ≤ shrink g ∧ shrink g < g) (hfuel : gap ≤ fuel) :
    Zring.sortLoop below c shrink fuel s gap false = .ok s := by
  induction fuel generalizing gap with
  | zero =>
    refine if_neg ?_
    rintro (hgap | hswapped)
    · omega
    · cases hswapped
  | succ fuel ih =>
    rw [Zring.sortLoop]
    by_cases hgap : gap > 1
    · obtain ⟨test, htest⟩ := h.jump (shrink gap % 2 ^ 32) mem_cons_self
      obtain ⟨-, hless⟩ := hshrink gap hgap
      have hrest : Zring.sortLoop below c shrink fuel s (shrink gap) false = .ok s := ih (by omega)
      simp only [hgap, true_or, ↓reduceIte, htest, bind, Except.bind, sortPass_head, hrest]
    · refine if_neg ?_
      rintro (hgap' | hswapped)
      · exact hgap hgap'
      · cases hswapped

lemma Sound.sort (h : Sound s r l1 l2) (hshrink : ∀ g, 2 ≤ g → 1 ≤ shrink g ∧ shrink g < g) (hfuel : s.size ≤ fuel) :
    Zring.sort below c shrink fuel s = .ok s :=
  h.sortLoop below c hshrink hfuel

lemma Sound.items_unique (h : Sound s r l1 l2) (h' : Sound s r' l1' l2') :
    r'.all.map Elem.item = r.all.map Elem.item := by
  have hnodes := h'.ring.unique h.ring
  have hitems : ∀ {r : Ring α} {l1 l2 : List (ℕ × Elem α)}, Sound s r l1 l2 →
      r.all.map (fun e => some e.item) = ((l1 ++ l2).map Prod.fst).map fun p => (s.heap p).bind RingNode.item := by
    intro r l1 l2 h
    rw [Ring.all, h.before, h.after, ← map_append, map_map, map_map]
    refine map_congr_left fun cell hcell => ?_
    obtain ⟨x, hx, hitem, -⟩ := h.items cell.1 cell.2 hcell
    exact (by rw [Function.comp_apply, Function.comp_apply, hx]; exact hitem.symm)
  have heq : r'.all.map (fun e => some e.item) = r.all.map fun e => some e.item := by
    rw [hitems h', hitems h, hnodes]
  have hsome : ∀ l : List (Elem α), l.map (fun e => some e.item) = (l.map Elem.item).map some := fun l => by
    rw [map_map]
    rfl
  rw [hsome, hsome] at heq
  exact (map_injective_iff.mpr (Option.some_injective α)) heq

end Effect

/-- A list with a cursor is another one sorted: the items are in ascending order, and they are the items of the other
list, with the keys they had. -/
structure IsSorted (comparator : α → α → ℤ) (r r' : Ring α) : Prop where
  ascending : (r'.all.map Elem.item).Pairwise fun x y => comparator x y ≤ 0
  perm : (r'.all.map Elem.item).Perm (r.all.map Elem.item)
  keys : ∀ key item, (⟨item, some key⟩ : Elem α) ∈ r'.all ↔ ⟨item, some key⟩ ∈ r.all

/-- A ring has the elements of a list sorted. -/
def Sorts (comparator : α → α → ℤ) (s : Zring α) (r : Ring α) : Prop :=
  ∃ r' l₁ l₂, Sound s r' l₁ l₂ ∧ IsSorted comparator r r'

lemma Sound.sorts_iff {s : Zring α} {r : Ring α} {l1 l2 : List (ℕ × Elem α)} (h : Sound s r l1 l2)
    (comparator : α → α → ℤ) :
    Sorts comparator s r ↔ (r.all.map Elem.item).Pairwise fun x y => comparator x y ≤ 0 := by
  constructor
  · rintro ⟨r', l1', l2', h', hsorted⟩
    rw [← h.items_unique h']
    exact hsorted.ascending
  · intro hascending
    exact ⟨r, l1, l2, h, hascending, .refl _, fun _ _ => .rfl⟩

/-- **Sorting a ring.** `zring_sort` ends, and it sorts a ring if and only if the items are in ascending order
already. -/
theorem zring_sort_iff (below : Option α → Option α → Bool) {shrink : ℕ → ℕ}
    (hshrink : ∀ g, 2 ≤ g → 1 ≤ shrink g ∧ shrink g < g) (destructor : Bool) (duplicator : Option (α → Option α))
    (comparator : α → α → ℤ) {s : Zring α} {r : Ring α} {l1 l2 : List (ℕ × Elem α)} (h : Sound s r l1 l2) {fuel : ℕ}
    (hfuel : s.size ≤ fuel) :
    ∃ s', s.sort below ⟨destructor, duplicator, some comparator⟩ shrink fuel = .ok s' ∧
      (Sorts comparator s' r ↔ (r.all.map Elem.item).Pairwise fun x y => comparator x y ≤ 0) :=
  ⟨s, h.sort below _ hshrink hfuel, h.sorts_iff comparator⟩

/-! ### Two items -/

/-- The gap divided by 1.247330950103979. -/
def shrinkGap (gap : ℕ) : ℕ := gap * 1000000000000000 / 1247330950103979

lemma shrinkGap_spec (g : ℕ) (hg : 2 ≤ g) : 1 ≤ shrinkGap g ∧ shrinkGap g < g := by
  rw [shrinkGap]
  omega

/-- Numbers are compared by their values. -/
def byValue (x y : ℕ) : ℤ := (x : ℤ) - y

/-- An item is inserted under the key "b" and one under the key "a". -/
def insertTwo (x y : ℕ) : List (ZringOp ℕ) := [.insert (.ofBytes [98]) x, .insert (.ofBytes [97]) y]

lemma insertTwo_sound {x y : ℕ} (h : (x, y) ∈ [(1, 2), (2, 1)]) :
    ∃ s l1 l2, runMachine (Zring.step valueHandlers zhashPrimes) (Zring.new ℕ) (insertTwo x y) =
        .ok ([.status 0, .status 0], s) ∧
      Sound s ⟨[⟨x, some (.ofBytes [98])⟩], [⟨y, some (.ofBytes [97])⟩], []⟩ l1 l2 := by
  have hequal : ∀ x, valueHandlers.equal x x = true := fun x => decide_eq_true (sub_self (x : ℤ))
  rcases mem_cons.mp h with heq | hmem
  · obtain ⟨rfl, rfl⟩ := Prod.mk.inj heq
    exact run_sound valueHandlers hequal (insertTwo 1 2) (by decide +kernel) (by decide +kernel)
  · obtain ⟨rfl, rfl⟩ := Prod.mk.inj (mem_singleton.mp hmem)
    exact run_sound valueHandlers hequal (insertTwo 2 1) (by decide +kernel) (by decide +kernel)

theorem zring_sort_iff_ascending : ∃ s l1 l2,
    Sound s ⟨[⟨1, some (.ofBytes [98])⟩], [⟨2, some (.ofBytes [97])⟩], []⟩ l1 l2 ∧
      ∃ s', s.sort (fun _ _ => false) valueHandlers shrinkGap s.size = .ok s' ∧
        Sorts byValue s' ⟨[⟨1, some (.ofBytes [98])⟩], [⟨2, some (.ofBytes [97])⟩], []⟩ := by
  obtain ⟨s, l1, l2, -, hs⟩ := insertTwo_sound (x := 1) (y := 2) (by decide)
  obtain ⟨s', hsort, hiff⟩ := zring_sort_iff (fun _ _ => false) shrinkGap_spec true (some some) byValue hs le_rfl
  exact ⟨s, l1, l2, hs, s', hsort, hiff.mpr (by decide)⟩

/-- Two items are inserted, the greater one first. The sort leaves them so. -/
theorem zring_sort_descending : ∃ s l1 l2,
    runMachine (Zring.step valueHandlers zhashPrimes) (Zring.new ℕ) (insertTwo 2 1) =
        .ok ([.status 0, .status 0], s) ∧
      Sound s ⟨[⟨2, some (.ofBytes [98])⟩], [⟨1, some (.ofBytes [97])⟩], []⟩ l1 l2 ∧
      s.sort (fun _ _ => false) valueHandlers shrinkGap s.size = .ok s ∧
      ¬ Sorts byValue s ⟨[⟨2, some (.ofBytes [98])⟩], [⟨1, some (.ofBytes [97])⟩], []⟩ := by
  obtain ⟨s, l1, l2, hrun, hs⟩ := insertTwo_sound (x := 2) (y := 1) (by decide)
  refine ⟨s, l1, l2, hrun, hs, hs.sort _ valueHandlers shrinkGap_spec le_rfl, fun hsorts => ?_⟩
  have hascending := (hs.sorts_iff _).mp hsorts
  exact absurd hascending (by decide)

end Zring

end Czmq
