import ZeroMQ.Czmq.ZlistShape

/-!
# The list refines a sequence with a cursor

What the list is for: a sequence of items and a cursor, which is at one of them or at none. An item at the cursor
that is removed leaves the cursor at the item before it; if there is none the cursor is at no item, from where it goes
to the first one. So whoever goes through the items and removes some of them visits each of them once.
-/

namespace Czmq

open Foundation List Nat Except Function

/-- A sequence with a cursor: what is before the cursor and what is from it on. If nothing is, the cursor is at no
item. -/
structure ItemList (α : Type) where
  before : List α
  after : List α
  /-- The items the destructor has been called on. -/
  destroyed : List α
  deriving DecidableEq

namespace ItemList

variable {α : Type} (c : ListHandlers α)

/-- The empty sequence. -/
def empty (α : Type) : ItemList α := ⟨[], [], []⟩

/-- All items. -/
def all (r : ItemList α) : List α := r.before ++ r.after

/-- The item at the cursor. -/
def item (r : ItemList α) : Option α := r.after.head?

/-- The sequence becomes another one, with the cursor at no item. -/
def reset (r : ItemList α) (items : List α) : ItemList α := { r with before := items, after := [] }

/-- The cursor goes to the first item. -/
def first (r : ItemList α) : ItemList α := { r with before := [], after := r.all }

/-- The cursor goes to the next item, from none to the first one and from the last one to none. -/
def next (r : ItemList α) : ItemList α :=
  match r.after with
  | [] => r.first
  | x :: rest => { r with before := r.before ++ [x], after := rest }

/-- The cursor goes to the last item. -/
def last (r : ItemList α) : ItemList α :=
  match r.all.getLast? with
  | none => r.reset []
  | some x => { r with before := r.all.dropLast, after := [x] }

/-- An item is added at the end. -/
def append (r : ItemList α) (item : α) : ItemList α := r.reset (r.all ++ [c.duplicate item])

/-- An item is added at the start. -/
def push (r : ItemList α) (item : α) : ItemList α := r.reset (c.duplicate item :: r.all)

/-- The first item is taken out. -/
def pop (r : ItemList α) : Option α × ItemList α := (r.all.head?, r.reset r.all.tail)

/-- The item at the cursor is taken out, and the cursor goes to the one before it. -/
def removeCursor (r : ItemList α) (rest : List α) : ItemList α :=
  match r.before.getLast? with
  | none => r.reset rest
  | some x => { r with before := r.before.dropLast, after := x :: rest }

/-- The first occurrence of an item is taken out. -/
def takeOut [DecidableEq α] (r : ItemList α) (item : α) : ItemList α :=
  if item ∈ r.before then { r with before := r.before.erase item }
  else
    match r.after with
    | [] => r
    | x :: rest => if x = item then r.removeCursor rest else { r with after := x :: rest.erase item }

/-- And it is destroyed. -/
def remove [DecidableEq α] (r : ItemList α) (item : α) : ItemList α :=
  if item ∈ r.all then { r.takeOut item with destroyed := r.destroyed ++ c.destroy [item] } else r

/-- All items are destroyed. -/
def purge (r : ItemList α) : ItemList α := ⟨[], [], r.destroyed ++ c.destroy r.all⟩

/-- The copy. -/
def dup (r : ItemList α) : ItemList α := ⟨r.all.map c.duplicate, [], []⟩

/-- What a call returns on a sequence with a cursor, and what it does to it. -/
def step [DecidableEq α] (r : ItemList α) : ZlistOp α → ZlistReply α × ItemList α
  | .append item => (.status 0, r.append c item)
  | .push item => (.status 0, r.push c item)
  | .pop => (.item r.pop.1, r.pop.2)
  | .remove item => (.done, r.remove c item)
  | .first => (.item r.first.item, r.first)
  | .next => (.item r.next.item, r.next)
  | .last => (.item r.last.item, r.last)
  | .head => (.item r.all.head?, r)
  | .tail => (.item r.all.getLast?, r)
  | .item => (.item r.item, r)
  | .purge => (.done, r.purge c)
  | .dup => (.done, r.dup c)
  | .size => (.size r.all.length, r)

end ItemList

namespace Zlist

variable {α : Type}

/-! ### The list and the sequence -/

/-- The list has the items of the sequence in the cells before the cursor and in those from it on. -/
structure Rep (s : Zlist α) (r : ItemList α) (l₁ l₂ : List (ℕ × α)) : Prop where
  listed : Listed s (l₁ ++ l₂)
  before : r.before = l₁.map Prod.snd
  after : r.after = l₂.map Prod.snd
  cursor : s.cursor = headOf l₂
  destroyed : s.destroyed = r.destroyed

/-- The list has the items of the sequence, and the cursor of the sequence. -/
def Refines (s : Zlist α) (r : ItemList α) : Prop := ∃ l₁ l₂, Rep s r l₁ l₂

section Rep

variable {s s' : Zlist α} {r : ItemList α} {cells l₁ l₂ : List (ℕ × α)} (c : ListHandlers α)

lemma refines_new : Refines (Zlist.new α) (ItemList.empty α) := ⟨[], [], listed_new, rfl, rfl, rfl, rfl⟩

lemma Rep.all_eq (h : Rep s r l1 l2) : r.all = (l1 ++ l2).map Prod.snd := by
  rw [ItemList.all, h.before, h.after, map_append]

lemma Rep.move (h : Rep s r l1 l2) (l1' l2' : List (ℕ × α)) (hl : l1 ++ l2 = l1' ++ l2') {cursor : Option ℕ}
    (hcursor : cursor = headOf l2') :
    Rep { s with cursor } { r with before := l1'.map Prod.snd, after := l2'.map Prod.snd } l1' l2' := by
  obtain ⟨⟨hheap, hnodup, hhead, htail, hsize, hfresh⟩, -, -, -, hdestroyed⟩ := h
  rw [hl] at hheap hnodup hhead htail hsize hfresh
  exact ⟨⟨hheap, hnodup, hhead, htail, hsize, hfresh⟩, rfl, rfl, hcursor, hdestroyed⟩

lemma Rep.item (h : Rep s r l1 l2) : s.item = .ok r.item := by
  rw [Zlist.item, h.cursor, h.listed.itemAt_eq, ItemList.item, h.after]

lemma Listed.refines (h : Listed s' cells) {items : List α} (hitems : items = cells.map Prod.snd)
    (hcursor : s'.cursor = none) (hdestroyed : s'.destroyed = r.destroyed) : Refines s' (r.reset items) :=
  ⟨cells, [], by rw [append_nil]; exact h, hitems, rfl, hcursor, hdestroyed⟩

lemma Rep.first (h : Rep s r l1 l2) : ∃ s', s.first = .ok (r.first.item, s') ∧ Rep s' r.first [] (l1 ++ l2) := by
  have hrep : Rep { s with cursor := s.head } r.first [] (l1 ++ l2) := by
    rw [ItemList.first, h.all_eq]
    exact h.move [] (l1 ++ l2) rfl h.listed.head
  refine ⟨_, ?_, hrep⟩
  simp only [Zlist.first, hrep.item, bind, Except.bind]

lemma Rep.next (h : Rep s r l1 l2) : ∃ s', s.next = .ok (r.next.item, s') ∧ Refines s' r.next := by
  cases l2 with
  | nil =>
    have hnone : s.cursor = none := h.cursor
    have hend : r.after = [] := h.after
    obtain ⟨s', hfirst, hrep⟩ := h.first
    have hsame : s.next = s.first := by simp only [Zlist.next, Zlist.first, hnone, bind, Except.bind]
    have hspec : r.next = r.first := by rw [ItemList.next, hend]
    rw [hsame, hspec]
    exact ⟨s', hfirst, _, _, hrep⟩
  | cons cell l2 =>
    obtain ⟨p, x⟩ := cell
    have hat : s.cursor = some p := h.cursor
    have hafter : r.after = x :: l2.map Prod.snd := h.after
    have hrep : Rep { s with cursor := headOf l2 } r.next (l1 ++ [(p, x)]) l2 := by
      have hmoved := h.move (l1 ++ [(p, x)]) l2 (append_cons ..) rfl
      rw [map_append, map_singleton] at hmoved
      rw [ItemList.next, hafter, h.before]
      exact hmoved
    refine ⟨_, ?_, _, _, hrep⟩
    simp only [Zlist.next, hat, h.listed.node_eq, Except.map, bind, Except.bind, hrep.item]

lemma Rep.last (h : Rep s r l1 l2) : ∃ s', s.last = .ok (r.last.item, s') ∧ Refines s' r.last := by
  have htail := h.listed.tail
  have hrep : ∃ l l', Rep { s with cursor := s.tail } r.last l l' := by
    rw [ItemList.last, h.all_eq]
    rcases eq_nil_or_concat (l1 ++ l2) with hnil | ⟨l, cell, hl⟩
    · rw [hnil] at htail ⊢
      exact ⟨[], [], h.move [] [] hnil htail⟩
    rw [concat_eq_append] at hl
    rw [hl, lastOf_concat] at htail
    rw [hl, map_append, map_singleton, getLast?_concat]
    rw [dropLast_concat]
    exact ⟨l, [cell], h.move l [cell] hl htail⟩
  obtain ⟨l, l', hrep⟩ := hrep
  refine ⟨_, ?_, _, _, hrep⟩
  simp only [Zlist.last, hrep.item, bind, Except.bind]

/-! ### Adding and taking out -/

lemma Rep.append (h : Rep s r l1 l2) (item : α) :
    ∃ s', s.append c item = .ok (0, s') ∧ Refines s' (r.append c item) := by
  obtain ⟨s', hok, hlisted, hcursor, hdestroyed⟩ := h.listed.append c item
  refine ⟨s', hok, hlisted.refines ?_ hcursor (hdestroyed.trans h.destroyed)⟩
  rw [h.all_eq]
  simp only [map_append, map_cons, map_nil]

lemma Rep.push (h : Rep s r l1 l2) (item : α) : ∃ s', s.push c item = (0, s') ∧ Refines s' (r.push c item) := by
  obtain ⟨s', hok, hlisted, hcursor, hdestroyed⟩ := h.listed.push c item
  refine ⟨s', hok, hlisted.refines ?_ hcursor (hdestroyed.trans h.destroyed)⟩
  rw [h.all_eq, map_cons]

lemma Rep.pop (h : Rep s r l1 l2) : ∃ s', s.pop = .ok (r.pop.1, s') ∧ Refines s' r.pop.2 := by
  have hlisted := h.listed
  have hall := h.all_eq
  generalize l1 ++ l2 = cells at hlisted hall
  rw [ItemList.pop, hall]
  cases cells with
  | nil =>
    have hhead : s.head = none := hlisted.head
    obtain ⟨hheap, hnodup, hhead', htail, hsize, hfresh⟩ := hlisted
    have hnone : Listed { s with cursor := none } [] := ⟨hheap, hnodup, hhead', htail, hsize, hfresh⟩
    exact ⟨_, by rw [Zlist.pop, hhead]; rfl, hnone.refines rfl rfl h.destroyed⟩
  | cons cell cells =>
    obtain ⟨s', hok, hlisted', hcursor, hdestroyed⟩ := hlisted.pop
    exact ⟨s', hok, hlisted'.refines rfl hcursor (hdestroyed.trans h.destroyed)⟩

variable [DecidableEq α]

lemma map_erase {l l' : List (ℕ × α)} {p : ℕ} {x : α} (hnot : x ∉ l.map Prod.snd) :
    ((l ++ (p, x) :: l').map Prod.snd).erase x = (l ++ l').map Prod.snd := by
  rw [map_append, map_cons, erase_append_right _ hnot, erase_cons_head, map_append]

lemma Rep.takeOut (h : Rep s r l1 l2) {l l' : List (ℕ × α)} {p : ℕ} {x : α} (hsplit : l1 ++ l2 = l ++ (p, x) :: l')
    (hnot : x ∉ l.map Prod.snd) (hlisted : Listed s' (l ++ l'))
    (hcursor : s'.cursor = if s.cursor = some p then lastOf l else s.cursor) :
    Refines s' { r.takeOut x with destroyed := s'.destroyed } := by
  have hstay : ∀ {cell k}, l2 = cell :: k → cell ∈ l ++ l' → s'.cursor = headOf l2 := fun hl hmem => by
    have hnodup := h.listed.nodup
    rw [hsplit] at hnodup
    rw [hcursor, h.cursor, hl]
    exact if_neg fun heq => notMem_of_nodup hnodup (mem_map.mpr ⟨_, hmem, Option.some.inj heq⟩)
  have hcases : (∃ k, l = l1 ++ k ∧ l2 = k ++ (p, x) :: l') ∨ ∃ k, l1 = l ++ (p, x) :: k ∧ l' = k ++ l2 := by
    obtain hk | ⟨k, hl1, hk⟩ := append_eq_append_iff.mp hsplit
    · exact .inl hk
    cases k with
    | nil => exact .inl ⟨[], by rw [hl1, append_nil, append_nil], hk.symm⟩
    | cons cell k =>
      obtain ⟨rfl, hl'⟩ := List.cons.inj hk
      exact .inr ⟨k, hl1, hl'⟩
  obtain ⟨k, rfl, hk⟩ | ⟨k, rfl, rfl⟩ := hcases
  · rw [map_append, mem_append, not_or] at hnot
    have hbefore : x ∉ r.before := h.before ▸ hnot.1
    cases k with
    | nil =>
      -- The cell is at the cursor, which goes to the one before it.
      have hspec : r.takeOut x = r.removeCursor (l'.map Prod.snd) := by
        rw [ItemList.takeOut, if_neg hbefore, h.after, hk]
        exact if_pos rfl
      rw [append_nil] at hlisted hcursor
      rw [if_pos (by rw [h.cursor, hk]; rfl)] at hcursor
      rw [hspec, ItemList.removeCursor, h.before]
      rcases eq_nil_or_concat l1 with rfl | ⟨l1, ⟨q, y⟩, rfl⟩
      · exact ⟨l', [], by rw [append_nil]; exact hlisted, rfl, rfl, hcursor, rfl⟩
      rw [concat_eq_append] at hlisted hcursor ⊢
      rw [lastOf_concat] at hcursor
      rw [map_append, map_singleton, getLast?_concat, dropLast_concat]
      exact ⟨l1, (q, y) :: l', by rw [append_cons]; exact hlisted, rfl, rfl, hcursor, rfl⟩
    | cons cell k =>
      -- The cell is behind the cursor, which stays.
      obtain ⟨hy, hbehind⟩ := not_or.mp (mem_cons.not.mp hnot.2)
      have hspec : r.takeOut x = { r with after := cell.2 :: (k ++ l').map Prod.snd } := by
        rw [ItemList.takeOut, if_neg hbefore, h.after, hk, ← map_erase hbehind]
        exact if_neg (Ne.symm hy)
      have hat := hstay hk (mem_append_left _ (mem_append_right _ mem_cons_self))
      rw [hspec]
      rw [append_assoc] at hlisted
      exact ⟨l1, cell :: (k ++ l'), hlisted, h.before, rfl, hat.trans (by rw [hk]; rfl), rfl⟩
  · -- The cell is before the cursor, which stays.
    have hspec : r.takeOut x = { r with before := (l ++ k).map Prod.snd } := by
      rw [ItemList.takeOut, h.before, map_erase hnot]
      exact if_pos (by rw [map_append]; exact mem_append_right _ mem_cons_self)
    have hat : s'.cursor = headOf l2 := by
      cases l2 with
      | nil => rw [hcursor, h.cursor]; rfl
      | cons cell l2 => exact hstay rfl (by rw [← append_assoc]; exact mem_append_right _ mem_cons_self)
    rw [hspec]
    rw [← append_assoc] at hlisted
    exact ⟨l ++ k, l2, hlisted, rfl, h.after, hat, rfl⟩

lemma Rep.remove (h : Rep s r l1 l2) (x : α) : ∃ s', s.remove c x = .ok s' ∧ Refines s' (r.remove c x) := by
  rw [ItemList.remove, h.all_eq, ← h.destroyed]
  rcases h.listed.remove c x with ⟨hnot, hok⟩ | ⟨l, p, l', s', hsplit, hnot, hok, hlisted, hcursor, hdestroyed⟩
  · rw [if_neg hnot]
    exact ⟨s, hok, l1, l2, h⟩
  · rw [if_pos (by rw [hsplit, map_append]; exact mem_append_right _ mem_cons_self), ← hdestroyed]
    exact ⟨s', hok, h.takeOut hsplit hnot hlisted hcursor⟩

end Rep

/-! ### The whole list -/

section Whole

variable {s : Zlist α} {r : ItemList α} {cells l₁ l₂ : List (ℕ × α)} (c : ListHandlers α)

lemma destroy_append (x y : List α) : c.destroy (x ++ y) = c.destroy x ++ c.destroy y := by
  rw [ListHandlers.destroy, ListHandlers.destroy, ListHandlers.destroy]
  split <;> rfl

lemma purgeLoop_spec (fuel : ℕ) (hnodup : (cells.map Prod.fst).Nodup) (hfuel : cells.length ≤ fuel)
    (hheap : s.heap = heapOf cells) : purgeLoop c fuel (headOf cells) s =
      .ok { s with heap := heapOf [], destroyed := s.destroyed ++ c.destroy (cells.map Prod.snd) } := by
  induction cells generalizing fuel s with
  | nil =>
    have hnone : c.destroy (([] : List (ℕ × α)).map Prod.snd) = [] := ite_self _
    rw [hnone, append_nil, ← hheap]
    cases fuel <;> rfl
  | cons cell cells ih =>
    obtain ⟨p, x⟩ := cell
    cases fuel with
    | zero => exact absurd hfuel (not_succ_le_zero _)
    | succ fuel =>
      have hnode : s.node p = .ok ⟨headOf cells, x⟩ := by
        rw [Zlist.node, hheap, heapOf, update_self]
      have hfree : ({ s with destroyed := s.destroyed ++ c.destroy [x] }.free p).heap = heapOf cells := by
        change update s.heap p none = _
        rw [hheap, heapOf_free (nodup_cons.mp hnodup).1]
      change purgeLoop c (fuel + 1) (some p) s = _
      simp only [purgeLoop, hnode, bind, Except.bind]
      have hcons : c.destroy (((p, x) :: cells).map Prod.snd) = c.destroy [x] ++ c.destroy (cells.map Prod.snd) :=
        destroy_append c [x] _
      rw [ih fuel (nodup_cons.mp hnodup).2 (le_of_succ_le_succ hfuel) hfree, hcons, ← append_assoc]
      rfl

lemma Rep.purge (h : Rep s r l1 l2) : ∃ s', s.purge c = .ok s' ∧ Refines s' (r.purge c) := by
  have hok := purgeLoop_spec c s.size h.listed.nodup h.listed.size.ge h.listed.heap
  rw [← h.listed.head] at hok
  simp only [Zlist.purge, hok, bind, bind]
  refine ⟨_, rfl, [], [], ⟨rfl, nodup_nil, rfl, rfl, rfl, fun _ h => by cases h⟩, rfl, rfl, rfl, ?_⟩
  change s.destroyed ++ c.destroy _ = r.destroyed ++ c.destroy r.all
  rw [h.destroyed, h.all_eq]

lemma dupLoop_spec (fuel : ℕ) (h : Listed s (l1 ++ l2)) (hfuel : l2.length ≤ fuel) {copy : Zlist α}
    (hcopy : Listed copy cells) (hcursor : copy.cursor = none) :
    ∃ s' cells', s.dupLoop c fuel (headOf l2) copy = .ok s' ∧ Listed s' cells' ∧
      cells'.map Prod.snd = cells.map Prod.snd ++ (l2.map Prod.snd).map c.duplicate ∧ s'.cursor = none ∧
      s'.destroyed = copy.destroyed := by
  induction l2 generalizing l1 fuel copy cells with
  | nil =>
    refine ⟨copy, cells, by cases fuel <;> rfl, hcopy, ?_, hcursor, rfl⟩
    rw [map_nil, map_nil, append_nil]
  | cons cell l2 ih =>
    obtain ⟨q, y⟩ := cell
    cases fuel with
    | zero => exact absurd hfuel (not_succ_le_zero _)
    | succ fuel =>
      obtain ⟨copy1, happend, hcopy1, hcursor1, hdestroyed1⟩ := hcopy.append c y
      have hnode := h.node_eq
      rw [append_cons] at h
      obtain ⟨s', cells', hok, hlisted, hsame, hcursor', hdestroyed⟩ :=
        ih fuel h (le_of_succ_le_succ hfuel) hcopy1 hcursor1
      refine ⟨s', cells', ?_, hlisted, ?_, hcursor', hdestroyed.trans hdestroyed1⟩
      · change s.dupLoop c (fuel + 1) (some q) copy = _
        simp only [dupLoop, hnode, happend, bind, Except.bind]
        exact hok
      · rw [hsame, map_append, append_assoc]
        rfl

lemma Rep.dup (h : Rep s r l1 l2) : ∃ s', s.dup c = .ok s' ∧ Refines s' (r.dup c) := by
  have hall : Listed s ([] ++ (l1 ++ l2)) := h.listed
  obtain ⟨s', cells, hok, hlisted, hsame, hcursor, hdestroyed⟩ :=
    dupLoop_spec c s.size hall h.listed.size.ge listed_new rfl
  rw [← h.listed.head] at hok
  refine ⟨s', hok, cells, [], by rw [append_nil]; exact hlisted, ?_, rfl, hcursor, hdestroyed⟩
  rw [hsame, ← h.all_eq]
  rfl

end Whole

section Runs

variable [DecidableEq α] (c : ListHandlers α)

variable {s : Zlist α} {r : ItemList α}

lemma step_spec (h : Refines s r) (op : ZlistOp α) :
    ∃ s', s.step c op = .ok ((r.step c op).1, s') ∧ Refines s' (r.step c op).2 := by
  obtain ⟨l1, l2, hrep⟩ := h
  cases op with
  | append item =>
    obtain ⟨s', hok, hrefines⟩ := hrep.append c item
    exact ⟨s', by rw [step, hok]; rfl, hrefines⟩
  | push item =>
    obtain ⟨s', hok, hrefines⟩ := hrep.push c item
    exact ⟨s', by rw [step, hok]; rfl, hrefines⟩
  | pop =>
    obtain ⟨s', hok, hrefines⟩ := hrep.pop
    exact ⟨s', by rw [step, hok]; rfl, hrefines⟩
  | remove item =>
    obtain ⟨s', hok, hrefines⟩ := hrep.remove c item
    exact ⟨s', by rw [step, hok]; rfl, hrefines⟩
  | first =>
    obtain ⟨s', hok, hrefines⟩ := hrep.first
    exact ⟨s', by rw [step, hok]; rfl, _, _, hrefines⟩
  | next =>
    obtain ⟨s', hok, hrefines⟩ := hrep.next
    exact ⟨s', by rw [step, hok]; rfl, hrefines⟩
  | last =>
    obtain ⟨s', hok, hrefines⟩ := hrep.last
    exact ⟨s', by rw [step, hok]; rfl, hrefines⟩
  | head =>
    have hitem : s.itemAt s.head = .ok r.all.head? := by
      have hall : Listed s ([] ++ (l1 ++ l2)) := hrep.listed
      rw [hrep.listed.head, hall.itemAt_eq, hrep.all_eq]
    exact ⟨s, by rw [step, hitem]; rfl, l1, l2, hrep⟩
  | tail =>
    have hitem : s.itemAt s.tail = .ok r.all.getLast? := by
      have hlisted := hrep.listed
      rw [hlisted.tail, hrep.all_eq]
      rcases eq_nil_or_concat (l1 ++ l2) with hnil | ⟨l, cell, hl⟩
      · rw [hnil]
        rfl
      rw [concat_eq_append] at hl
      rw [hl] at hlisted ⊢
      rw [lastOf_concat, map_append, map_singleton, getLast?_concat]
      exact hlisted.itemAt_eq
    exact ⟨s, by rw [step, hitem]; rfl, l1, l2, hrep⟩
  | item => exact ⟨s, by rw [step, hrep.item]; rfl, l1, l2, hrep⟩
  | purge =>
    obtain ⟨s', hok, hrefines⟩ := hrep.purge c
    exact ⟨s', by rw [step, hok]; rfl, hrefines⟩
  | dup =>
    obtain ⟨s', hok, hrefines⟩ := hrep.dup c
    exact ⟨s', by rw [step, hok]; rfl, hrefines⟩
  | size =>
    refine ⟨s, ?_, l1, l2, hrep⟩
    change ok (ZlistReply.size s.size, s) = .ok (.size r.all.length, s)
    rw [hrep.listed.size, hrep.all_eq, length_map]

lemma run_spec (ops : List (ZlistOp α)) :
    ∃ s, runMachine (Zlist.step c) (Zlist.new α) ops = .ok ((runSpec (ItemList.step c) (ItemList.empty α) ops).1, s) ∧
      Refines s (runSpec (ItemList.step c) (ItemList.empty α) ops).2 := by
  have hstep : ∀ s r op, Refines s r → True →
      ∃ s', Zlist.step c s op = .ok ((ItemList.step c r op).1, s') ∧ Refines s' (ItemList.step c r op).2 :=
    fun s r op hs _ => step_spec c hs op
  exact refines_run hstep refines_new (inputsMeet_of_forall (fun _ _ _ => trivial) _)

/-! ### Iterating -/

variable (removed : α → Bool)

omit removed in
lemma next_remove {kept rest : List α} {x : α} (hx : x ∉ kept) (destroyed : List α) :
    ((⟨kept, x :: rest, destroyed⟩ : ItemList α).remove c x).next = ⟨kept, rest, destroyed ++ c.destroy [x]⟩ := by
  have hmem : x ∈ (⟨kept, x :: rest, destroyed⟩ : ItemList α).all :=
    mem_append_right _ mem_cons_self
  rw [ItemList.remove, if_pos hmem, ItemList.takeOut, if_neg hx]
  dsimp only
  rw [if_pos rfl, ItemList.removeCursor]
  rcases eq_nil_or_concat kept with rfl | ⟨kept, y, rfl⟩
  · change (⟨[], rest ++ [], _⟩ : ItemList α) = _
    rw [append_nil]
  · rw [concat_eq_append, getLast?_concat, dropLast_concat]
    rfl

/-- One turn of the loop: the cursor goes to the next item, and the visited one stays unless it is removed. -/
lemma visit_step {kept rest : List α} {x : α} {destroyed : List α} (hx : x ∉ kept)
    (h : Refines s ⟨kept, x :: rest, destroyed⟩) :
    ∃ s1 s2, (if removed x then s.remove c x else .ok s) = .ok s1 ∧ s1.next = .ok (rest.head?, s2) ∧
      Refines s2 ⟨kept ++ (if removed x then [] else [x]), rest,
        destroyed ++ c.destroy (if removed x then [x] else [])⟩ := by
  obtain ⟨l1, l2, hrep⟩ := h
  by_cases hremoved : removed x = true
  · obtain ⟨s1, hok, l1', l2', hrep'⟩ := hrep.remove c x
    obtain ⟨s2, hnext, hrefines⟩ := hrep'.next
    rw [next_remove c hx] at hnext hrefines
    refine ⟨s1, s2, by rw [if_pos hremoved, hok], hnext, ?_⟩
    rw [if_pos hremoved, if_pos hremoved, append_nil]
    exact hrefines
  · obtain ⟨s2, hnext, hrefines⟩ := hrep.next
    refine ⟨s, s2, if_neg hremoved, hnext, ?_⟩
    rw [if_neg hremoved, if_neg hremoved, ListHandlers.destroy, ite_self, append_nil]
    exact hrefines

lemma visit_spec {kept rest destroyed : List α} (fuel : ℕ) (h : Refines s ⟨kept, rest, destroyed⟩)
    (hnodup : (kept ++ rest).Nodup) (hfuel : rest.length ≤ fuel) :
    ∃ s', s.visit c removed fuel rest.head? = .ok (rest, s') ∧
      Refines s' ⟨kept ++ rest.filter fun y => !removed y, [], destroyed ++ c.destroy (rest.filter removed)⟩ := by
  induction rest generalizing s kept destroyed fuel with
  | nil =>
    refine ⟨s, by cases fuel <;> rfl, ?_⟩
    rw [filter_nil, filter_nil, append_nil, ListHandlers.destroy, ite_self, append_nil]
    exact h
  | cons x rest ih =>
    cases fuel with
    | zero => exact absurd hfuel (not_succ_le_zero _)
    | succ fuel =>
      have hx : x ∉ kept := fun hmem => (disjoint_of_nodup_append hnodup) hmem mem_cons_self
      obtain ⟨s1, s2, hremove, hnext, hrefines⟩ := visit_step c removed hx h
      have hnodup' : (kept ++ (if removed x then [] else [x]) ++ rest).Nodup := by
        refine hnodup.sublist ?_
        rw [append_assoc]
        refine List.Sublist.append_left ?_ kept
        split
        · exact sublist_cons_self x rest
        · exact List.Sublist.refl _
      obtain ⟨s', hvisit, hrefines'⟩ := ih fuel hrefines hnodup' (le_of_succ_le_succ hfuel)
      refine ⟨s', ?_, ?_⟩
      · rw [head?_cons, Zlist.visit]
        by_cases hremoved : removed x = true
        · rw [if_pos hremoved] at hremove ⊢
          simp only [hremove, hnext, hvisit, bind, Except.bind]
        · rw [if_neg hremoved] at hremove ⊢
          obtain rfl := Except.ok.inj hremove
          simp only [hnext, hvisit, bind, Except.bind]
      · have hkept : kept ++ (if removed x then [] else [x]) ++ rest.filter (fun y => !removed y) =
            kept ++ (x :: rest).filter fun y => !removed y := by
          rw [append_assoc, filter_cons]
          cases removed x <;> rfl
        have hdestroyed : destroyed ++ c.destroy (if removed x then [x] else []) ++ c.destroy (rest.filter removed) =
            destroyed ++ c.destroy ((x :: rest).filter removed) := by
          rw [append_assoc, ← destroy_append, filter_cons]
          cases removed x <;> rfl
        rw [hkept, hdestroyed] at hrefines'
        exact hrefines'

lemma visitAll_spec (h : Refines s r) (hnodup : r.all.Nodup) :
    ∃ s', s.visitAll c removed s.size = .ok (r.all, s') ∧
      Refines s' ⟨r.all.filter fun y => !removed y, [], r.destroyed ++ c.destroy (r.all.filter removed)⟩ := by
  obtain ⟨l1, l2, hrep⟩ := h
  obtain ⟨s1, hfirst, hrep1⟩ := hrep.first
  have hlength : r.all.length = s.size := by rw [hrep.all_eq, length_map, hrep.listed.size]
  obtain ⟨s', hvisit, hrefines⟩ := visit_spec c removed s.size ⟨_, _, hrep1⟩ hnodup hlength.le
  refine ⟨s', ?_, hrefines⟩
  simp only [visitAll, hfirst, bind, bind]
  exact hvisit

/-- Head, tail, size and next-links of a list describe one finite list without a cycle, that of the items of a
sequence, and the cursor is at no node or at the one the cursor of the sequence is at. -/
structure Sound (s : Zlist α) (r : ItemList α) (nodes : List ℕ) : Prop where
  chain : IsChain ListNode.next s.heap s.head nodes
  nodup : nodes.Nodup
  tail : s.tail = nodes.getLast?
  size : s.size = nodes.length
  items : nodes.map (fun p => (s.heap p).map ListNode.item) = r.all.map some
  cursor : s.cursor = if r.after = [] then none else nodes[r.before.length]?
  freed : ∀ p n, s.heap p = some n → p ∈ nodes
  destroyed : s.destroyed = r.destroyed

omit [DecidableEq α] in
lemma Rep.sound {l1 l2 : List (ℕ × α)} (h : Rep s r l1 l2) :
    Sound s r ((l1 ++ l2).map Prod.fst) := by
  have hchain := isChain_heapOf h.listed.nodup
  rw [← h.listed.heap, ← h.listed.head] at hchain
  refine ⟨hchain, h.listed.nodup, h.listed.tail, ?_, ?_, ?_, fun p n hn => ?_, h.destroyed⟩
  · rw [h.listed.size, length_map]
  · rw [h.all_eq, map_map, map_map]
    refine map_congr_left fun cell hcell => ?_
    have hnodup := h.listed.nodup
    rw [comp_apply, h.listed.heap]
    obtain ⟨l, l', hl⟩ := append_of_mem hcell
    rw [hl] at hnodup ⊢
    rw [heapOf_eq hnodup]
    rfl
  · rw [h.cursor, h.after, h.before, length_map]
    cases l2 with
    | nil => rfl
    | cons cell l2 =>
      rw [map_cons, if_neg (cons_ne_nil _ _), map_append, getElem?_append_right (by rw [length_map]),
        length_map, Nat.sub_self]
      rfl
  · by_contra hp
    rw [h.listed.heap, heapOf_of_notMem hp] at hn
    cases hn

/-- **The list.** In every sequence of calls every call returns what it returns on a sequence with a cursor, and in the
end head, tail, size, links and cursor are those of the sequence. Whoever then goes through the list and removes some
of the items when they are visited, if no item is twice in it, visits each once and leaves the others. -/
theorem zlist_refines_sequence (ops : List (ZlistOp α)) :
    ∃ s nodes, runMachine (Zlist.step c) (Zlist.new α) ops =
        .ok ((runSpec (ItemList.step c) (ItemList.empty α) ops).1, s) ∧
      Sound s (runSpec (ItemList.step c) (ItemList.empty α) ops).2 nodes ∧
      ((runSpec (ItemList.step c) (ItemList.empty α) ops).2.all.Nodup → ∀ removed : α → Bool,
        ∃ s' nodes', s.visitAll c removed s.size =
            .ok ((runSpec (ItemList.step c) (ItemList.empty α) ops).2.all, s') ∧
          Sound s' ⟨(runSpec (ItemList.step c) (ItemList.empty α) ops).2.all.filter fun x => !removed x, [],
            (runSpec (ItemList.step c) (ItemList.empty α) ops).2.destroyed ++
              c.destroy ((runSpec (ItemList.step c) (ItemList.empty α) ops).2.all.filter removed)⟩ nodes') := by
  obtain ⟨s, hrun, hrefines⟩ := run_spec c ops
  obtain ⟨l1, l2, hrep⟩ := hrefines
  refine ⟨s, _, hrun, hrep.sound, fun hnodup removed => ?_⟩
  obtain ⟨s', hvisit, l1', l2', hrep'⟩ := visitAll_spec c removed ⟨l1, l2, hrep⟩ hnodup
  exact ⟨s', _, hvisit, hrep'.sound⟩

/-- Items are added, moved to and removed, and of the three that are left the first and the last are removed when they
are visited. -/
theorem zlist_refines_sequence_calls : ∃ s nodes, runMachine (Zlist.step (⟨true, none⟩ : ListHandlers ℕ))
      (Zlist.new ℕ) [.append 1, .append 2, .push 3, .first, .next, .remove 1, .item, .next, .append 4, .push 5, .pop] =
      .ok ([.status 0, .status 0, .status 0, .item (some 3), .item (some 1), .done, .item (some 3), .item (some 2),
        .status 0, .status 0, .item (some 5)], s) ∧
    Sound s ⟨[3, 2, 4], [], [1]⟩ nodes ∧
    ∃ s' nodes', s.visitAll ⟨true, none⟩ (fun x => x ≠ 2) s.size = .ok ([3, 2, 4], s') ∧
      Sound s' ⟨[2], [], [1, 3, 4]⟩ nodes' := by
  obtain ⟨s, nodes, hrun, hsound, hvisits⟩ := zlist_refines_sequence (⟨true, none⟩ : ListHandlers ℕ)
    [.append 1, .append 2, .push 3, .first, .next, .remove 1, .item, .next, .append 4, .push 5, .pop]
  have hspec : runSpec (ItemList.step (⟨true, none⟩ : ListHandlers ℕ)) (ItemList.empty ℕ)
      [.append 1, .append 2, .push 3, .first, .next, .remove 1, .item, .next, .append 4, .push 5, .pop] =
      ([.status 0, .status 0, .status 0, .item (some 3), .item (some 1), .done, .item (some 3), .item (some 2),
        .status 0, .status 0, .item (some 5)], ⟨[3, 2, 4], [], [1]⟩) := by decide
  rw [hspec] at hrun hsound hvisits
  exact ⟨s, nodes, hrun, hsound, hvisits (by decide) fun x => x ≠ 2⟩

end Runs

end Zlist

end Czmq
