import ZeroMQ.Czmq.ZringShape

/-!
# The ring refines a list with a cursor

What the ring is for: a list of elements and a cursor, which is at one of them or at none. Looking for an item
takes the cursor to it, and detaching an item takes out the element at which it has been found.

`zring_find` does not take the cursor to an item it has found behind the cursor or before it, and `zring_detach`
detaches the node at the cursor. A call that looks for an item misses if the item is in the ring but not at the
cursor. All other calls do on the ring what they do on the list.
-/

namespace Czmq

open Foundation List Nat Prod

/-- A list with a cursor: what is before the cursor and what is from it on. If nothing is, the cursor is at the
head. -/
structure Ring (α : Type) where
  before : List (Elem α)
  after : List (Elem α)
  /-- The items the destructor has been called on. -/
  destroyed : List α
  deriving DecidableEq

namespace Ring

variable {α : Type} [DecidableEq α] (c : RingHandlers α)

/-- The empty ring. -/
def empty (α : Type) : Ring α := ⟨[], [], []⟩

/-- All elements. -/
def all (r : Ring α) : List (Elem α) := r.before ++ r.after

/-- The item at the cursor. -/
def item (r : Ring α) : Option α := r.after.head?.map Elem.item

/-- The cursor goes to the first element with a property; if there is none it stays. -/
def search (r : Ring α) (f : Elem α → Bool) : Option α × Ring α :=
  match r.all.dropWhile fun e => !f e with
  | [] => (none, r)
  | e :: rest => (some e.item, { r with before := r.all.takeWhile fun e => !f e, after := e :: rest })

/-- Whether an element has the item that is looked for. -/
def equal (item : α) (e : Elem α) : Bool := c.equal e.item item

/-- The cursor goes to an item that is looked for, unless it is there already. -/
def find (r : Ring α) (item : α) : Option α × Ring α :=
  if r.after.head?.any (equal c item) then (r.item, r) else r.search (equal c item)

/-- The cursor goes to the element with a key. -/
def lookup (r : Ring α) (key : CString) : Option α × Ring α := r.search fun e => e.key = some key

/-- The element at the cursor is taken out. -/
def detachCursor (r : Ring α) : Option α × Ring α :=
  match r.after with
  | [] => (none, r)
  | e :: rest => (some e.item, { r with after := rest })

/-- An item that is looked for is taken out, or the one at the cursor. -/
def detach (r : Ring α) (item : Option α) : Option α × Ring α :=
  match item with
  | none => r.detachCursor
  | some x =>
    match r.find c x with
    | (none, _) => (none, r)
    | (some _, r) => r.detachCursor

/-- And it is destroyed. -/
def remove (r : Ring α) (item : Option α) : ℤ × Ring α :=
  match r.detach c item with
  | (none, r) => (-1, r)
  | (some x, r) => (0, if c.destructor then { r with destroyed := r.destroyed ++ [x] } else r)

/-- The element with a key is taken out and destroyed. -/
def delete (r : Ring α) (key : CString) : ℤ × Ring α :=
  match r.lookup key with
  | (none, _) => (-1, r)
  | (some _, r) => r.remove c none

/-- All elements are destroyed. -/
def purge (r : Ring α) : Ring α :=
  ⟨[], [], if c.destructor then r.destroyed ++ r.all.map Elem.item else r.destroyed⟩

/-- An element is added at the start. -/
def prepend (r : Ring α) (e : Elem α) : Ring α := { r with before := [], after := e :: r.all }

/-- An element is added at the end. -/
def append (r : Ring α) (e : Elem α) : Ring α := { r with before := r.all, after := [e] }

/-- The cursor goes forward, from the head to the first element and from the last one to the head. -/
def next (r : Ring α) : Ring α :=
  match r.after with
  | [] => { r with before := [], after := r.before }
  | e :: rest => { r with before := r.before ++ [e], after := rest }

/-- The cursor goes backward. -/
def prev (r : Ring α) : Ring α :=
  match r.before.getLast? with
  | none => { r with before := r.after, after := [] }
  | some e => { r with before := r.before.dropLast, after := e :: r.after }

/-- The cursor goes to the head. -/
def rewind (r : Ring α) : Ring α := { r with before := r.all, after := [] }

/-- What a call returns on a list with a cursor, and what it does to it. -/
def step (r : Ring α) : ZringOp α → ZringReply α × Ring α
  | .prepend item =>
    match c.duplicate item with
    | none => (.status (-1), r)
    | some x => (.status 0, r.prepend ⟨x, none⟩)
  | .append item =>
    match c.duplicate item with
    | none => (.status (-1), r)
    | some x => (.status 0, r.append ⟨x, none⟩)
  | .insert key item =>
    match c.duplicate item with
    | none => (.status (-1), r)
    | some x =>
      if r.all.any fun e => e.key = some key then (.status (-1), r)
      else
        match c.duplicate x with
        | none => (.status (-1), r)
        | some x => (.status 0, r.append ⟨x, some key⟩)
  | .find item => (.item (r.find c item).1, (r.find c item).2)
  | .lookup key => (.item (r.lookup key).1, (r.lookup key).2)
  | .detach item => (.item (r.detach c item).1, (r.detach c item).2)
  | .remove item => (.status (r.remove c item).1, (r.remove c item).2)
  | .delete key => (.status (r.delete c key).1, (r.delete c key).2)
  | .purge => (.done, r.purge c)
  | .size => (.size r.all.length, r)
  | .first => (.item r.rewind.next.item, r.rewind.next)
  | .last => (.item r.rewind.prev.item, r.rewind.prev)
  | .next => (.item r.next.item, r.next)
  | .prev => (.item r.prev.item, r.prev)
  | .item => (.item r.item, r)

/-- An item is in the ring, but not at the cursor. -/
def Elsewhere (r : Ring α) (item : α) : Prop :=
  r.all.any (equal c item) = true ∧ r.after.head?.any (equal c item) = false

/-- A call misses: it looks for an item that is not at the cursor but elsewhere in the ring. -/
def Misses (r : Ring α) : ZringOp α → Prop
  | .find item => r.Elsewhere c item
  | .detach (some item) => r.Elsewhere c item
  | .remove (some item) => r.Elsewhere c item
  | _ => False

instance (r : Ring α) (item : α) : Decidable (r.Elsewhere c item) := inferInstanceAs (Decidable (_ ∧ _))

instance (r : Ring α) (op : ZringOp α) : Decidable (r.Misses c op) := by
  unfold Misses
  split <;> infer_instance

/-! ### What looking for an item does -/

section Search

variable {c} {r : Ring α}

omit [DecidableEq α] in
lemma search_cases (r : Ring α) (f : Elem α → Bool) :
    (∃ l1 e l2, r.all = l1 ++ e :: l2 ∧ (∀ x ∈ l1, f x = false) ∧ f e = true ∧
      r.search f = (some e.item, { r with before := l1, after := e :: l2 })) ∨
    (∀ e ∈ r.all, f e = false) ∧ r.search f = (none, r) := by
  rw [search]
  have hsplit := takeWhile_append_dropWhile (p := fun e => !f e) (l := r.all)
  cases hdrop : r.all.dropWhile fun e => !f e with
  | nil =>
    refine .inr ⟨fun e he => ?_, rfl⟩
    simpa using dropWhile_eq_nil_iff.mp hdrop e he
  | cons e rest =>
    rw [hdrop] at hsplit
    refine .inl ⟨_, e, rest, hsplit.symm, fun x hx => ?_, ?_, rfl⟩
    · simpa using mem_takeWhile_imp hx
    · have hhead := head?_dropWhile_not (fun e => !f e) r.all
      rw [hdrop] at hhead
      simpa using hhead

omit [DecidableEq α] in
lemma search_fst (r : Ring α) (f : Elem α → Bool) : (r.search f).1 = (r.all.find? f).map Elem.item := by
  rcases r.search_cases f with ⟨l1, e, l2, hall, hnot, he, hsearch⟩ | ⟨hnot, hsearch⟩
  · have hfind : r.all.find? f = some e := by
      rw [hall]
      exact find?_eq_some_iff_append.mpr ⟨he, l1, l2, rfl, fun x hx => by rw [hnot x hx]; rfl⟩
    rw [hsearch, hfind]
    rfl
  · have hfind : r.all.find? f = none := find?_eq_none.mpr fun e he => by rw [hnot e he]; exact Bool.false_ne_true
    rw [hsearch, hfind]
    rfl

lemma find_cases (c : RingHandlers α) (r : Ring α) (item : α) :
    (∃ l1 e l2, r.all = l1 ++ e :: l2 ∧ equal c item e = true ∧
      r.find c item = (some e.item, { r with before := l1, after := e :: l2 })) ∨
    (∀ e ∈ r.all, equal c item e = false) ∧ r.find c item = (none, r) := by
  rw [find]
  by_cases hhere : r.after.head?.any (equal c item) = true
  · rw [if_pos hhere]
    obtain ⟨before, after, destroyed⟩ := r
    cases after with
    | nil => cases hhere
    | cons e rest => exact .inl ⟨before, e, rest, rfl, hhere, rfl⟩
  · rw [if_neg hhere]
    rcases r.search_cases (equal c item) with ⟨l1, e, l2, hall, -, he, hsearch⟩ | hnone
    · exact .inl ⟨l1, e, l2, hall, he, hsearch⟩
    · exact .inr hnone

lemma find_of_not_elsewhere {item : α} (h : ¬ r.Elsewhere c item) : (r.find c item).2 = r := by
  rw [find]
  by_cases hhere : r.after.head?.any (equal c item) = true
  · rw [if_pos hhere]
  rw [if_neg hhere]
  have hnone : r.all.any (equal c item) = false :=
    Bool.eq_false_iff.mpr fun hany => h ⟨hany, Bool.eq_false_iff.mpr hhere⟩
  rcases r.search_cases (equal c item) with ⟨l1, e, l2, hall, -, he, -⟩ | ⟨-, hsearch⟩
  · rw [hall, any_append, any_cons, he, Bool.true_or, Bool.or_true] at hnone
    cases hnone
  · rw [hsearch]

lemma remove_here (before rest : List (Elem α)) (destroyed : List α) {e : Elem α} {item : α}
    (h : equal c item e = true) :
    (⟨before, e :: rest, destroyed⟩ : Ring α).remove c (some item) =
      (0, ⟨before, rest, if c.destructor then destroyed ++ [e.item] else destroyed⟩) := by
  have hfind : (⟨before, e :: rest, destroyed⟩ : Ring α).find c item =
      (some e.item, ⟨before, e :: rest, destroyed⟩) := if_pos h
  simp only [remove, detach, hfind, detachCursor]
  cases c.destructor <;> rfl

end Search

end Ring

/-! ### The ring and the list -/

namespace Zring

variable {α : Type}

/-- The ring has the elements of the list in the cells before the cursor and in those from it on. -/
structure Rep (primes : List ℕ) (s : Zring α) (r : Ring α) (l₁ l₂ : List (ℕ × Elem α)) : Prop where
  keeps : Keeps primes s (l₁ ++ l₂)
  before : r.before = l₁.map Prod.snd
  after : r.after = l₂.map Prod.snd
  cursor : s.cursor = (l₂.map Prod.fst).headD s.head
  destroyed : s.destroyed = r.destroyed

/-- The ring has the elements of the list, and the cursor of the list. -/
def Refines (primes : List ℕ) (s : Zring α) (r : Ring α) : Prop := ∃ l₁ l₂, Rep primes s r l₁ l₂

section Rep

variable {primes : List ℕ} {s s' : Zring α} {r : Ring α} {cells l₁ l₂ : List (ℕ × Elem α)} {p : ℕ}

lemma refines_new : Refines primes (Zring.new α) (Ring.empty α) := ⟨[], [], keeps_new, rfl, rfl, rfl, rfl⟩

lemma Rep.all_eq (h : Rep primes s r l1 l2) : r.all = (l1 ++ l2).map snd := by
  rw [Ring.all, h.before, h.after, map_append]

lemma Rep.move (h : Rep primes s r l1 l2) (l1' l2' : List (ℕ × Elem α)) (hl : l1' ++ l2' = l1 ++ l2)
    (hp : p = (l2'.map fst).headD s.head) :
    Rep primes { s with cursor := p } { r with before := l1'.map snd, after := l2'.map snd } l1' l2' where
  keeps := by
    rw [hl]
    exact h.keeps.of_eq rfl rfl rfl rfl rfl
  before := rfl
  after := rfl
  cursor := hp
  destroyed := h.destroyed

lemma Keeps.node (h : Keeps primes s cells) (hp : p ∈ s.head :: cells.map fst) :
    ∃ x, s.node p = .ok x ∧ nextOf s.heap p = some x.next ∧ prevOf s.heap p = some x.prev ∧
      contentOf s.heap p = some (x.item, x.key) := by
  obtain ⟨c, hc⟩ := h.content hp
  obtain ⟨n, m, hn, hm, -⟩ := (views s.heap).heap_eq hc
  exact ⟨⟨n, m, c.1, c.2⟩, (views s.heap).node hc hn hm, hn, hm, hc⟩

lemma Rep.cursor_mem (h : Rep primes s r l1 l2) : s.cursor ∈ s.head :: (l1 ++ l2).map fst := by
  rw [h.cursor]
  cases l2 with
  | nil => exact mem_cons_self
  | cons c l2 =>
    rw [map_append]
    exact mem_cons_of_mem _ (mem_append_right _ mem_cons_self)

lemma Rep.node (h : Rep primes s r l1 l2) :
    ∃ x, s.node s.cursor = .ok x ∧ x.prev = (l1.map fst).getLastD s.head ∧
      (l2 = [] → s.cursor = s.head ∧ x.item = none ∧ x.next = (l1.map fst).headD s.head) ∧
      ∀ p e rest, l2 = (p, e) :: rest → s.cursor ≠ s.head ∧ x.item = some e.item ∧
        x.next = (rest.map fst).headD s.head := by
  obtain ⟨x, hok, hnext, hprev, hcontent⟩ := h.keeps.node h.cursor_mem
  obtain ⟨-, hprev', -⟩ := h.keeps.at_gap rfl rfl
  rw [← h.cursor, hprev] at hprev'
  refine ⟨x, hok, Option.some.inj hprev', fun hnil => ?_, fun p e rest hcons => ?_⟩
  · subst hnil
    have hhead : s.cursor = s.head := h.cursor
    rw [hhead] at hnext hcontent
    have hkeeps : Keeps primes s ([] ++ l1) := by
      have hkeeps := h.keeps
      rwa [append_nil] at hkeeps
    obtain ⟨hnext', -⟩ := hkeeps.at_gap rfl rfl
    have htop := h.keeps.linked.top
    rw [hcontent] at htop
    exact ⟨hhead, congrArg fst (Option.some.inj htop), Option.some.inj (hnext.symm.trans hnext')⟩
  · subst hcons
    have hp : s.cursor = p := h.cursor
    rw [hp] at hnext hcontent
    obtain ⟨key, hcontent', -⟩ := h.keeps.linked.carries p e (mem_append_right _ mem_cons_self)
    have hkeeps : Keeps primes s ((l1 ++ [(p, e)]) ++ rest) := by
      rw [append_assoc, singleton_append]
      exact h.keeps
    obtain ⟨hnext', -⟩ := hkeeps.at_gap rfl rfl
    rw [map_append, map_singleton, getLastD_concat] at hnext'
    rw [hcontent] at hcontent'
    refine ⟨?_, congrArg fst (Option.some.inj hcontent'), Option.some.inj (hnext.symm.trans hnext')⟩
    rw [hp]
    exact h.keeps.linked.ne.1

/-! ### Moving the cursor -/

lemma Rep.item (h : Rep primes s r l1 l2) : s.item = .ok r.item := by
  obtain ⟨x, hok, -, hnil, hcons⟩ := h.node
  rw [Zring.item, Ring.item, h.after]
  cases l2 with
  | nil =>
    rw [if_neg (not_not.mpr (hnil rfl).1)]
    rfl
  | cons c rest =>
    obtain ⟨hne, hitem, -⟩ := hcons c.1 c.2 rest rfl
    rw [if_pos hne, hok]
    exact congrArg Except.ok hitem

lemma next_spec (h : Refines primes s r) : ∃ s', s.next = .ok (r.next.item, s') ∧ Refines primes s' r.next := by
  obtain ⟨l1, l2, h⟩ := h
  obtain ⟨x, hok, -, hnil, hcons⟩ := h.node
  have hrep : ∃ l1' l2', Rep primes { s with cursor := x.next } r.next l1' l2' := by
    rw [Ring.next, h.after]
    cases l2 with
    | nil =>
      refine ⟨[], l1, ?_⟩
      rw [map_nil, h.before]
      exact h.move [] l1 (append_nil _).symm (hnil rfl).2.2
    | cons c rest =>
      refine ⟨l1 ++ [c], rest, ?_⟩
      have hmoved := h.move (l1 ++ [c]) rest (by rw [append_assoc, singleton_append]) (hcons c.1 c.2 rest rfl).2.2
      rw [map_append, ← h.before] at hmoved
      exact hmoved
  obtain ⟨l1', l2', hrep⟩ := hrep
  refine ⟨_, ?_, l1', l2', hrep⟩
  simp only [Zring.next, hok, hrep.item, bind, Except.bind]

lemma prev_spec (h : Refines primes s r) : ∃ s', s.prev = .ok (r.prev.item, s') ∧ Refines primes s' r.prev := by
  obtain ⟨l1, l2, h⟩ := h
  obtain ⟨x, hok, hprev, -⟩ := h.node
  have hrep : ∃ l1' l2', Rep primes { s with cursor := x.prev } r.prev l1' l2' := by
    rw [Ring.prev, h.before]
    rcases eq_nil_or_concat l1 with rfl | ⟨l, c, rfl⟩
    · refine ⟨l2, [], ?_⟩
      rw [map_nil, h.after]
      exact h.move l2 [] (append_nil _) hprev
    · rw [concat_eq_append] at h hprev ⊢
      rw [map_append, map_singleton, getLastD_concat] at hprev
      refine ⟨l, c :: l2, ?_⟩
      rw [map_append, map_singleton, getLast?_concat, dropLast_concat, h.after]
      exact h.move l (c :: l2) (by rw [append_assoc, singleton_append]) hprev
  obtain ⟨l1', l2', hrep⟩ := hrep
  refine ⟨_, ?_, l1', l2', hrep⟩
  simp only [Zring.prev, hok, hrep.item, bind, Except.bind]

lemma Refines.rewind (h : Refines primes s r) : Refines primes { s with cursor := s.head } r.rewind := by
  obtain ⟨l1, l2, h⟩ := h
  refine ⟨l1 ++ l2, [], ?_⟩
  rw [Ring.rewind, h.all_eq]
  exact h.move (l1 ++ l2) [] (append_nil _) rfl

lemma Added.refines (h : Rep primes s r l1 l2) {k1 k2 : List (ℕ × Elem α)} {x : α}
    (hadded : Added primes s s' k1 k2 x) {r' : Ring α} (hbefore : r'.before = k1.map snd)
    (hafter : r'.after = ⟨x, none⟩ :: k2.map snd) (hdestroyed : r'.destroyed = r.destroyed) :
    Rep primes s' r' k1 ((s'.cursor, ⟨x, none⟩) :: k2) where
  keeps := hadded.keeps
  before := hbefore
  after := hafter
  cursor := rfl
  destroyed := by rw [hadded.destroyed, h.destroyed, hdestroyed]

variable (c : RingHandlers α)

lemma Rep.append (h : Rep primes s r l1 l2) {item x : α} (hitem : c.duplicate item = some x) :
    ∃ s', s.append c item = .ok (0, s') ∧ s'.hash = s.hash ∧
      Rep primes s' (r.append ⟨x, none⟩) (l1 ++ l2) [(s'.cursor, ⟨x, none⟩)] := by
  obtain ⟨s', hok, hadded⟩ := append_spec c h.keeps hitem
  exact ⟨s', hok, hadded.hash, hadded.refines h h.all_eq rfl rfl⟩

lemma Rep.prepend (h : Rep primes s r l1 l2) {item x : α} (hitem : c.duplicate item = some x) :
    ∃ s', s.prepend c item = .ok (0, s') ∧ Refines primes s' (r.prepend ⟨x, none⟩) := by
  obtain ⟨s', hok, hadded⟩ := prepend_spec c h.keeps hitem
  exact ⟨s', hok, _, _, hadded.refines h rfl (congrArg (List.cons _) h.all_eq) rfl⟩

/-! ### The dictionary -/

variable {hash hash' : Zhash CString ℕ}

lemma Keeps.lookup (h : Keeps primes s cells) (hhash : s.hash = some hash)
    {m : Finmap fun _ : CString => ℕ} (hstores : Zhash.Stores primes bernsteinHash hash m) (key : CString) :
    m.lookup key = some p ↔ ∃ e, (p, e) ∈ cells ∧ e.key = some key := by
  obtain ⟨chains, hshape⟩ := hstores
  have hlinked := h.linked
  rw [hhash] at hlinked
  rw [hshape.holds.content]
  constructor
  · rintro ⟨q, hq⟩
    exact hlinked.of_dict hq
  · rintro ⟨e, hcell, hkey⟩
    exact hlinked.to_dict hcell hkey

lemma Keeps.kept (h : Keeps primes s cells) (hhash : s.hash = some hash)
    (hkept : Zhash.Kept hash hash') (hstores : ∃ m, Zhash.Stores primes bernsteinHash hash' m) :
    Keeps primes { s with hash := some hash' } cells := by
  obtain ⟨hlinked, hsize, -, hfresh⟩ := h
  refine ⟨?_, hsize, fun h heq => ?_, hfresh⟩
  · have hsame : dictOf (some hash') = dictOf s.hash := by
      rw [hhash]
      exact funext hkept.entry
    rw [hsame]
    exact hlinked
  · obtain rfl := Option.some.inj heq
    exact hstores

lemma Rep.lookupHash (hprimes : Zhash.Narrow primes) (h : Rep primes s r l1 l2)
    (hhash : s.hash = some hash) (key : CString) :
    Yields (hash.lookup primes bernsteinHash key)
      (fun out => Rep primes { s with hash := some out.2 } r l1 l2 ∧
        ∀ p, out.1 = some p ↔ ∃ e, (p, e) ∈ l1 ++ l2 ∧ e.key = some key)
      (· = .exhausted) := by
  obtain ⟨m, hstores⟩ := h.keeps.hash hash hhash
  have hlookup : ∀ p, m.lookup key = some p ↔ ∃ e, (p, e) ∈ l1 ++ l2 ∧ e.key = some key := fun p =>
    h.keeps.lookup hhash hstores key
  obtain ⟨chains, hshape⟩ := hstores
  refine (Zhash.lookup_spec hprimes.allocatable hshape key).mono fun out ⟨hfound, hkept, hstores⟩ => ⟨?_, fun p => ?_⟩
  · exact ⟨h.keeps.kept hhash hkept ⟨m, hstores⟩, h.before, h.after, h.cursor, h.destroyed⟩
  · rw [hfound]
    exact hlookup p

lemma lookup_spec (hprimes : Zhash.Narrow primes) (h : Refines primes s r) (key : CString) :
    Yields (s.lookup primes key)
      (fun out => out.1 = (r.lookup key).1 ∧ Refines primes out.2 (r.lookup key).2) (· = .exhausted) := by
  obtain ⟨l1, l2, h⟩ := h
  rw [Zring.lookup, Ring.lookup]
  cases hhash : s.hash with
  | none =>
    rcases r.search_cases fun e => e.key = some key with ⟨k1, e, k2, hall, -, he, -⟩ | ⟨-, hsearch⟩
    · have hmem : e ∈ (l1 ++ l2).map snd := by
        rw [← h.all_eq, hall]
        exact mem_append_right _ mem_cons_self
      obtain ⟨⟨p, e⟩, hcell, rfl⟩ := mem_map.mp hmem
      obtain ⟨q, hq⟩ := h.keeps.linked.to_dict hcell (of_decide_eq_true he)
      rw [hhash] at hq
      cases hq
    · rw [hsearch]
      exact ⟨rfl, l1, l2, h⟩
  | some hash =>
    refine (h.lookupHash hprimes hhash key).bind fun ⟨found, hash'⟩ ⟨hrep, hfound⟩ => ?_
    rcases r.search_cases fun e => e.key = some key with ⟨k1, e, k2, hall, -, he, hsearch⟩ | ⟨hnone, hsearch⟩
    · -- The cell of the first element with the key is the one the dictionary leads to.
      rw [h.all_eq, map_eq_append_iff] at hall
      obtain ⟨c1, rest, hcells, rfl, hrest⟩ := hall
      obtain ⟨⟨p, e⟩, c2, rfl, rfl, rfl⟩ := map_eq_cons_iff.mp hrest
      have hcell : (p, e) ∈ l1 ++ l2 := by
        rw [hcells]
        exact mem_append_right _ mem_cons_self
      obtain rfl : found = some p := (hfound p).mpr ⟨e, hcell, of_decide_eq_true he⟩
      obtain ⟨x, hok, -, -, hcontent⟩ := hrep.keeps.node (p := p)
        (mem_cons_of_mem _ (mem_map.mpr ⟨(p, e), hcell, rfl⟩))
      obtain ⟨key', hcontent', -⟩ := hrep.keeps.linked.carries p e hcell
      rw [hcontent'] at hcontent
      have hitem : some e.item = x.item := congrArg fst (Option.some.inj hcontent)
      simp only [hok, bind, Except.bind, hsearch]
      exact ⟨hitem.symm, c1, (p, e) :: c2, hrep.move c1 ((p, e) :: c2) hcells.symm rfl⟩
    · cases found with
      | none =>
        rw [hsearch]
        exact ⟨rfl, l1, l2, hrep⟩
      | some p =>
        obtain ⟨e, hcell, hkey⟩ := (hfound p).mp rfl
        have hnot := hnone e (by rw [h.all_eq]; exact mem_map.mpr ⟨(p, e), hcell, rfl⟩)
        exact absurd hkey (of_decide_eq_false hnot)

lemma Rep.any_key (h : Rep primes s r l1 l2) (key : CString) :
    (r.all.any fun e => e.key = some key) = true ↔ ∃ p e, (p, e) ∈ l1 ++ l2 ∧ e.key = some key := by
  rw [h.all_eq, any_eq_true]
  constructor
  · rintro ⟨e, he, hkey⟩
    obtain ⟨⟨p, e⟩, hcell, rfl⟩ := mem_map.mp he
    exact ⟨p, e, hcell, of_decide_eq_true hkey⟩
  · rintro ⟨p, e, hcell, hkey⟩
    exact ⟨e, mem_map.mpr ⟨(p, e), hcell, rfl⟩, decide_eq_true hkey⟩

lemma Rep.withHash (hne : primes ≠ []) (h : Rep primes s r l1 l2) :
    Rep primes { s with hash := some (s.hash.getD (Zhash.new CString ℕ)) } r l1 l2 := by
  refine ⟨⟨?_, h.keeps.size, fun hash heq => ?_, h.keeps.fresh⟩, h.before, h.after, h.cursor, h.destroyed⟩
  · have hsame : dictOf (some (s.hash.getD (Zhash.new CString ℕ))) = dictOf s.hash := by cases s.hash <;> rfl
    rw [hsame]
    exact h.keeps.linked
  · obtain rfl := Option.some.inj heq
    cases hhash : s.hash with
    | none => exact ⟨∅, Zhash.stores_new hne⟩
    | some hash => exact h.keeps.hash hash hhash

lemma Rep.addKey (hprimes : Zhash.Narrow primes) {x : α} {key : CString}
    (h : Rep primes s (r.append ⟨x, none⟩) cells [(s.cursor, ⟨x, none⟩)]) (hhash : s.hash = some hash)
    (hnew : ∀ p e, (p, e) ∈ cells → e.key ≠ some key) :
    Yields (hash.insert primes bernsteinHash key s.cursor)
      (fun out => out.1 = 0 ∧
        ∃ s', ({ s with hash := some out.2 } : Zring α).setKey s.cursor out.2.cursorItem = .ok s' ∧
        Refines primes s' (r.append ⟨x, some key⟩))
      (· = .exhausted) := by
  obtain ⟨m, hstores⟩ := h.keeps.hash hash hhash
  have hkey : key ∉ m := by
    intro hmem
    obtain ⟨p, hp⟩ := Finmap.mem_iff.mp hmem
    obtain ⟨e, hcell, hkey⟩ := (h.keeps.lookup hhash hstores key).mp hp
    rcases mem_append.mp hcell with hcell | hcell
    · exact hnew p e hcell hkey
    · obtain ⟨-, rfl⟩ := Prod.mk.inj (mem_singleton.mp hcell)
      cases hkey
  obtain ⟨chains, hshape⟩ := hstores
  refine (Zhash.insert_spec hprimes.allocatable hshape key s.cursor).mono fun out ⟨_, hinserted⟩ => ?_
  obtain ⟨hout, hshape', -, q, hq, hentry, hcursor⟩ := hinserted hkey
  have hlinked := h.keeps.linked
  rw [hhash] at hlinked
  obtain ⟨key', hcontent, hkeyOf⟩ := hlinked.carries s.cursor ⟨x, none⟩ (mem_append_right _ mem_cons_self)
  cases key' with
  | some q' => exact hkeyOf.elim
  | none =>
    obtain ⟨heap, hok, hviews⟩ := Views.setKey (s := { s with hash := some out.2 }) (views s.heap) hcontent (some q)
    refine ⟨hout, { s with hash := some out.2, heap }, by rw [hcursor]; exact hok, cells, [(s.cursor, ⟨x, some key⟩)],
      ⟨?_, ?_, fun hash' heq => ?_, fun p hp => ?_⟩, h.before, rfl, rfl, h.destroyed⟩
    · have hadded := hlinked.addKey hq key
      have hdict : Function.update (dictOf (some hash)) q (some (key, s.cursor)) = dictOf (some out.2) := hentry.symm
      rw [← hviews.next, ← hviews.prev, ← hviews.content, hdict] at hadded
      exact hadded
    · have hsize := h.keeps.size
      rw [length_append, length_singleton] at hsize ⊢
      exact hsize
    · obtain rfl : out.2 = hash' := Option.some.inj heq
      exact ⟨_, hshape'⟩
    · have hfree := h.keeps.fresh p hp
      have hne : p ≠ s.cursor := by
        rintro rfl
        rw [hcontent] at hfree
        cases hfree
      rw [hviews.content, Function.update_of_ne hne]
      exact hfree

lemma insert_spec [DecidableEq α] (hprimes : Zhash.Narrow primes) (hne : primes ≠ []) (h : Refines primes s r)
    (key : CString) (item : α) :
    Yields (s.insert c primes key item)
      (fun out => .status out.1 = (r.step c (.insert key item)).1 ∧
        Refines primes out.2 (r.step c (.insert key item)).2)
      (· = .exhausted) := by
  obtain ⟨l1, l2, h⟩ := h
  have h0 := h.withHash hne
  rw [Zring.insert, Ring.step]
  cases hitem : c.duplicate item with
  | none => exact ⟨rfl, l1, l2, h0⟩
  | some x =>
    refine (h0.lookupHash hprimes rfl key).bind fun looked hlooked => ?_
    obtain ⟨found, hash1⟩ := looked
    obtain ⟨h1, hfound⟩ := hlooked
    have hany := h.any_key key
    cases found with
    | some p =>
      obtain ⟨e, hcell, hkey⟩ := (hfound p).mp rfl
      dsimp only
      rw [if_pos (hany.mpr ⟨p, e, hcell, hkey⟩)]
      exact ⟨rfl, l1, l2, h1⟩
    | none =>
      have hnone : ∀ p e, (p, e) ∈ l1 ++ l2 → e.key ≠ some key := fun p e hcell hkey => by
        have hsome := (hfound p).mpr ⟨e, hcell, hkey⟩
        cases hsome
      have hnot : ¬ (r.all.any fun e => e.key = some key) = true := fun htrue => by
        obtain ⟨p, e, hcell, hkey⟩ := hany.mp htrue
        exact hnone p e hcell hkey
      dsimp only
      rw [if_neg hnot]
      cases hx : c.duplicate x with
      | none =>
        simp only [Zring.append, hx, bind, Except.bind]
        exact ⟨rfl, l1, l2, h1⟩
      | some y =>
        obtain ⟨s2, hok, hhash, h2⟩ := h1.append c hx
        simp only [hok, bind, Except.bind, ne_eq, not_true_eq_false, if_false]
        refine (h2.addKey hprimes hhash hnone).bind fun added hadded => ?_
        obtain ⟨inserted, hash3⟩ := added
        obtain ⟨hinserted, s3, hok3, h3⟩ := hadded
        obtain rfl : inserted = 0 := hinserted
        simp only [not_true_eq_false, if_false, hok3]
        exact ⟨rfl, h3⟩

variable [DecidableEq α]

lemma scan_spec (h : Keeps primes s (l1 ++ l2)) (item : α) (fuel : ℕ) (hfuel : l2.length ≤ fuel) :
    s.scan c item fuel ((l2.map fst).headD s.head) =
      .ok (((l2.map snd).find? (Ring.equal c item)).map Elem.item) := by
  induction l2 generalizing l1 fuel with
  | nil =>
    have hhead : (([] : List (ℕ × Elem α)).map fst).headD s.head = s.head := rfl
    rw [hhead]
    cases fuel <;> exact if_pos rfl
  | cons cell rest ih =>
    obtain ⟨p, e⟩ := cell
    cases fuel with
    | zero => exact absurd hfuel (not_succ_le_zero _)
    | succ fuel =>
      have h' : Keeps primes s ((l1 ++ [(p, e)]) ++ rest) := by rwa [append_assoc, singleton_append]
      have hmem : p ∈ s.head :: (l1 ++ (p, e) :: rest).map fst := by
        rw [map_append]
        exact mem_cons_of_mem _ (mem_append_right _ mem_cons_self)
      obtain ⟨x, hok, hnext, -, hcontent⟩ := h.node hmem
      obtain ⟨hnext', -⟩ := h'.at_gap rfl rfl
      rw [map_append, map_singleton, getLastD_concat, hnext] at hnext'
      obtain ⟨key, hcontent', -⟩ := h.linked.carries p e (mem_append_right _ mem_cons_self)
      rw [hcontent] at hcontent'
      have hitem : x.item = some e.item := congrArg fst (Option.some.inj hcontent')
      have hequal : c.equalAt x item = Ring.equal c item e := by rw [RingHandlers.equalAt, hitem]; rfl
      have hhead : (((p, e) :: rest).map fst).headD s.head = p := rfl
      rw [hhead, scan, if_neg h.linked.ne.1, map_cons, find?_cons]
      simp only [hok, bind, Except.bind, hequal]
      cases Ring.equal c item e with
      | true => exact congrArg Except.ok hitem
      | false =>
        rw [Option.some.inj hnext']
        exact ih h' fuel (le_of_succ_le_succ hfuel)

lemma find_spec (h : Rep primes s r l1 l2) (item : α) : s.find c item = .ok (r.find c item).1 := by
  obtain ⟨x, hok, -, hnil, hcons⟩ := h.node
  have hhere : (s.cursor ≠ s.head ∧ c.equalAt x item = true) ↔ r.after.head?.any (Ring.equal c item) = true := by
    rw [h.after]
    cases l2 with
    | nil => exact ⟨fun hboth => absurd (hnil rfl).1 hboth.1, fun hnone => (by cases hnone)⟩
    | cons cell rest =>
      obtain ⟨hne, hitem, -⟩ := hcons cell.1 cell.2 rest rfl
      have hequal : c.equalAt x item = Ring.equal c item cell.2 := by rw [RingHandlers.equalAt, hitem]; rfl
      rw [hequal]
      exact ⟨fun hboth => hboth.2, fun heq => ⟨hne, heq⟩⟩
  have hitem : r.after.head?.any (Ring.equal c item) = true → x.item = r.item := fun hany => by
    rw [h.after] at hany
    rw [Ring.item, h.after]
    cases l2 with
    | nil => cases hany
    | cons cell rest => exact (hcons cell.1 cell.2 rest rfl).2.1
  obtain ⟨y, hy, hfirst, -⟩ := h.keeps.node mem_cons_self
  have hkeeps : Keeps primes s ([] ++ (l1 ++ l2)) := h.keeps
  obtain ⟨hfirst', -⟩ := hkeeps.at_gap rfl rfl
  rw [map_nil, getLastD_nil, hfirst] at hfirst'
  have hscan := scan_spec c hkeeps item s.size h.keeps.size.ge
  rw [← Option.some.inj hfirst', ← h.all_eq] at hscan
  simp only [Zring.find, hok, hy, bind, Except.bind, Ring.find]
  by_cases hany : r.after.head?.any (Ring.equal c item) = true
  · rw [if_pos (hhere.mpr hany), if_pos hany, hitem hany]
  · rw [if_neg (hhere.not.mpr hany), if_neg hany, hscan, Ring.search_fst]

/-! ### Taking items out -/

omit [DecidableEq α] in
lemma Rep.detachCursor (hprimes : Zhash.Narrow primes) {e : Elem α} {rest : List (ℕ × Elem α)}
    (h : Rep primes s r l1 ((p, e) :: rest)) :
    Yields (s.detachCursor primes)
      (fun out => out.1 = r.detachCursor.1 ∧ Refines primes out.2 r.detachCursor.2) (· = .exhausted) := by
  have hafter : r.after = e :: rest.map snd := h.after
  refine (detachCursor_spec hprimes h.keeps h.cursor).mono fun out ⟨hitem, hkeeps, hcursor, hhead, hdestroyed⟩ => ?_
  rw [Ring.detachCursor, hafter]
  refine ⟨hitem, l1, rest, hkeeps, h.before, rfl, ?_, hdestroyed.trans h.destroyed⟩
  rw [hcursor, hhead]

lemma detach_spec (hprimes : Zhash.Narrow primes) (h : Refines primes s r) (item : Option α)
    (hgood : ∀ x, item = some x → ¬ r.Elsewhere c x) :
    Yields (s.detach c primes item)
      (fun out => out.1 = (r.detach c item).1 ∧ Refines primes out.2 (r.detach c item).2) (· = .exhausted) := by
  obtain ⟨l1, l2, h⟩ := h
  cases item with
  | none =>
    obtain ⟨x, -, -, hnil, hcons⟩ := h.node
    have hdetach : r.detach c none = r.detachCursor := rfl
    simp only [Zring.detach, toDetach, hdetach, bind, Except.bind]
    cases l2 with
    | nil =>
      rw [if_neg (by rw [decide_eq_true_eq, not_not]; exact (hnil rfl).1), Ring.detachCursor, h.after]
      exact ⟨rfl, l1, [], h⟩
    | cons cell rest =>
      rw [if_pos (decide_eq_true (hcons cell.1 cell.2 rest rfl).1)]
      exact h.detachCursor hprimes
  | some item =>
    have hsame := Ring.find_of_not_elsewhere (hgood item rfl)
    simp only [Zring.detach, toDetach, find_spec c h item, Except.map, bind, Except.bind]
    rcases r.find_cases c item with ⟨k1, e, k2, -, -, hfind⟩ | ⟨-, hfind⟩
    · -- The item is at the cursor.
      rw [hfind] at hsame
      have hafter : r.after = e :: k2 := by rw [← hsame]
      have hdetach : r.detach c (some item) = r.detachCursor := by
        simp only [Ring.detach, hfind]
        exact congrArg Ring.detachCursor hsame
      rw [hfind, hdetach]
      cases l2 with
      | nil =>
        rw [h.after] at hafter
        cases hafter
      | cons cell rest => exact h.detachCursor hprimes
    · have hdetach : r.detach c (some item) = (none, r) := by simp only [Ring.detach, hfind]
      rw [hfind, hdetach]
      exact ⟨rfl, l1, l2, h⟩

lemma remove_spec (hprimes : Zhash.Narrow primes) (h : Refines primes s r) (item : Option α)
    (hgood : ∀ x, item = some x → ¬ r.Elsewhere c x) :
    Yields (s.remove c primes item)
      (fun out => out.1 = (r.remove c item).1 ∧ Refines primes out.2 (r.remove c item).2) (· = .exhausted) := by
  refine (detach_spec c hprimes h item hgood).bind fun ⟨x, s1⟩ ⟨hitem, l1, l2, h1⟩ => ?_
  rw [Ring.remove]
  cases hr : r.detach c item with
  | mk y r1 =>
    rw [hr] at hitem h1
    obtain rfl : x = y := hitem
    cases x with
    | none => exact ⟨rfl, l1, l2, h1⟩
    | some x =>
      refine ⟨rfl, l1, l2, ?_⟩
      split
      · exact ⟨h1.keeps.of_eq rfl rfl rfl rfl rfl, h1.before, h1.after, h1.cursor, congrArg (· ++ [x]) h1.destroyed⟩
      · exact h1

lemma delete_spec (hprimes : Zhash.Narrow primes) (h : Refines primes s r) (key : CString) :
    Yields (s.delete c primes key)
      (fun out => out.1 = (r.delete c key).1 ∧ Refines primes out.2 (r.delete c key).2) (· = .exhausted) := by
  refine (lookup_spec hprimes h key).bind fun ⟨x, s1⟩ ⟨hitem, h1⟩ => ?_
  have hcases := r.search_cases fun e => e.key = some key
  rw [← Ring.lookup] at hcases
  rw [Ring.delete]
  rcases hcases with ⟨k1, e, k2, -, -, -, hlookup⟩ | ⟨-, hlookup⟩
  · rw [hlookup] at hitem h1 ⊢
    obtain rfl : x = some e.item := hitem
    exact remove_spec c hprimes h1 none nofun
  · rw [hlookup] at hitem h1 ⊢
    obtain rfl : x = none := hitem
    exact ⟨rfl, h1⟩

lemma purgeLoop_spec (hprimes : Zhash.Narrow primes) (hrefl : ∀ x, c.equal x x = true) (h : Refines primes s r)
    (fuel : ℕ) (hfuel : r.all.length < fuel) :
    Yields (purgeLoop c primes fuel s) (fun s' => Refines primes s' (r.purge c)) (· = .exhausted) := by
  induction hall : r.all generalizing fuel s r with
  | nil =>
    cases fuel with
    | zero => exact absurd hfuel (not_lt_zero _)
    | succ fuel =>
      have hfirst : r.rewind.next = { r with before := [], after := [] } := by rw [Ring.rewind, hall]; rfl
      obtain ⟨s1, hok, h1⟩ := next_spec h.rewind
      rw [hfirst] at hok h1
      have hok' : s.first = .ok (none, s1) := hok
      simp only [purgeLoop, hok', bind, Except.bind]
      refine (remove_spec c hprimes h1 none nofun).bind fun ⟨removed, s2⟩ ⟨hremoved, h2⟩ => ?_
      obtain rfl : removed = -1 := hremoved
      have hpurge : r.purge c = { r with before := [], after := [] } := by
        rw [Ring.purge, hall, map_nil, append_nil, ite_self]
      rw [hpurge]
      exact h2
  | cons e rest ih =>
    cases fuel with
    | zero => exact absurd hfuel (not_lt_zero _)
    | succ fuel =>
      have hfirst : r.rewind.next = { r with before := [], after := e :: rest } := by rw [Ring.rewind, hall]; rfl
      obtain ⟨s1, hok, h1⟩ := next_spec h.rewind
      rw [hfirst] at hok h1
      have hok' : s.first = .ok (some e.item, s1) := hok
      have hhere : ({ r with before := [], after := e :: rest } : Ring α).after.head?.any (Ring.equal c e.item) =
        true := hrefl e.item
      simp only [purgeLoop, hok', bind, Except.bind]
      refine (remove_spec c hprimes h1 (some e.item) fun x hx helsewhere => ?_).bind
        fun ⟨removed, s2⟩ ⟨hremoved, h2⟩ => ?_
      · obtain rfl := Option.some.inj hx
        rw [helsewhere.2] at hhere
        cases hhere
      · have hremove := Ring.remove_here (c := c) [] rest r.destroyed (hrefl e.item)
        rw [hremove] at hremoved h2
        obtain rfl : removed = 0 := hremoved
        rw [hall, length_cons] at hfuel
        have hrest := ih h2 fuel (lt_of_succ_lt_succ hfuel) rfl
        have hpurge : r.purge c = Ring.purge c
            ⟨[], rest, if c.destructor then r.destroyed ++ [e.item] else r.destroyed⟩ := by
          rw [Ring.purge, Ring.purge, hall]
          cases c.destructor
          · rfl
          · simp [Ring.all]
        rw [hpurge]
        exact hrest

lemma step_spec (hprimes : Zhash.Narrow primes) (hne : primes ≠ []) (hrefl : ∀ x, c.equal x x = true)
    (h : Refines primes s r) (op : ZringOp α) (hgood : ¬ r.Misses c op) :
    Yields (s.step c primes op)
      (fun out => out.1 = (r.step c op).1 ∧ Refines primes out.2 (r.step c op).2) (· = .exhausted) := by
  obtain ⟨l1, l2, hrep⟩ := id h
  cases op with
  | prepend item =>
    cases hitem : c.duplicate item with
    | none =>
      simp only [step, Ring.step, Zring.prepend, hitem, Except.map]
      exact ⟨rfl, h⟩
    | some x =>
      obtain ⟨s', hok, h'⟩ := hrep.prepend c hitem
      simp only [step, Ring.step, hok, hitem, Except.map]
      exact ⟨rfl, h'⟩
  | append item =>
    cases hitem : c.duplicate item with
    | none =>
      simp only [step, Ring.step, Zring.append, hitem, Except.map]
      exact ⟨rfl, h⟩
    | some x =>
      obtain ⟨s', hok, -, h'⟩ := hrep.append c hitem
      simp only [step, Ring.step, hok, hitem, Except.map]
      exact ⟨rfl, _, _, h'⟩
  | insert key item => exact (insert_spec c hprimes hne h key item).map
  | find item =>
    have hsame := Ring.find_of_not_elsewhere hgood
    simp only [step, Ring.step, find_spec c hrep item, Except.map, hsame]
    exact ⟨rfl, h⟩
  | lookup key =>
    exact ((lookup_spec hprimes h key).mono fun _ h => ⟨congrArg ZringReply.item h.1, h.2⟩).map
  | detach item =>
    have hmiss : ∀ x, item = some x → ¬ r.Elsewhere c x := by
      rintro x rfl
      exact hgood
    exact ((detach_spec c hprimes h item hmiss).mono fun _ h => ⟨congrArg ZringReply.item h.1, h.2⟩).map
  | remove item =>
    have hmiss : ∀ x, item = some x → ¬ r.Elsewhere c x := by
      rintro x rfl
      exact hgood
    exact ((remove_spec c hprimes h item hmiss).mono fun _ h => ⟨congrArg ZringReply.status h.1, h.2⟩).map
  | delete key =>
    exact ((delete_spec c hprimes h key).mono fun _ h => ⟨congrArg ZringReply.status h.1, h.2⟩).map
  | purge =>
    have hlength : r.all.length < s.size + 1 := by
      rw [hrep.all_eq, length_map, hrep.keeps.size]
      exact lt_succ_self _
    exact ((purgeLoop_spec c hprimes hrefl h (s.size + 1) hlength).mono fun _ hs => ⟨rfl, hs⟩).map
  | size =>
    refine ⟨?_, h⟩
    simp only [Ring.step, hrep.all_eq, length_map, hrep.keeps.size]
  | first =>
    obtain ⟨s', hok, h'⟩ := next_spec h.rewind
    have hfirst : s.first = .ok (r.rewind.next.item, s') := hok
    simp only [step, Ring.step, hfirst, Except.map]
    exact ⟨rfl, h'⟩
  | last =>
    obtain ⟨s', hok, h'⟩ := prev_spec h.rewind
    have hlast : s.last = .ok (r.rewind.prev.item, s') := hok
    simp only [step, Ring.step, hlast, Except.map]
    exact ⟨rfl, h'⟩
  | next =>
    obtain ⟨s', hok, h'⟩ := next_spec h
    simp only [step, Ring.step, hok, Except.map]
    exact ⟨rfl, h'⟩
  | prev =>
    obtain ⟨s', hok, h'⟩ := prev_spec h
    simp only [step, Ring.step, hok, Except.map]
    exact ⟨rfl, h'⟩
  | item =>
    simp only [step, Ring.step, hrep.item, Except.map]
    exact ⟨rfl, h⟩

end Rep

end Zring

end Czmq
