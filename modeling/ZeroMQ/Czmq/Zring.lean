import ZeroMQ.Czmq.Zhash

/-!
# The ring of CZMQ

A ring is a doubly linked ring of nodes through a dummy node, its head, with a cursor at one of the nodes or at the
head. Some items have a key, by which they are found through a dictionary, a hash table that leads from keys to
nodes. The key of a node is a pointer to the key of the item of the dictionary, which owns it.

An item is a pointer that is not null; a null pointer is `none`.
-/

namespace Czmq

open Function

/-! ### State -/

/-- `node_t`. -/
structure RingNode (α : Type) where
  next : ℕ
  prev : ℕ
  item : Option α
  /-- `key`, with the pointer to the item of the dictionary whose key it is. -/
  key : Option ℕ

/-- The handlers of a ring. -/
structure RingHandlers (α : Type) where
  /-- Whether there is a `destructor`. -/
  destructor : Bool
  /-- `duplicator`, which may return a null pointer. -/
  duplicator : Option (α → Option α)
  comparator : Option (α → α → ℤ)

/-- `zring_t`. -/
structure Zring (α : Type) where
  head : ℕ
  cursor : ℕ
  size : ℕ
  hash : Option (Zhash CString ℕ)
  /-- The nodes on the heap. -/
  heap : ℕ → Option (RingNode α)
  /-- The pointer the next node gets. -/
  fresh : ℕ
  /-- The items the destructor has been called on. -/
  destroyed : List α

/-- `zring_new`. -/
def Zring.new (α : Type) : Zring α := ⟨0, 0, 0, none, update (fun _ => none) 0 (some ⟨0, 0, none, none⟩), 1, []⟩

/-- A duplicate, if there is a duplicator. -/
def RingHandlers.duplicate {α : Type} (c : RingHandlers α) (item : α) : Option α :=
  match c.duplicator with
  | some duplicator => duplicator item
  | none => some item

/-- Whether an item is the one that is looked for. -/
def RingHandlers.equal {α : Type} [DecidableEq α] (c : RingHandlers α) (x item : α) : Bool :=
  match c.comparator with
  | some comparator => comparator x item = 0
  | none => x = item

/-- Whether the item of a node is the one that is looked for; the head has none. -/
def RingHandlers.equalAt {α : Type} [DecidableEq α] (c : RingHandlers α) (x : RingNode α) (item : α) : Bool :=
  match x.item with
  | some y => c.equal y item
  | none => false

namespace Zring

variable {α : Type}

/-! ### Nodes -/

/-- A node through a pointer. -/
def node (s : Zring α) (p : ℕ) : Except CzmqFault (RingNode α) :=
  match s.heap p with
  | some x => .ok x
  | none => .error .dangling

/-- A node is written through a pointer. -/
def write (s : Zring α) (p : ℕ) (f : RingNode α → RingNode α) : Except CzmqFault (Zring α) := do
  let x ← s.node p
  .ok { s with heap := update s.heap p (some (f x)) }

/-- `self->next = next`. -/
def setNext (s : Zring α) (p next : ℕ) : Except CzmqFault (Zring α) := s.write p fun x => { x with next }

/-- `self->prev = prev`. -/
def setPrev (s : Zring α) (p prev : ℕ) : Except CzmqFault (Zring α) := s.write p fun x => { x with prev }

/-- `self->item = item`. -/
def setItem (s : Zring α) (p : ℕ) (item : Option α) : Except CzmqFault (Zring α) :=
  s.write p fun x => { x with item }

/-- `self->key = key`. -/
def setKey (s : Zring α) (p : ℕ) (key : Option ℕ) : Except CzmqFault (Zring α) := s.write p fun x => { x with key }

/-- `s_node_new`. -/
def nodeNew (s : Zring α) (prev next : ℕ) (item : α) : ℕ × Zring α :=
  (s.fresh, { s with
    heap := update s.heap s.fresh (some ⟨next, prev, some item, none⟩)
    fresh := s.fresh + 1 })

/-- `s_node_destroy`. -/
def nodeDestroy (s : Zring α) (p : ℕ) : Except CzmqFault (Zring α) := do
  let x ← s.node p
  if x.item.isSome then .error .assertion
  else do
    let s ← s.setNext x.prev x.next
    let x ← s.node p
    let s ← s.setPrev x.next x.prev
    .ok { s with heap := update s.heap p none }

section Add

variable (c : RingHandlers α)

/-- `zring_prepend`, with what is returned. -/
def prepend (s : Zring α) (item : α) : Except CzmqFault (ℤ × Zring α) :=
  match c.duplicate item with
  | none => .ok (-1, s)
  | some item => do
    let head ← s.node s.head
    let (node, s) := s.nodeNew s.head head.next item
    let s ← s.setPrev head.next node
    let s ← s.setNext s.head node
    .ok (0, { s with cursor := node, size := s.size + 1 })

/-- `zring_append`, with what is returned. -/
def append (s : Zring α) (item : α) : Except CzmqFault (ℤ × Zring α) :=
  match c.duplicate item with
  | none => .ok (-1, s)
  | some item => do
    let head ← s.node s.head
    let (node, s) := s.nodeNew head.prev s.head item
    let s ← s.setNext head.prev node
    let s ← s.setPrev s.head node
    .ok (0, { s with cursor := node, size := s.size + 1 })

variable (primes : List ℕ)

/-- `zring_insert`, with what is returned: the item is duplicated, and `zring_append` duplicates it again. -/
def insert (s : Zring α) (key : CString) (item : α) : Except CzmqFault (ℤ × Zring α) := do
  let hash := s.hash.getD (Zhash.new CString ℕ)
  let s := { s with hash := some hash }
  match c.duplicate item with
  | none => .ok (-1, s)
  | some item => do
    let (found, hash) ← hash.lookup primes bernsteinHash key
    let s := { s with hash := some hash }
    match found with
    | some _ => .ok (-1, s)
    | none => do
      let (appended, s) ← s.append c item
      if appended ≠ 0 then .ok (-1, s)
      else do
        let (inserted, hash) ← hash.insert primes bernsteinHash key s.cursor
        let s := { s with hash := some hash }
        if inserted ≠ 0 then .ok (-1, s)
        else do
          -- `zhash_cursor` is the key of the item that has been inserted.
          let s ← s.setKey s.cursor hash.cursorItem
          .ok (0, s)

end Add

section Find

variable [DecidableEq α] (c : RingHandlers α)

/-- The loop of `zring_find`. -/
def scan (s : Zring α) (item : α) : ℕ → ℕ → Except CzmqFault (Option α)
  | 0, p => if p = s.head then .ok none else .error .endless
  | fuel + 1, p =>
    if p = s.head then .ok none
    else do
      let x ← s.node p
      if c.equalAt x item then .ok x.item else s.scan item fuel x.next

/-- `zring_find`. -/
def find (s : Zring α) (item : α) : Except CzmqFault (Option α) := do
  let x ← s.node s.cursor
  if s.cursor ≠ s.head ∧ c.equalAt x item then .ok x.item
  else do
    let head ← s.node s.head
    s.scan c item s.size head.next

variable (primes : List ℕ)

/-- `zring_lookup`. -/
def lookup (s : Zring α) (key : CString) : Except CzmqFault (Option α × Zring α) :=
  match s.hash with
  | none => .ok (none, s)
  | some hash => do
    let (found, hash) ← hash.lookup primes bernsteinHash key
    let s := { s with hash := some hash }
    match found with
    | none => .ok (none, s)
    | some p => do
      let x ← s.node p
      .ok (x.item, { s with cursor := p })

/-! ### Taking items out -/

/-- `zhash_delete` of the key of a node, if it has one. -/
def deleteKey (s : Zring α) (key : Option ℕ) : Except CzmqFault (Zring α) :=
  match key, s.hash with
  | none, _ => .ok s
  | some _, none => .error .assertion
  | some q, some hash => do
    let item ← hash.deref q
    let hash ← hash.delete primes bernsteinHash item.key
    .ok { s with hash := some hash }

/-- `zring_detach`, when the node to detach has been found: it is the one at the cursor. -/
def detachCursor (s : Zring α) : Except CzmqFault (Option α × Zring α) := do
  let p := s.cursor
  let x ← s.node p
  let s := { s with cursor := x.next, size := s.size - 1 }
  let s ← s.deleteKey primes x.key
  let s ← s.setItem p none
  let s ← s.nodeDestroy p
  .ok (x.item, s)

/-- `zring_detach`: whether there is a node to detach. -/
def toDetach (s : Zring α) (item : Option α) : Except CzmqFault Bool :=
  match item with
  | some item => (s.find c item).map Option.isSome
  | none => .ok (decide (s.cursor ≠ s.head))

/-- `zring_detach`. -/
def detach (s : Zring α) (item : Option α) : Except CzmqFault (Option α × Zring α) := do
  let found ← s.toDetach c item
  if found then s.detachCursor primes else .ok (none, s)

/-- `zring_remove`, with what is returned. -/
def remove (s : Zring α) (item : Option α) : Except CzmqFault (ℤ × Zring α) := do
  let (item, s) ← s.detach c primes item
  match item with
  | some x => .ok (0, if c.destructor then { s with destroyed := s.destroyed ++ [x] } else s)
  | none => .ok (-1, s)

/-- `zring_delete`, with what is returned. -/
def delete (s : Zring α) (key : CString) : Except CzmqFault (ℤ × Zring α) := do
  let (item, s) ← s.lookup primes key
  match item with
  | some _ => s.remove c primes none
  | none => .ok (-1, s)

/-! ### Moving the cursor -/

omit [DecidableEq α] in
/-- `zring_item`. -/
def item (s : Zring α) : Except CzmqFault (Option α) :=
  if s.cursor ≠ s.head then (s.node s.cursor).map RingNode.item else .ok none

/-- `zring_next`. -/
def next (s : Zring α) : Except CzmqFault (Option α × Zring α) := do
  let x ← s.node s.cursor
  let s := { s with cursor := x.next }
  .ok (← s.item, s)

/-- `zring_prev`. -/
def prev (s : Zring α) : Except CzmqFault (Option α × Zring α) := do
  let x ← s.node s.cursor
  let s := { s with cursor := x.prev }
  .ok (← s.item, s)

/-- `zring_first`. -/
def first (s : Zring α) : Except CzmqFault (Option α × Zring α) := { s with cursor := s.head }.next

/-- `zring_last`. -/
def last (s : Zring α) : Except CzmqFault (Option α × Zring α) := { s with cursor := s.head }.prev

/-- The loop of `zring_purge`. -/
def purgeLoop : ℕ → Zring α → Except CzmqFault (Zring α)
  | 0, _ => .error .endless
  | fuel + 1, s => do
    let (item, s) ← s.first
    let (removed, s) ← s.remove c primes item
    if removed = 0 then purgeLoop fuel s else .ok s

/-- `zring_purge`. -/
def purge (s : Zring α) : Except CzmqFault (Zring α) := purgeLoop c primes (s.size + 1) s

end Find

end Zring

/-- A call of a function of the ring. -/
inductive ZringOp (α : Type)
  | prepend (item : α)
  | append (item : α)
  | insert (key : CString) (item : α)
  | find (item : α)
  | lookup (key : CString)
  | detach (item : Option α)
  | remove (item : Option α)
  | delete (key : CString)
  | purge
  | size
  | first
  | last
  | next
  | prev
  | item

/-- What a function returns. -/
inductive ZringReply (α : Type)
  | done
  | status (code : ℤ)
  | item (item : Option α)
  | size (n : ℕ)
  deriving DecidableEq, Repr

/-- One call. -/
def Zring.step {α : Type} [DecidableEq α] (c : RingHandlers α) (primes : List ℕ) (s : Zring α) :
    ZringOp α → Except CzmqFault (ZringReply α × Zring α)
  | .prepend item => (s.prepend c item).map fun r => (.status r.1, r.2)
  | .append item => (s.append c item).map fun r => (.status r.1, r.2)
  | .insert key item => (s.insert c primes key item).map fun r => (.status r.1, r.2)
  | .find item => (s.find c item).map fun x => (.item x, s)
  | .lookup key => (s.lookup primes key).map fun r => (.item r.1, r.2)
  | .detach item => (s.detach c primes item).map fun r => (.item r.1, r.2)
  | .remove item => (s.remove c primes item).map fun r => (.status r.1, r.2)
  | .delete key => (s.delete c primes key).map fun r => (.status r.1, r.2)
  | .purge => (s.purge c primes).map fun s => (.done, s)
  | .size => .ok (.size s.size, s)
  | .first => s.first.map fun r => (.item r.1, r.2)
  | .last => s.last.map fun r => (.item r.1, r.2)
  | .next => s.next.map fun r => (.item r.1, r.2)
  | .prev => s.prev.map fun r => (.item r.1, r.2)
  | .item => s.item.map fun x => (.item x, s)

end Czmq
