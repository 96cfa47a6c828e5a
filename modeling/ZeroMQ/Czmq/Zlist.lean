import ZeroMQ.Czmq.Zhash

/-!
# The list of CZMQ

A list is a chain of nodes from its head to its tail, with a cursor at one of the nodes or at none. An item is a
pointer that is not null, and so is the duplicate of an item. No free function is set for a node.
-/

namespace Czmq

/-! ### State -/

/-- `node_t`. -/
structure ListNode (α : Type) where
  next : Option ℕ
  item : α
  deriving DecidableEq, Repr

/-- The handlers of a list. -/
structure ListHandlers (α : Type) where
  /-- Whether there is a `destructor`. -/
  destructor : Bool
  duplicator : Option (α → α)

/-- `zlist_t`. -/
structure Zlist (α : Type) where
  head : Option ℕ
  tail : Option ℕ
  cursor : Option ℕ
  size : ℕ
  /-- The nodes on the heap. -/
  heap : ℕ → Option (ListNode α)
  /-- The pointer the next node gets. -/
  fresh : ℕ
  /-- The items the destructor has been called on. -/
  destroyed : List α

/-- `zlist_new`. -/
def Zlist.new (α : Type) : Zlist α := ⟨none, none, none, 0, fun _ => none, 0, []⟩

/-- A duplicate, if there is a duplicator. -/
def ListHandlers.duplicate {α : Type} (c : ListHandlers α) (item : α) : α :=
  match c.duplicator with
  | some duplicator => duplicator item
  | none => item

/-- What the destructor is called on, if there is one. -/
def ListHandlers.destroy {α : Type} (c : ListHandlers α) (items : List α) : List α := if c.destructor then items else []

namespace Zlist

variable {α : Type}

/-! ### Nodes -/

/-- A node through a pointer. -/
def node (s : Zlist α) (p : ℕ) : Except CzmqFault (ListNode α) :=
  match s.heap p with
  | some x => .ok x
  | none => .error .dangling

/-- A node is written through a pointer. -/
def write (s : Zlist α) (p : ℕ) (f : ListNode α → ListNode α) : Except CzmqFault (Zlist α) := do
  let x ← s.node p
  .ok { s with heap := Function.update s.heap p (some (f x)) }

/-- A new node. -/
def nodeNew (s : Zlist α) (item : α) (next : Option ℕ) : ℕ × Zlist α :=
  (s.fresh, { s with heap := Function.update s.heap s.fresh (some ⟨next, item⟩), fresh := s.fresh + 1 })

/-- `free (node)`. -/
def free (s : Zlist α) (p : ℕ) : Zlist α := { s with heap := Function.update s.heap p none }

/-- The item of a node, or a null pointer. -/
def itemAt (s : Zlist α) (p : Option ℕ) : Except CzmqFault (Option α) :=
  match p with
  | some p => (s.node p).map fun x => some x.item
  | none => .ok none

/-! ### Moving the cursor -/

/-- `zlist_item`. -/
def item (s : Zlist α) : Except CzmqFault (Option α) := s.itemAt s.cursor

/-- `zlist_first`. -/
def first (s : Zlist α) : Except CzmqFault (Option α × Zlist α) := do
  let s := { s with cursor := s.head }
  .ok (← s.item, s)

/-- `zlist_next`. -/
def next (s : Zlist α) : Except CzmqFault (Option α × Zlist α) := do
  let cursor ← match s.cursor with
    | some p => (s.node p).map ListNode.next
    | none => .ok s.head
  let s := { s with cursor }
  .ok (← s.item, s)

/-- `zlist_last`. -/
def last (s : Zlist α) : Except CzmqFault (Option α × Zlist α) := do
  let s := { s with cursor := s.tail }
  .ok (← s.item, s)

section Add

variable (c : ListHandlers α)

/-- `zlist_append`, with what is returned. -/
def append (s : Zlist α) (item : α) : Except CzmqFault (ℤ × Zlist α) := do
  let (node, s) := s.nodeNew (c.duplicate item) none
  let s ← match s.tail with
    | some tail => s.write tail fun x => { x with next := some node }
    | none => .ok { s with head := some node }
  .ok (0, { s with tail := some node, size := s.size + 1, cursor := none })

/-- `zlist_push`, with what is returned. -/
def push (s : Zlist α) (item : α) : ℤ × Zlist α :=
  let (node, s) := s.nodeNew (c.duplicate item) s.head
  (0, { s with
    head := some node
    tail := if s.tail = none then some node else s.tail
    size := s.size + 1
    cursor := none })

end Add

/-! ### Taking items out -/

/-- `zlist_pop`. -/
def pop (s : Zlist α) : Except CzmqFault (Option α × Zlist α) :=
  match s.head with
  | some node => do
    let x ← s.node node
    let s := { s.free node with
      head := x.next
      tail := if s.tail = some node then none else s.tail
      size := s.size - 1
      cursor := none }
    .ok (some x.item, s)
  | none => .ok (none, { s with cursor := none })

/-- The node before a node that is taken out, or the head, leads on to the next one. -/
def leadOn (s : Zlist α) (prev next : Option ℕ) : Except CzmqFault (Zlist α) :=
  match prev with
  | some prev => s.write prev fun y => { y with next }
  | none => .ok { s with head := next }

section Remove

variable [DecidableEq α] (c : ListHandlers α)

/-- The loop of `zlist_remove`: the first node with an item, and the one before it. -/
def find (s : Zlist α) (item : α) : ℕ → Option ℕ → Option ℕ → Except CzmqFault (Option (Option ℕ × ℕ × ListNode α))
  | _, _, none => .ok none
  | 0, _, some _ => .error .endless
  | fuel + 1, prev, some node => do
    let x ← s.node node
    if x.item = item then .ok (some (prev, node, x)) else s.find item fuel (some node) x.next

/-- `zlist_remove`. -/
def remove (s : Zlist α) (item : α) : Except CzmqFault (Zlist α) := do
  let found ← s.find item s.size none s.head
  match found with
  | none => .ok s
  | some (prev, node, x) => do
    let s ← s.leadOn prev x.next
    .ok { s.free node with
      tail := if x.next = none then prev else s.tail
      cursor := if s.cursor = some node then prev else s.cursor
      destroyed := s.destroyed ++ c.destroy [x.item]
      size := s.size - 1 }

end Remove

section Whole

variable (c : ListHandlers α)

/-- The loop of `zlist_purge`. -/
def purgeLoop : ℕ → Option ℕ → Zlist α → Except CzmqFault (Zlist α)
  | _, none, s => .ok s
  | 0, some _, _ => .error .endless
  | fuel + 1, some node, s => do
    let x ← s.node node
    purgeLoop fuel x.next ({ s with destroyed := s.destroyed ++ c.destroy [x.item] }.free node)

/-- `zlist_purge`. -/
def purge (s : Zlist α) : Except CzmqFault (Zlist α) := do
  let s ← purgeLoop c s.size s.head s
  .ok { s with head := none, tail := none, cursor := none, size := 0 }

/-- The loop of `zlist_dup`. -/
def dupLoop (s : Zlist α) : ℕ → Option ℕ → Zlist α → Except CzmqFault (Zlist α)
  | _, none, copy => .ok copy
  | 0, some _, _ => .error .endless
  | fuel + 1, some node, copy => do
    let x ← s.node node
    let (_, copy) ← copy.append c x.item
    s.dupLoop fuel x.next copy

/-- `zlist_dup`: the copy. -/
def dup (s : Zlist α) : Except CzmqFault (Zlist α) := s.dupLoop c s.size s.head (Zlist.new α)

end Whole

end Zlist

/-- A call of a function of the list. -/
inductive ZlistOp (α : Type)
  | append (item : α)
  | push (item : α)
  | pop
  | remove (item : α)
  | first
  | next
  | last
  | head
  | tail
  | item
  | purge
  /-- The run goes on with the copy. -/
  | dup
  | size

/-- What a function returns. -/
inductive ZlistReply (α : Type)
  | done
  | status (code : ℤ)
  | item (item : Option α)
  | size (n : ℕ)
  deriving DecidableEq, Repr

/-- One call. -/
def Zlist.step {α : Type} [DecidableEq α] (c : ListHandlers α) (s : Zlist α) :
    ZlistOp α → Except CzmqFault (ZlistReply α × Zlist α)
  | .append item => (s.append c item).map fun r => (.status r.1, r.2)
  | .push item => let r := s.push c item; .ok (.status r.1, r.2)
  | .pop => s.pop.map fun r => (.item r.1, r.2)
  | .remove item => (s.remove c item).map fun s => (.done, s)
  | .first => s.first.map fun r => (.item r.1, r.2)
  | .next => s.next.map fun r => (.item r.1, r.2)
  | .last => s.last.map fun r => (.item r.1, r.2)
  | .head => (s.itemAt s.head).map fun x => (.item x, s)
  | .tail => (s.itemAt s.tail).map fun x => (.item x, s)
  | .item => s.item.map fun x => (.item x, s)
  | .purge => (s.purge c).map fun s => (.done, s)
  | .dup => (s.dup c).map fun s => (.done, s)
  | .size => .ok (.size s.size, s)

section Visit

variable {α : Type} [DecidableEq α] (c : ListHandlers α) (removed : α → Bool)

/-- The loop of a caller that visits the items, and removes some of them when they are visited. -/
def Zlist.visit : ℕ → Option α → Zlist α → Except CzmqFault (List α × Zlist α)
  | _, none, s => .ok ([], s)
  | 0, some _, _ => .error .endless
  | fuel + 1, some item, s => do
    let s ← if removed item then s.remove c item else .ok s
    let (item', s) ← s.next
    let (items, s) ← visit fuel item' s
    .ok (item :: items, s)

/-- `item = first; while (item) …; item = next`, with the items that have been visited. -/
def Zlist.visitAll (fuel : ℕ) (s : Zlist α) : Except CzmqFault (List α × Zlist α) := do
  let (item, s) ← s.first
  s.visit c removed fuel item

end Visit

end Czmq
