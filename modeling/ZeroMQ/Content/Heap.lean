import ZeroMQ.Pattern.Dist

/-!
# Message values and their contents

A `msg_t` holds a short body itself; the body of a long message (`type_lmsg`) is a `content_t` on the
heap that several values may point to. The flag `shared` of a value says that the counter of the content
counts; without it the value is the only one. Here a value is given by its address and a content by the
order of its allocation. What is in a body plays no role.

The counter is a 32-bit word. An access to a content that was freed is a fault, and so is freeing it
again.

Values are also copied bit by bit, without `copy`: this is how a value gets into a pipe. `add_refs` adds
references for such copies beforehand, and a value that is initialised anew without having been closed
leaves its reference to a copy. Two things that are not in memory keep the account: `reserved` is the
number of references to a content that no value holds, and `spent` marks a value whose reference went to
a copy.

The functions follow `msg.cpp` and `dist.cpp`. The counter of the metadata of a message is left out; but
`add_refs` and `rm_refs` insist that there is no metadata.
-/

namespace Zmq

open Foundation

/-! ### Values and contents -/

/-- The type of a `msg_t`, with the fields of a long message that matter. -/
inductive MsgKind
  /-- Not initialised, or closed. -/
  | invalid
  | vsm
  | lmsg (content : ℕ) (shared : Bool)
  | delimiter
  | cmsg
  deriving DecidableEq

/-- A `msg_t`. -/
structure MsgValue where
  kind : MsgKind
  /-- `metadata` is not NULL. -/
  metadata : Bool
  /-- The reference of the value went to a copy. -/
  spent : Bool
  deriving DecidableEq

/-- What `msg_t::init` makes. -/
def MsgValue.init : MsgValue := ⟨.vsm, false, false⟩

/-- A `content_t`. -/
structure Content where
  refcnt : ℕ
  freed : Bool
  /-- The references that no value holds. -/
  reserved : ℕ
  deriving DecidableEq

/-- All values and all contents. -/
structure MsgHeap where
  values : List MsgValue
  contents : ℕ → Content
  /-- How many contents were allocated. -/
  size : ℕ

/-- What can go wrong. -/
inductive MsgFault
  /-- There is no value or no pipe at this place. -/
  | badAddress
  /-- A `zmq_assert` or an `errno_assert` fails. -/
  | assertion
  /-- A content is accessed after it was freed. -/
  | freed
  deriving DecidableEq

/-- `atomic_counter_t::add` on a word. -/
def wordAdd (c n : ℕ) : ℕ := (c + n) % 2 ^ 32

/-- `atomic_counter_t::sub` on a word. -/
def wordSub (c n : ℕ) : ℕ := (c + (2 ^ 32 - n % 2 ^ 32)) % 2 ^ 32

/-- A size as an `int`. -/
@[irreducible] def toInt (n : ℕ) : ℤ := Int.bmod n (2 ^ 32)

namespace MsgHeap

/-- Nothing yet. -/
def empty : MsgHeap := ⟨[], fun _ => ⟨0, false, 0⟩, 0⟩

/-- The value at an address. -/
def value (h : MsgHeap) (i : ℕ) : Except MsgFault MsgValue :=
  match h.values[i]? with
  | some v => .ok v
  | none => .error .badAddress

/-- Overwrite the value at an address. -/
def put (h : MsgHeap) (i : ℕ) (v : MsgValue) : MsgHeap := { h with values := h.values.set i v }

/-- A value at a new address. -/
def push (h : MsgHeap) (v : MsgValue) : MsgHeap := { h with values := h.values ++ [v] }

/-- Overwrite a content. -/
def setContent (h : MsgHeap) (k : ℕ) (c : Content) : MsgHeap :=
  { h with contents := Function.update h.contents k c }

/-- Access to a content. -/
def content (h : MsgHeap) (k : ℕ) : Except MsgFault Content :=
  if (h.contents k).freed then .error .freed else .ok (h.contents k)

/-- Free a content. -/
def free (h : MsgHeap) (k : ℕ) : Except MsgFault MsgHeap := do
  let c ← h.content k
  return h.setContent k { c with freed := true }

/-- `refcnt.sub (n)`, and the content is freed if that gives zero. The result says whether it was. -/
def drop (h : MsgHeap) (k n : ℕ) : Except MsgFault (Bool × MsgHeap) := do
  let c ← h.content k
  let refcnt := wordSub c.refcnt n
  let h := h.setContent k { c with refcnt := refcnt }
  if refcnt = 0 then
    let h ← h.free k
    return (true, h)
  else return (false, h)

/-- What `msg_t::close` does with the content: it is freed if it is not shared or if the counter falls to
zero. -/
def release (h : MsgHeap) (k : ℕ) (shared : Bool) : Except MsgFault MsgHeap :=
  if shared then (h.drop k 1).map Prod.snd else h.free k

/-! ### The functions of `msg_t` -/

/-- How a message comes into being. -/
inductive NewMsg
  /-- `init`, or `init_size` with a size that fits into the value. -/
  | vsm
  /-- `init_size`, or `init_data` with a function that frees the data. -/
  | lmsg
  /-- `init_data` without such a function. -/
  | cmsg
  /-- `init_delimiter`. -/
  | delimiter
  deriving DecidableEq

/-- A new message. -/
def create (h : MsgHeap) (metadata : Bool) : NewMsg → MsgHeap
  | .vsm => h.push ⟨.vsm, metadata, false⟩
  | .cmsg => h.push ⟨.cmsg, metadata, false⟩
  | .delimiter => h.push ⟨.delimiter, metadata, false⟩
  | .lmsg =>
    let h := h.push ⟨.lmsg h.size false, metadata, false⟩
    { h.setContent h.size ⟨0, false, 0⟩ with size := h.size + 1 }

/-- `msg_t::close`; the result is false for the return value -1. -/
def close (h : MsgHeap) (i : ℕ) : Except MsgFault (Bool × MsgHeap) := do
  let v ← h.value i
  match v.kind with
  | .invalid => return (false, h)
  | .lmsg k shared =>
    let h ← h.release k shared
    return (true, h.put i { v with kind := .invalid })
  | _ => return (true, h.put i { v with kind := .invalid })

/-- `msg_t::move` of the value at `j` to `i`. -/
def move (h : MsgHeap) (i j : ℕ) : Except MsgFault (Bool × MsgHeap) := do
  let src ← h.value j
  if src.kind = .invalid then return (false, h)
  let (rc, h) ← h.close i
  if !rc then return (false, h)
  let src ← h.value j
  return (true, (h.put i src).put j MsgValue.init)

/-- What `msg_t::copy` does to the source: one more reference to its content. -/
def share (h : MsgHeap) (j : ℕ) (src : MsgValue) : Except MsgFault (MsgValue × MsgHeap) :=
  match src.kind with
  | .lmsg k shared => do
    let c ← h.content k
    let refcnt := if shared then wordAdd c.refcnt 1 else 2
    let src := { src with kind := .lmsg k true }
    return (src, (h.setContent k { c with refcnt := refcnt }).put j src)
  | _ => return (src, h)

/-- `msg_t::copy` of the value at `j` to `i`. -/
def copy (h : MsgHeap) (i j : ℕ) : Except MsgFault (Bool × MsgHeap) := do
  let src ← h.value j
  if src.kind = .invalid then return (false, h)
  let (rc, h) ← h.close i
  if !rc then return (false, h)
  let src ← h.value j
  let (src, h) ← h.share j src
  return (true, h.put i src)

/-- `msg_t::add_refs`. -/
def addRefs (h : MsgHeap) (i : ℕ) (refs : ℤ) : Except MsgFault MsgHeap := do
  if refs < 0 then throw .assertion
  let v ← h.value i
  if v.metadata then throw .assertion
  if refs = 0 then return h
  match v.kind with
  | .lmsg k shared =>
    let c ← h.content k
    let refcnt := if shared then wordAdd c.refcnt refs.toNat else (refs.toNat + 1) % 2 ^ 32
    let h := h.setContent k { c with refcnt := refcnt, reserved := c.reserved + refs.toNat }
    return h.put i { v with kind := .lmsg k true }
  | _ => return h

/-- The account of `rm_refs`: the references that no value holds go first, then the value's own. -/
def payBack (h : MsgHeap) (i : ℕ) (v : MsgValue) (k n : ℕ) : MsgHeap :=
  let c := h.contents k
  let h := h.setContent k { c with reserved := c.reserved - n }
  if n ≤ c.reserved then h else h.put i { v with spent := true }

/-- `msg_t::rm_refs`. -/
def rmRefs (h : MsgHeap) (i : ℕ) (refs : ℤ) : Except MsgFault (Bool × MsgHeap) := do
  if refs < 0 then throw .assertion
  let v ← h.value i
  if v.metadata then throw .assertion
  if refs = 0 then return (true, h)
  match v.kind with
  | .lmsg k true =>
    let (freed, h) ← h.drop k refs.toNat
    return (!freed, h.payBack i v k refs.toNat)
  | _ =>
    let (_, h) ← h.close i
    return (false, h)

/-- The account of a copy: it takes a reference that no value holds, or else the value's own. -/
def payCopy (h : MsgHeap) (i : ℕ) (v : MsgValue) : MsgHeap :=
  match v.kind with
  | .lmsg k _ =>
    let c := h.contents k
    if 0 < c.reserved then h.setContent k { c with reserved := c.reserved - 1 }
    else h.put i { v with spent := true }
  | _ => h

/-- A copy of the value bit by bit, as `ypipe_t::write` makes it. -/
def podCopy (h : MsgHeap) (i : ℕ) : Except MsgFault MsgHeap := do
  let v ← h.value i
  return (h.payCopy i v).push { v with spent := false }

/-- The account of a value that is overwritten: no value holds its reference then. -/
def payInit (h : MsgHeap) (v : MsgValue) : MsgHeap :=
  match v.kind with
  | .lmsg k _ =>
    if v.spent then h
    else h.setContent k { h.contents k with reserved := (h.contents k).reserved + 1 }
  | _ => h

/-- `msg_t::init` on a value that was in use. -/
def init (h : MsgHeap) (i : ℕ) : Except MsgFault MsgHeap := do
  let v ← h.value i
  return (h.payInit v).put i MsgValue.init

/-- `close` and `init`, with the checks of the return values. -/
def closeInit (h : MsgHeap) (i : ℕ) : Except MsgFault MsgHeap := do
  let (rc, h) ← h.close i
  if !rc then throw .assertion
  h.init i

/-! ### Distribution -/

/-- `pipe_t::write` of a message that the pipe accepts. A `ypipe_t` keeps a copy; a conflating pipe moves
the value to its back buffer, whose address is `back`. -/
def writePipe (h : MsgHeap) (i : ℕ) (back : Option ℕ) : Except MsgFault MsgHeap :=
  match back with
  | none => h.podCopy i
  | some b => do
    let v ← h.value i
    if v.kind = .invalid then throw .assertion
    let (_, h) ← h.move b i
    let v ← h.value b
    if v.kind = .invalid then throw .assertion
    return h

/-- The pipes of a distributor: which of them accept a message, and the back buffers of those that are
conflating. -/
structure Targets where
  accepts : ℕ → Bool
  back : ℕ → Option ℕ

/-- The loop of `dist_t::distribute` from index `j` on; the result has the number of writes that failed.
A round goes on to the next pipe or makes `matching` smaller. -/
def distributeFrom (t : Targets) (i : ℕ) : ℕ → ℕ → Dist → MsgHeap → Except MsgFault (ℕ × Dist × MsgHeap)
  | 0, _, d, h => .ok (0, d, h)
  | n + 1, j, d, h =>
    match d.pipes.items[j]? with
    | none => .error .badAddress
    | some p =>
      if t.accepts p then do
        let h ← h.writePipe i (t.back p)
        distributeFrom t i n (j + 1) d h
      else
        match d.demote p with
        | none => .error .badAddress
        | some d => do
          let (failed, d, h) ← distributeFrom t i n j d h
          return (failed + 1, d, h)

/-- The end of `dist_t::distribute`: the references of the writes that failed are removed. -/
def giveBack (h : MsgHeap) (i failed : ℕ) : Except MsgFault MsgHeap :=
  if toInt failed = 0 then .ok h else (h.rmRefs i (toInt failed)).map Prod.snd

/-- `dist_t::distribute`. -/
def distribute (h : MsgHeap) (i : ℕ) (d : Dist) (t : Targets) : Except MsgFault (Dist × MsgHeap) := do
  let v ← h.value i
  if d.matching = 0 then
    let h ← h.closeInit i
    return (d, h)
  else if v.kind = .vsm then
    let (_, d, h) ← distributeFrom t i d.matching 0 d h
    let h ← h.closeInit i
    return (d, h)
  else
    let h ← h.addRefs i (toInt d.matching - 1)
    let (failed, d, h) ← distributeFrom t i d.matching 0 d h
    let h ← h.giveBack i failed
    let h ← h.init i
    return (d, h)

end MsgHeap

/-! ### Runs -/

/-- What can be done with messages. -/
inductive MsgAct
  | create (metadata : Bool) (new : MsgHeap.NewMsg)
  | close (i : ℕ)
  | move (i j : ℕ)
  | copy (i j : ℕ)
  | addRefs (i : ℕ) (refs : ℤ)
  | rmRefs (i : ℕ) (refs : ℤ)
  | podCopy (i : ℕ)
  | init (i : ℕ)
  | distribute (i : ℕ) (d : { d : Dist // d.WF }) (t : MsgHeap.Targets)

namespace MsgHeap

/-- One step. -/
def step (h : MsgHeap) : MsgAct → Except MsgFault MsgHeap
  | .create metadata new => .ok (h.create metadata new)
  | .close i => (h.close i).map Prod.snd
  | .move i j => (h.move i j).map Prod.snd
  | .copy i j => (h.copy i j).map Prod.snd
  | .addRefs i refs => h.addRefs i refs
  | .rmRefs i refs => (h.rmRefs i refs).map Prod.snd
  | .podCopy i => h.podCopy i
  | .init i => h.init i
  | .distribute i d t => (h.distribute i d.1 t).map Prod.snd

/-- The value holds a reference to the content, as a shared one or as the only one. -/
def Holds (v : MsgValue) (k : ℕ) (shared : Bool) : Prop := v.kind = .lmsg k shared ∧ v.spent = false

instance (v : MsgValue) (k : ℕ) (shared : Bool) : Decidable (Holds v k shared) :=
  inferInstanceAs (Decidable (_ ∧ _))

/-- How many values hold a reference to the content, as a shared one or as the only one. -/
def count (h : MsgHeap) (k : ℕ) (shared : Bool) : ℕ := h.values.countP fun v => Holds v k shared

/-- How many values hold a reference to the content. -/
def live (h : MsgHeap) (k : ℕ) : ℕ := h.count k true + h.count k false

/-- All references to the content. -/
def refs (h : MsgHeap) (k : ℕ) : ℕ := h.live k + (h.contents k).reserved

end MsgHeap

end Zmq
