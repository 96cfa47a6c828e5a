import Mathlib.Algebra.Ring.Nat
import Mathlib.Data.Finset.Card
import ZeroMQ.Foundation.Run

/-!
# The ownership tree

Objects derived from `own_t` form a tree. An object launches children, which it then owns; a child asks
its owner to be terminated and is told to terminate; it tells its own children the same, waits for their
acknowledgements, acknowledges to its owner and is deallocated. All this happens by commands. An object
that expects commands from elsewhere is told in advance by `inc_seqnum`, and is not deallocated before
it has processed as many as were announced.

Commands to one object are processed in the order in which they were sent; between two objects any
order is possible, whatever threads they live in. `launch_child` sends two commands, and other objects
may run between the two, so it takes two steps; the object that launches does nothing else meanwhile. A
derived class may put off `process_term` when the command `term` arrives, as sessions do. The counter
`sent_seqnum` has 32 bits and `processed_seqnum` has 64; the latter is a natural number here. The counter
`term_acks` is an `int`, to which the number of children is converted. The linger period is passed along
and not used here.
-/

namespace Zmq

/-- The commands an `own_t` processes. The object a `term_ack` comes from is not part of the command
and is kept for the record. -/
inductive OwnCommand
  | plug
  | own (object : ℕ)
  /-- `attach`, `bind` and `inproc_connected`, which are announced by `inc_seqnum`. -/
  | announced
  | termReq (object : ℕ)
  | term
  | termAck (object : ℕ)
  deriving DecidableEq, Repr

/-- How far an object is on its way from its launch to its deallocation, as its owner sees it. -/
inductive OwnStage
  /-- It has no owner. -/
  | root
  /-- Its owner is inside `launch_child`, after `send_plug`. -/
  | launching
  /-- The command `own` is on the way to its owner. -/
  | launched
  /-- It is in the set `owned` of its owner. -/
  | owned
  /-- The command `term` is on the way to it. -/
  | asked
  /-- It has received `term`. -/
  | dying
  /-- It is deallocated, and its `term_ack` is on the way to its owner. -/
  | acked
  /-- Its owner has received the `term_ack`. -/
  | gone
  deriving DecidableEq, Repr

/-- `own_t` with the commands on the way to it. -/
structure Own where
  owner : Option ℕ
  terminating : Bool
  sentSeqnum : ℕ
  processedSeqnum : ℕ
  owned : Finset ℕ
  /-- Number of events to wait for before the object is deallocated. -/
  termAcks : BitVec 32
  /-- Commands on the way to the object, oldest first. -/
  inbox : List OwnCommand
  /-- The child it is launching, between the two commands of `launch_child`. -/
  launching : Option ℕ
  /-- The command `term` was received, and `own_t::process_term` is still to be called. -/
  pendingTerm : Bool
  /-- Commands announced by `inc_seqnum` and not sent yet. -/
  toSend : ℕ
  stage : OwnStage
  /-- How often `inc_seqnum` was called. -/
  incs : ℕ
  /-- How many acknowledgements it waits for, where `termAcks` is only an `int`. -/
  awaited : ℕ
  /-- How many `term` it has received. -/
  terms : ℕ
  /-- How many `term_ack` it has sent. -/
  acks : ℕ
  /-- How often it was deallocated. -/
  destroys : ℕ
  /-- It has sent a `term_req`. -/
  requested : Bool

/-- The objects, by number. -/
structure OwnTree where
  objects : ℕ → Own
  count : ℕ

/-- What can go wrong. -/
inductive OwnFault
  /-- `zmq_assert (!terminating)` in `process_term`. -/
  | doubleTermination
  /-- `zmq_assert (term_acks > 0)` in `unregister_term_ack`. -/
  | noTermAck
  /-- `zmq_assert (owned.empty ())` in `check_term_acks`. -/
  | stillOwned
  /-- A command is delivered to a deallocated object. -/
  | deadObject
  deriving DecidableEq, Repr

/-- A step of the tree. -/
inductive OwnAct
  /-- An object without an owner is created. -/
  | root
  /-- The first half of `launch_child`. -/
  | launch (object : ℕ)
  /-- The second half of `launch_child`. -/
  | sendOwn (object : ℕ)
  | termChild (object child : ℕ)
  | terminate (object : ℕ)
  /-- Somebody announces a command to the object. -/
  | incSeqnum (object : ℕ)
  /-- An announced command is sent. -/
  | send (object : ℕ)
  /-- The oldest command to the object is delivered; `defer` puts off `process_term`. -/
  | deliver (object : ℕ) (defer : Bool)
  /-- `process_term` that was put off. -/
  | proceedWithTerm (object : ℕ)

namespace Own

/-- A new object. -/
def new (owner : Option ℕ) : Own :=
  { owner := owner, terminating := false, sentSeqnum := 0, processedSeqnum := 0, owned := ∅,
    termAcks := 0, awaited := 0, inbox := [], launching := none, pendingTerm := false, toSend := 0,
    stage := if owner.isSome then .launching else .root, incs := 0, terms := 0, acks := 0,
    destroys := 0, requested := false }

/-- A command is sent to the object. -/
def push (o : Own) (c : OwnCommand) : Own := { o with inbox := o.inbox ++ [c] }

/-- `own_t::inc_seqnum`. -/
def incSeqnum (o : Own) : Own := { o with sentSeqnum := (o.sentSeqnum + 1) % 2 ^ 32, incs := o.incs + 1 }

/-- `own_t::register_term_acks`, with the count converted to an `int`. -/
def registerTermAcks (o : Own) (count : ℕ) : Own :=
  { o with termAcks := o.termAcks + BitVec.ofNat 32 count, awaited := o.awaited + count }

/-- What `own_t::unregister_term_ack` does after its assertion. -/
def unregisterTermAck (o : Own) : Own := { o with termAcks := o.termAcks - 1, awaited := o.awaited - 1 }

/-- `send_term` to the object. -/
def ask (o : Own) : Own := { o.push .term with stage := .asked }

end Own

namespace OwnTree

/-- Change an object. -/
def modify (s : OwnTree) (p : ℕ) (g : Own → Own) : OwnTree :=
  { s with objects := Function.update s.objects p (g (s.objects p)) }

/-- The object exists, is not deallocated and not inside `launch_child`. -/
def Idle (s : OwnTree) (p : ℕ) : Prop := p < s.count ∧ (s.objects p).destroys = 0 ∧ (s.objects p).launching = none

instance (s : OwnTree) (p : ℕ) : Decidable (s.Idle p) := inferInstanceAs (Decidable (_ ∧ _ ∧ _))

/-- The end of `own_t::check_term_acks`: acknowledge to the owner and deallocate. -/
def destroy (s : OwnTree) (p : ℕ) : OwnTree :=
  match (s.objects p).owner with
  | none => s.modify p fun o => { o with destroys := o.destroys + 1 }
  | some q =>
    (s.modify p fun o =>
      { o with destroys := o.destroys + 1, acks := o.acks + 1, stage := .acked }).modify q
      fun o => o.push (.termAck p)

/-- `own_t::check_term_acks`. -/
def checkTermAcks (s : OwnTree) (p : ℕ) : Except OwnFault OwnTree :=
  if (s.objects p).terminating ∧ (s.objects p).processedSeqnum = (s.objects p).sentSeqnum ∧
      (s.objects p).termAcks = 0 then
    if (s.objects p).owned = ∅ then .ok (s.destroy p) else .error .stillOwned
  else .ok s

/-- `own_t::process_seqnum`. -/
def processSeqnum (s : OwnTree) (p : ℕ) : Except OwnFault OwnTree :=
  (s.modify p fun o => { o with processedSeqnum := o.processedSeqnum + 1 }).checkTermAcks p

/-- `own_t::process_term_req`, which is also `own_t::term_child`. -/
def processTermReq (s : OwnTree) (p c : ℕ) : OwnTree :=
  if (s.objects p).terminating then s
  else if c ∈ (s.objects p).owned then
    (s.modify p fun o => { o.registerTermAcks 1 with owned := o.owned.erase c }).modify c Own.ask
  else s

/-- `own_t::process_own`. -/
def processOwn (s : OwnTree) (p c : ℕ) : OwnTree :=
  if (s.objects p).terminating then
    (s.modify p fun o => o.registerTermAcks 1).modify c Own.ask
  else
    (s.modify p fun o => { o with owned := insert c o.owned }).modify c fun o => { o with stage := .owned }

/-- `send_term` to all objects of a set. -/
def askAll (s : OwnTree) (cs : Finset ℕ) : OwnTree :=
  { s with objects := fun i => if i ∈ cs then (s.objects i).ask else s.objects i }

/-- `own_t::process_term`. -/
def processTerm (s : OwnTree) (p : ℕ) : Except OwnFault OwnTree :=
  if (s.objects p).terminating then .error .doubleTermination
  else
    ((s.askAll (s.objects p).owned).modify p fun o =>
      { o.registerTermAcks o.owned.card with
        owned := ∅, terminating := true, pendingTerm := false }).checkTermAcks p

/-- `own_t::process_term_ack`, which is `own_t::unregister_term_ack`. -/
def processTermAck (s : OwnTree) (p c : ℕ) : Except OwnFault OwnTree :=
  if (s.objects p).termAcks.toInt ≤ 0 then .error .noTermAck
  else ((s.modify c fun o => { o with stage := .gone }).modify p Own.unregisterTermAck).checkTermAcks p

/-- `own_t::terminate`. -/
def terminate (s : OwnTree) (p : ℕ) : Except OwnFault OwnTree :=
  if (s.objects p).terminating then .ok s
  else
    match (s.objects p).owner with
    | none => s.processTerm p
    | some q =>
      .ok ((s.modify p fun o => { o with requested := true }).modify q fun o => o.push (.termReq p))

/-- `object_t::process_command`. -/
def processCommand (s : OwnTree) (p : ℕ) (defer : Bool) : OwnCommand → Except OwnFault OwnTree
  | .plug => s.processSeqnum p
  | .own c => (s.processOwn p c).processSeqnum p
  | .announced => s.processSeqnum p
  | .termReq c => .ok (s.processTermReq p c)
  | .term =>
    let s := s.modify p fun o => { o with terms := o.terms + 1, stage := .dying }
    if defer then .ok (s.modify p fun o => { o with pendingTerm := true }) else s.processTerm p
  | .termAck c => s.processTermAck p c

/-- One step. An object that is deallocated or inside `launch_child` does nothing else. -/
def step (s : OwnTree) : OwnAct → Except OwnFault OwnTree
  | .root => .ok ⟨Function.update s.objects s.count (Own.new none), s.count + 1⟩
  | .launch p =>
    if s.Idle p then
      .ok ⟨Function.update (s.modify p fun o => { o with launching := some s.count }).objects s.count
        ((Own.new (some p)).incSeqnum.push .plug), s.count + 1⟩
    else .ok s
  | .sendOwn p =>
    match (s.objects p).launching with
    | none => .ok s
    | some c =>
      .ok ((s.modify p fun o => { (o.incSeqnum.push (.own c)) with launching := none }).modify c
        fun o => { o with stage := .launched })
  | .termChild p c => if s.Idle p then .ok (s.processTermReq p c) else .ok s
  | .terminate p => if s.Idle p then s.terminate p else .ok s
  | .incSeqnum p =>
    if p < s.count ∧ (s.objects p).destroys = 0 then
      .ok (s.modify p fun o => { o.incSeqnum with toSend := o.toSend + 1 })
    else .ok s
  | .send p =>
    if (s.objects p).toSend = 0 then .ok s
    else .ok (s.modify p fun o => { o.push .announced with toSend := o.toSend - 1 })
  | .deliver p defer =>
    match (s.objects p).inbox with
    | [] => .ok s
    | c :: cs =>
      if (s.objects p).launching ≠ none then .ok s
      else if (s.objects p).destroys ≠ 0 then .error .deadObject
      else (s.modify p fun o => { o with inbox := cs }).processCommand p defer c
  | .proceedWithTerm p =>
    if s.Idle p ∧ (s.objects p).pendingTerm then s.processTerm p else .ok s

/-- No objects. -/
def empty : OwnTree := ⟨fun _ => Own.new none, 0⟩

/-- A sequence of steps. -/
def run (s : OwnTree) (acts : List OwnAct) : Except OwnFault OwnTree := Foundation.runSteps step s acts

end OwnTree

end Zmq
