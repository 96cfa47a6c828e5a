import ZeroMQ.Foundation.Run
import ZeroMQ.Msg
import ZeroMQ.Pipe.YPipe

/-!
# Two paired `pipe_t` ends

Two ends are connected by two lock-free pipes, one in each direction, and by two command channels.
An end is an object of one thread; the peer is reached only through the commands `activate_read`,
`activate_write`, `hiccup`, `pipe_term` and `pipe_term_ack`, which arrive in the order they were
sent. The lock-free pipes are heap objects: a hiccup allocates a new one, and who deallocates which
is part of the protocol, so every cell of the heap counts its deallocations.

`Link` is the whole pair seen from one end: `near` is the end the code runs on, `far` its peer.
Every operation of `pipe_t` is a function on links; `Link.swap` turns the view round. A failed
`zmq_assert` and a use of deallocated memory are faults. Pipes that keep only the last message
(`conflate`) are another data structure and are not part of this model. The 64-bit message counters
are natural numbers.
-/

namespace Zmq

/-! ### State -/

/-- The states of a pipe end. -/
inductive PipeState
  | active
  | delimiterReceived
  | waitingForDelimiter
  | termAckSent
  | termReqSent1
  | termReqSent2
  deriving DecidableEq, Repr

/-- `pipe_t`. The lock-free pipes are named by their addresses. -/
structure Pipe where
  inpipe : ℕ
  outpipe : Option ℕ
  /-- Can the pipe be read from? -/
  inActive : Bool
  /-- Can the pipe be written to? -/
  outActive : Bool
  /-- High watermark of the outbound pipe. -/
  hwm : ℤ
  /-- Low watermark of the inbound pipe. -/
  lwm : ℤ
  msgsRead : ℕ
  msgsWritten : ℕ
  /-- Last received `msgs_read` of the peer. -/
  peersMsgsRead : ℕ
  /-- An object that receives the events of the pipe is set. -/
  sink : Bool
  state : PipeState
  /-- Receive all pending inbound messages before terminating. -/
  delay : Bool
  credential : List UInt8

/-- A command in flight between the two ends. -/
inductive Command
  | activateRead
  | activateWrite (msgsRead : ℕ)
  | hiccup (pipe : Option ℕ)
  | pipeTerm
  | pipeTermAck
  deriving DecidableEq, Repr

/-- One end with its mailbox. The three counters and the flag record what the end has done. -/
structure Endpoint where
  pipe : Pipe
  /-- Commands in flight to this end, oldest first. -/
  inbox : List Command
  /-- How often the object was deallocated. -/
  frees : ℕ
  /-- How many `pipe_term` it has sent. -/
  pipeTerms : ℕ
  /-- How many `pipe_term_ack` it has sent. -/
  pipeTermAcks : ℕ
  /-- `terminate` was called on it. -/
  terminateCalled : Bool

/-- A lock-free pipe on the heap and how often it was deallocated. -/
structure UpipeCell where
  queue : Upipe Msg
  frees : ℕ

/-- Two paired ends, seen from one of them. -/
structure Link where
  near : Endpoint
  far : Endpoint
  upipes : ℕ → UpipeCell
  /-- The next address the allocator hands out. -/
  fresh : ℕ

/-- Where an assertion can fail. -/
inductive PipeAssert
  | probe
  | checkRead
  | rollback
  | processHiccupOutpipe
  | processHiccupPipe
  | processPipeTerm
  | processPipeTermAckSink
  | processPipeTermAck
  | processDelimiter
  deriving DecidableEq, Repr

/-- What can go wrong. -/
inductive PipeFault
  | assertFailed (site : PipeAssert)
  /-- A deallocated lock-free pipe is accessed. -/
  | deadUpipe
  /-- A NULL `outpipe` or `sink` is dereferenced. -/
  | nullPointer
  /-- A command is delivered to a deallocated end. -/
  | deadPipe
  deriving DecidableEq, Repr

/-- An event for the object that owns the end. -/
inductive SinkEvent
  | readActivated
  | writeActivated
  | hiccuped
  | pipeTerminated
  deriving DecidableEq, Repr

namespace Link

/-- The same pair seen from the other end. -/
def swap (s : Link) : Link := { s with near := s.far, far := s.near }

/-- Change the object of the near end. -/
def modifyPipe (s : Link) (g : Pipe → Pipe) : Link := { s with near := { s.near with pipe := g s.near.pipe } }

/-- Send a command to the peer. -/
def send (s : Link) (c : Command) : Link := { s with far := { s.far with inbox := s.far.inbox ++ [c] } }

/-- `send_pipe_term`. -/
def sendPipeTerm (s : Link) : Link :=
  { s with near := { s.near with pipeTerms := s.near.pipeTerms + 1 } }.send .pipeTerm

/-- `send_pipe_term_ack`. -/
def sendPipeTermAck (s : Link) : Link :=
  { s with near := { s.near with pipeTermAcks := s.near.pipeTermAcks + 1 } }.send .pipeTermAck

/-- Access a lock-free pipe. -/
def load (s : Link) (i : ℕ) : Except PipeFault (Upipe Msg) :=
  if (s.upipes i).frees = 0 then .ok (s.upipes i).queue else .error .deadUpipe

/-- Write back a lock-free pipe. -/
def store (s : Link) (i : ℕ) (u : Upipe Msg) : Link :=
  { s with upipes := Function.update s.upipes i { s.upipes i with queue := u } }

/-- Deallocate a lock-free pipe. -/
def free (s : Link) (i : ℕ) : Link :=
  { s with upipes := Function.update s.upipes i { s.upipes i with frees := (s.upipes i).frees + 1 } }

/-- Tell the owner of the end. -/
def notify (s : Link) (e : SinkEvent) : Except PipeFault (Link × Option SinkEvent) :=
  if s.near.pipe.sink then .ok (s, some e) else .error .nullPointer

/-! ### Creation -/

/-- `max_wm_delta` of `config.hpp`. -/
def maxWmDelta : ℤ := 1024

/-- `pipe_t::compute_lwm`. -/
def computeLwm (hwm : ℤ) : ℤ :=
  if hwm > maxWmDelta * 2 then hwm - maxWmDelta else (hwm + 1).tdiv 2

/-- The constructor of `pipe_t`, followed by `set_event_sink`. -/
def newPipe (inpipe outpipe : ℕ) (inhwm outhwm : ℤ) : Pipe :=
  { inpipe := inpipe, outpipe := some outpipe, inActive := true, outActive := true,
    hwm := outhwm, lwm := computeLwm inhwm, msgsRead := 0, msgsWritten := 0, peersMsgsRead := 0,
    sink := true, state := .active, delay := true, credential := [] }

/-- A new end with nothing in flight. -/
def newEndpoint (p : Pipe) : Endpoint := ⟨p, [], 0, 0, 0, false⟩

/-- `pipepair`: the first watermark is for messages from the first end to the second. -/
def pipepair (hwm₀ hwm₁ : ℤ) : Link :=
  { near := newEndpoint (newPipe 0 1 hwm₁ hwm₀), far := newEndpoint (newPipe 1 0 hwm₀ hwm₁),
    upipes := fun _ => ⟨Upipe.empty, 0⟩, fresh := 2 }

/-! ### Reading -/

/-- `outpipe = NULL; send_pipe_term_ack (peer); state = st`. -/
def ackAndEnter (s : Link) (st : PipeState) : Link :=
  (s.modifyPipe fun p => { p with outpipe := none, state := st }).sendPipeTermAck

/-- `pipe_t::process_delimiter`. -/
def processDelimiter (s : Link) : Except PipeFault Link :=
  match s.near.pipe.state with
  | .active => .ok (s.modifyPipe fun p => { p with state := .delimiterReceived })
  | .waitingForDelimiter => .ok (s.ackAndEnter .termAckSent)
  | _ => .error (.assertFailed .processDelimiter)

/-- The first two tests of `check_read` and `read`. -/
def canRead (p : Pipe) : Bool := p.inActive && (p.state = .active || p.state = .waitingForDelimiter)

/-- `in_active = false`. -/
def deactivateIn (s : Link) : Link := s.modifyPipe fun p => { p with inActive := false }

/-- `pipe_t::check_read`. -/
def checkRead (s : Link) : Except PipeFault (Bool × Link) := do
  if !canRead s.near.pipe then return (false, s)
  let i := s.near.pipe.inpipe
  let u ← s.load i
  match u.checkRead with
  | (false, u) => return (false, (s.store i u).deactivateIn)
  | (true, u) =>
    match u.flushed.head? with
    | none => throw (.assertFailed .probe)
    | some front =>
      if front.isDelimiter then
        match u.read with
        | (none, _) => throw (.assertFailed .checkRead)
        | (some _, u) =>
          let s ← (s.store i u).processDelimiter
          return (false, s)
      else return (true, s.store i u)

/-- The loop at `read_message`: credentials at the front are saved and dropped. -/
def skipCredentials (credential : List UInt8) : List Msg → List UInt8 × List Msg
  | [] => (credential, [])
  | m :: ms => if m.isCredential then skipCredentials m.body ms else (credential, m :: ms)

/-- The end of `pipe_t::read`: count the message and tell the peer every `lwm` messages. -/
def countRead (s : Link) (m : Msg) : Link :=
  let s := if !m.more && !m.isIdentity
    then s.modifyPipe fun p => { p with msgsRead := p.msgsRead + 1 } else s
  if s.near.pipe.lwm > 0 ∧ s.near.pipe.msgsRead % s.near.pipe.lwm.toNat = 0
  then s.send (.activateWrite s.near.pipe.msgsRead) else s

/-- `pipe_t::read`: the frame, or `none` when the call returns false. -/
def read (s : Link) : Except PipeFault (Option Msg × Link) := do
  if !canRead s.near.pipe then return (none, s)
  let i := s.near.pipe.inpipe
  let u ← s.load i
  let (credential, rest) := skipCredentials s.near.pipe.credential u.flushed
  let s := s.modifyPipe fun p => { p with credential := credential }
  match { u with flushed := rest }.read with
  | (none, u) => return (none, (s.store i u).deactivateIn)
  | (some m, u) =>
    if m.isDelimiter then
      let s ← (s.store i u).processDelimiter
      return (none, s)
    else return (some m, (s.store i u).countRead m)

/-! ### Writing -/

/-- The test `hwm > 0 && msgs_written - peers_msgs_read == uint64_t (hwm)`. -/
def full (p : Pipe) : Bool := 0 < p.hwm ∧ (p.msgsWritten : ℤ) - p.peersMsgsRead = p.hwm

/-- `pipe_t::check_write`. -/
def checkWrite (s : Link) : Bool × Link :=
  if !s.near.pipe.outActive || s.near.pipe.state ≠ .active then (false, s)
  else if full s.near.pipe then (false, s.modifyPipe fun p => { p with outActive := false })
  else (true, s)

/-- `pipe_t::write`. -/
def write (s : Link) (m : Msg) : Except PipeFault (Bool × Link) :=
  match s.checkWrite with
  | (false, s) => .ok (false, s)
  | (true, s) =>
    match s.near.pipe.outpipe with
    | none => .error .nullPointer
    | some i => do
      let u ← s.load i
      let s := s.store i (u.write m m.more)
      if !m.more && !m.isIdentity
      then return (true, s.modifyPipe fun p => { p with msgsWritten := p.msgsWritten + 1 })
      else return (true, s)

/-- `pipe_t::rollback`: every frame taken back must be one that was to be continued. -/
def rollback (s : Link) : Except PipeFault Link :=
  match s.near.pipe.outpipe with
  | none => .ok s
  | some i => do
    let u ← s.load i
    if u.incomplete.all Msg.more then return s.store i { u with incomplete := [] }
    else throw (.assertFailed .rollback)

/-- `pipe_t::flush`. -/
def flush (s : Link) : Except PipeFault Link :=
  if s.near.pipe.state = .termAckSent then .ok s
  else
    match s.near.pipe.outpipe with
    | none => .ok s
    | some i => do
      let u ← s.load i
      let s := s.store i u.flush.2
      if u.flush.1 then return s else return s.send .activateRead

/-- The end of `pipe_t::terminate`: stop the outbound flow, drop an unfinished message and write the
delimiter. -/
def stopOutbound (s : Link) : Except PipeFault Link := do
  let s := s.modifyPipe fun p => { p with outActive := false }
  match s.near.pipe.outpipe with
  | none => return s
  | some i =>
    let s ← s.rollback
    let u ← s.load i
    (s.store i (u.write Msg.initDelimiter false)).flush

/-- `pipe_t::terminate`. -/
def terminate (s : Link) (delay : Bool) : Except PipeFault Link :=
  let s := { s with near := { s.near with terminateCalled := true } }.modifyPipe fun p => { p with delay := delay }
  match s.near.pipe.state with
  | .termReqSent1 => .ok s
  | .termReqSent2 => .ok s
  | .termAckSent => .ok s
  | .active => (s.sendPipeTerm.modifyPipe fun p => { p with state := .termReqSent1 }).stopOutbound
  | .waitingForDelimiter =>
    if !delay then (s.ackAndEnter .termAckSent).stopOutbound else s.stopOutbound
  | .delimiterReceived =>
    (s.sendPipeTerm.modifyPipe fun p => { p with state := .termReqSent1 }).stopOutbound

/-- `pipe_t::set_nodelay`. -/
def setNodelay (s : Link) : Link := s.modifyPipe fun p => { p with delay := false }

/-- `pipe_t::hiccup`: take a new inbound pipe and leave the old one to the peer. -/
def hiccup (s : Link) : Link :=
  if s.near.pipe.state ≠ .active then s
  else
    ({ s with upipes := Function.update s.upipes s.fresh ⟨Upipe.empty, 0⟩,
              fresh := s.fresh + 1 }.modifyPipe
        fun p => { p with inpipe := s.fresh, inActive := true }).send (.hiccup (some s.fresh))

/-! ### Command handlers -/

/-- `pipe_t::process_activate_read`. -/
def processActivateRead (s : Link) : Except PipeFault (Link × Option SinkEvent) :=
  if !s.near.pipe.inActive ∧ (s.near.pipe.state = .active ∨ s.near.pipe.state = .waitingForDelimiter) then
    (s.modifyPipe fun p => { p with inActive := true }).notify .readActivated
  else .ok (s, none)

/-- `pipe_t::process_activate_write`. -/
def processActivateWrite (s : Link) (msgsRead : ℕ) : Except PipeFault (Link × Option SinkEvent) :=
  let s := s.modifyPipe fun p => { p with peersMsgsRead := msgsRead }
  if !s.near.pipe.outActive ∧ s.near.pipe.state = .active then
    (s.modifyPipe fun p => { p with outActive := true }).notify .writeActivated
  else .ok (s, none)

/-- `pipe_t::process_hiccup`: drain and deallocate the old outbound pipe, plug in the new one. -/
def processHiccup (s : Link) (pipe : Option ℕ) : Except PipeFault (Link × Option SinkEvent) :=
  match s.near.pipe.outpipe with
  | none => .error (.assertFailed .processHiccupOutpipe)
  | some i => do
    let u ← s.load i
    let s := (s.store i { u.flush.2 with flushed := [], asleep := true }).free i
    match pipe with
    | none => throw (.assertFailed .processHiccupPipe)
    | some j =>
      let s := s.modifyPipe fun p => { p with outpipe := some j, outActive := true }
      if s.near.pipe.state = .active then s.notify .hiccuped else return (s, none)

/-- `pipe_t::process_pipe_term`. -/
def processPipeTerm (s : Link) : Except PipeFault Link :=
  match s.near.pipe.state with
  | .active =>
    if s.near.pipe.delay then .ok (s.modifyPipe fun p => { p with state := .waitingForDelimiter })
    else .ok (s.ackAndEnter .termAckSent)
  | .delimiterReceived => .ok (s.ackAndEnter .termAckSent)
  | .termReqSent1 => .ok (s.ackAndEnter .termReqSent2)
  | _ => .error (.assertFailed .processPipeTerm)

/-- The end of `pipe_t::process_pipe_term_ack`: drain and deallocate the inbound pipe, then the
object. -/
def deallocate (s : Link) : Except PipeFault Link := do
  let i := s.near.pipe.inpipe
  let u ← s.load i
  let s := (s.store i { u with flushed := [], asleep := true }).free i
  return { s with near := { s.near with frees := s.near.frees + 1 } }

/-- `pipe_t::process_pipe_term_ack`. -/
def processPipeTermAck (s : Link) : Except PipeFault (Link × Option SinkEvent) := do
  if !s.near.pipe.sink then throw (.assertFailed .processPipeTermAckSink)
  let s ← match s.near.pipe.state with
    | .termReqSent1 =>
      pure (s.modifyPipe fun p => { p with outpipe := none }).sendPipeTermAck
    | .termAckSent => pure s
    | .termReqSent2 => pure s
    | _ => throw (.assertFailed .processPipeTermAck)
  let s ← s.deallocate
  return (s, some .pipeTerminated)

/-- Process one command. -/
def processCommand (s : Link) : Command → Except PipeFault (Link × Option SinkEvent)
  | .activateRead => s.processActivateRead
  | .activateWrite n => s.processActivateWrite n
  | .hiccup p => s.processHiccup p
  | .pipeTerm => do let s ← s.processPipeTerm; return (s, none)
  | .pipeTermAck => s.processPipeTermAck

/-- Deliver the oldest command in flight to the near end, if there is one. -/
def deliver (s : Link) : Except PipeFault (Link × Option SinkEvent) :=
  match s.near.inbox with
  | [] => .ok (s, none)
  | c :: cs =>
    if s.near.frees = 0 then { s with near := { s.near with inbox := cs } }.processCommand c
    else .error .deadPipe

end Link

/-! ### The pair as a transition system -/

/-- What happens at one end: a call by its owner or the delivery of a command. -/
inductive EndAct
  | terminate (delay : Bool)
  | setNodelay
  | checkRead
  | read
  | checkWrite
  | write (flags : MsgFlags) (body : List UInt8)
  | rollback
  | flush
  | hiccup
  | deliver
  deriving DecidableEq, Repr

/-- One of the two ends. -/
inductive Side
  | near
  | far
  deriving DecidableEq, Repr

namespace Link

/-- Perform a call of the owner of the near end. The owner drops its reference when the end is
deallocated, so there are no calls after that. -/
def call (s : Link) (r : Except PipeFault Link) : Except PipeFault (Link × Option SinkEvent) :=
  if s.near.frees = 0 then r.map (·, none) else .ok (s, none)

/-- An act at the near end. -/
def act (s : Link) (a : EndAct) : Except PipeFault (Link × Option SinkEvent) :=
  match a with
  | .deliver => s.deliver
  | .terminate delay => s.call (s.terminate delay)
  | .setNodelay => s.call (.ok s.setNodelay)
  | .checkRead => s.call (s.checkRead.map Prod.snd)
  | .read => s.call (s.read.map Prod.snd)
  | .checkWrite => s.call (.ok s.checkWrite.2)
  | .write flags body => s.call ((s.write ⟨.data, flags, body⟩).map Prod.snd)
  | .rollback => s.call s.rollback
  | .flush => s.call s.flush
  | .hiccup => s.call (.ok s.hiccup)

/-- An act at either end. -/
def step (s : Link) : Side × EndAct → Except PipeFault Link
  | (.near, a) => (s.act a).map Prod.fst
  | (.far, a) => (s.swap.act a).map fun r => r.1.swap

/-- A sequence of acts on a pair. -/
def run (s : Link) (acts : List (Side × EndAct)) : Except PipeFault Link := Foundation.runSteps step s acts

end Link

end Zmq
