import ZeroMQ.Pattern.Attached
import ZeroMQ.Pipe.Epochs

/-!
# The endpoints of a socket

A socket remembers what it has bound and connected in two maps from addresses: `endpoints` holds the
listener or session of an address and the pipe that was made with the session, `inprocs` holds the pipes
to sockets of the same process. `term_endpoint` looks an address up, terminates what it finds and removes
the entries. Sessions and pipes also end in other ways: a session asks its owner to terminate it when its
peer violates the protocol, and a pipe ends when either of its two ends is terminated.

The pipes are those of the socket, seen from its end, and the children are its listeners and sessions. A
child is `owned`, or it was sent the command `term`, or it is deallocated; only a child that was sent the
command is deallocated, and only when its end of the pipe is gone.
-/

namespace Zmq

open Foundation Function

/-- An address. `inproc` names a socket of the same process. -/
structure Uri where
  inproc : Bool
  address : String
  deriving DecidableEq, Repr

/-- The life of a listener or a session. -/
inductive ChildPhase
  | owned
  /-- The socket has sent it `term`. -/
  | termSent
  | destroyed
  deriving DecidableEq, Repr

/-- An entry of `endpoints`. -/
structure EndpointEntry where
  addr : Uri
  child : ℕ
  pipe : Option ℕ
  deriving DecidableEq, Repr

/-- The part of `socket_base_t` that is about endpoints, with its pipes and its children. -/
structure Endpoints where
  links : Pipes
  /-- The number of the next pipe. -/
  count : ℕ
  /-- The session that has the other end of a pipe, if it was made with a session. -/
  owner : ℕ → Option ℕ
  phase : ℕ → ChildPhase
  /-- The number of the next child. -/
  children : ℕ
  /-- Map of open endpoints. -/
  endpoints : List EndpointEntry
  /-- Map of open inproc endpoints. -/
  inprocs : List (Uri × ℕ)
  /-- The inproc addresses the socket is registered under. -/
  bound : List Uri
  /-- `options.immediate == 1`. -/
  immediate : Bool
  /-- The children `term_endpoint` has terminated, oldest first. -/
  disconnected : List ℕ

/-- What can go wrong. -/
inductive EndpointFault
  /-- An operation of a deallocated pipe is called. -/
  | deadPipe
  | pipe (fault : PipeFault)
  deriving DecidableEq, Repr

/-- What can happen to the endpoints of a socket. -/
inductive EndpointAct
  /-- `bind`; for an inproc address `ok` says that the address is free, else that the listener can use
  it. -/
  | bind (addr : Uri) (ok : Bool)
  /-- `connect`; `toAll` is set for `pgm`, `epgm` and `norm`, and `rejects` says that the pattern of the
  socket terminates the new pipe when it is attached. -/
  | connect (addr : Uri) (toAll rejects : Bool) (hwm₀ hwm₁ : ℤ)
  /-- A pipe arrives from a session or from another socket. -/
  | processBind (hwm₀ hwm₁ : ℤ)
  | termEndpoint (addr : Uri)
  | setImmediate (b : Bool)
  /-- A child asks to be terminated. -/
  | termReq (child : ℕ)
  /-- A child that was terminated is deallocated. -/
  | destroy (child : ℕ)
  /-- The pattern of the socket does something with a pipe, or a command arrives. -/
  | socket (pipe : ℕ) (act : { a : EndAct // a ≠ .hiccup })
  /-- The other end of a pipe. -/
  | peer (pipe : ℕ) (act : EndAct)

/-- The act is a call of `terminate`. -/
def EndAct.terminates : EndAct → Bool
  | .terminate _ => true
  | _ => false

namespace Endpoints

/-! ### Pipes and children -/

/-- A pipe after something was done with it. -/
def setLink (s : Endpoints) (p : ℕ) (l : Link) : Endpoints := { s with links := update s.links p l }

/-- `pipe_t::terminate`. -/
def terminate (s : Endpoints) (p : ℕ) (delay : Bool) : Except EndpointFault Endpoints :=
  if (s.links p).near.frees ≠ 0 then .error .deadPipe
  else
    match (s.links p).terminate delay with
    | .ok l => .ok (s.setLink p l)
    | .error f => .error (.pipe f)

/-- A new pair, attached to the socket. -/
def newPair (s : Endpoints) (hwm₀ hwm₁ : ℤ) (owner : Option ℕ) : Endpoints :=
  { s with links := update s.links s.count (Link.pipepair hwm₀ hwm₁), count := s.count + 1,
           owner := update s.owner s.count owner }

/-- `attach_pipe` of the new pipe; the pattern may terminate it. -/
def attachPipe (s : Endpoints) (p : ℕ) (rejects : Bool) : Except EndpointFault Endpoints :=
  if rejects then s.terminate p false else .ok s

/-- `own_t::process_term_req`, also called as `term_child`: the child is sent `term` unless that was done
before. -/
def processTermReq (s : Endpoints) (c : ℕ) : Endpoints :=
  if s.phase c = .owned then { s with phase := update s.phase c .termSent } else s

/-- `socket_base_t::add_endpoint`: the socket becomes the owner of a new child. -/
def addEndpoint (s : Endpoints) (addr : Uri) (pipe : Option ℕ) : Endpoints :=
  { s with phase := update s.phase s.children .owned, children := s.children + 1,
           endpoints := s.endpoints ++ [⟨addr, s.children, pipe⟩] }

/-- An inproc connection is remembered. -/
def addInproc (s : Endpoints) (addr : Uri) (p : ℕ) : Endpoints := { s with inprocs := s.inprocs ++ [(addr, p)] }

/-! ### Calls of the application -/

/-- `socket_base_t::bind`. -/
def bind (s : Endpoints) (addr : Uri) (ok : Bool) : Endpoints :=
  if !ok then s
  else if addr.inproc then { s with bound := addr :: s.bound }
  else s.addEndpoint addr none

/-- `socket_base_t::connect`. A socket of a type with a single connection to an address ignores a
second one. -/
def connect (single : Bool) (s : Endpoints) (addr : Uri) (toAll rejects : Bool) (hwm₀ hwm₁ : ℤ) :
    Except EndpointFault Endpoints :=
  if addr.inproc then do
    let s' ← (s.newPair hwm₀ hwm₁ none).attachPipe s.count rejects
    return s'.addInproc addr s.count
  else if single && s.endpoints.any (fun e => e.addr = addr) then .ok s
  else if !s.immediate || toAll then do
    let s' ← (s.newPair hwm₀ hwm₁ (some s.children)).attachPipe s.count rejects
    return s'.addEndpoint addr (some s.count)
  else .ok (s.addEndpoint addr none)

/-- The loop of `term_endpoint` over the endpoints of an address. -/
def termEntries : List EndpointEntry → Endpoints → Except EndpointFault Endpoints
  | [], s => .ok s
  | e :: es, s =>
    match e.pipe with
    | none => termEntries es (s.processTermReq e.child)
    | some p =>
      match s.terminate p false with
      | .error f => .error f
      | .ok s => termEntries es (s.processTermReq e.child)

/-- The loop of `term_endpoint` over the pipes of an inproc address. -/
def termInprocs : List (Uri × ℕ) → Endpoints → Except EndpointFault Endpoints
  | [], s => .ok s
  | e :: es, s =>
    match s.terminate e.2 true with
    | .error f => .error f
    | .ok s => termInprocs es s

/-- The entries of an inproc address are removed. -/
def dropInprocs (s : Endpoints) (addr : Uri) : Endpoints :=
  { s with inprocs := s.inprocs.filter fun e => e.1 ≠ addr }

/-- The entries of an address are removed; `range` are these entries. -/
def dropEntries (s : Endpoints) (addr : Uri) (range : List EndpointEntry) : Endpoints :=
  { s with endpoints := s.endpoints.filter (fun e => e.addr ≠ addr),
           disconnected := s.disconnected ++ range.map EndpointEntry.child }

/-- `socket_base_t::term_endpoint`: the result is false if it fails with `ENOENT`. -/
def termEndpoint (s : Endpoints) (addr : Uri) : Except EndpointFault (Bool × Endpoints) :=
  if addr.inproc then
    if addr ∈ s.bound then .ok (true, { s with bound := s.bound.erase addr })
    else
      let range := s.inprocs.filter fun e => e.1 = addr
      if range = [] then .ok (false, s)
      else (termInprocs range s).map fun s => (true, s.dropInprocs addr)
  else
    let range := s.endpoints.filter fun e => e.addr = addr
    if range = [] then .ok (false, s)
    else (termEntries range s).map fun s => (true, s.dropEntries addr range)

/-! ### Events of the pipes -/

/-- Remove the first entry of `inprocs` with this pipe. -/
def eraseInproc (p : ℕ) : List (Uri × ℕ) → List (Uri × ℕ)
  | [] => []
  | e :: es => if e.2 = p then es else e :: eraseInproc p es

/-- `socket_base_t::pipe_terminated`, as far as it concerns endpoints. -/
def pipeTerminated (s : Endpoints) (p : ℕ) : Endpoints := { s with inprocs := eraseInproc p s.inprocs }

/-- What the socket does about an event of a pipe, as far as it concerns endpoints; the first case is
`socket_base_t::hiccuped`. -/
def react (s : Endpoints) (p : ℕ) : Option SinkEvent → Except EndpointFault Endpoints
  | some .hiccuped => if s.immediate then s.terminate p false else .ok s
  | some .pipeTerminated => .ok (s.pipeTerminated p)
  | _ => .ok s

/-- The end of a session is terminated only after the session was sent `term`. -/
def peerMay (s : Endpoints) (p : ℕ) : EndAct → Bool
  | .terminate _ =>
    match s.owner p with
    | none => true
    | some c => s.phase c = .termSent
  | _ => true

/-- A child was sent `term` and its end of its pipe is gone. -/
def mayDestroy (s : Endpoints) (c : ℕ) : Prop :=
  s.phase c = .termSent ∧ ∀ p < s.count, s.owner p = some c → (s.links p).far.frees ≠ 0

instance (s : Endpoints) (c : ℕ) : Decidable (s.mayDestroy c) :=
  inferInstanceAs (Decidable (_ ∧ ∀ p < s.count, _ → _))

/-- One act on the endpoints of a socket. Acts on pipes that do not exist do nothing. -/
def step (single : Bool) (s : Endpoints) : EndpointAct → Except EndpointFault Endpoints
  | .bind addr ok => .ok (s.bind addr ok)
  | .connect addr toAll rejects hwm₀ hwm₁ => s.connect single addr toAll rejects hwm₀ hwm₁
  | .processBind hwm₀ hwm₁ => .ok (s.newPair hwm₀ hwm₁ none)
  | .termEndpoint addr => (s.termEndpoint addr).map Prod.snd
  | .setImmediate b => .ok { s with immediate := b }
  | .termReq c => .ok (s.processTermReq c)
  | .destroy c =>
    if s.mayDestroy c then .ok { s with phase := update s.phase c .destroyed } else .ok s
  | .socket p a =>
    if p < s.count then
      match (s.links p).act a.1 with
      | .error f => .error (.pipe f)
      | .ok (l, e) => (s.setLink p l).react p e
    else .ok s
  | .peer p a =>
    if p < s.count ∧ s.peerMay p a then
      match (s.links p).swap.act a with
      | .error f => .error (.pipe f)
      | .ok (l, _) => .ok (s.setLink p l.swap)
    else .ok s

/-- A new socket. -/
def new : Endpoints :=
  { links := fun _ => Link.pipepair 0 0, count := 0, owner := fun _ => none, phase := fun _ => .owned,
    children := 0, endpoints := [], inprocs := [], bound := [], immediate := false, disconnected := [] }

/-- A sequence of acts on a new socket. -/
def run (single : Bool) (acts : List EndpointAct) : Except EndpointFault Endpoints :=
  runSteps (step single) new acts

/-! ### Validity -/

/-- Everything the two maps refer to is there. Of what was bound or connected each is open or was
disconnected, and that once; and what is open can be disconnected. -/
structure Valid (s : Endpoints) : Prop where
  children : ∀ e ∈ s.endpoints, s.phase e.child ≠ .destroyed
  pipes : ∀ e ∈ s.endpoints, ∀ p ∈ e.pipe, (s.links p).near.frees = 0
  inprocs : ∀ e ∈ s.inprocs, (s.links e.2).near.frees = 0
  once : (s.endpoints.map EndpointEntry.child ++ s.disconnected).Nodup
  all : ∀ c < s.children, c ∈ s.endpoints.map EndpointEntry.child ++ s.disconnected
  can : ∀ e ∈ s.endpoints, ∃ t, s.termEndpoint e.addr = .ok (true, t) ∧ e.child ∈ t.disconnected

/-- The child has an entry in `endpoints`. -/
def holdsChild (s : Endpoints) (c : ℕ) : Bool := s.endpoints.any fun e => e.child = c

/-- The pipe has an entry in `endpoints`. -/
def holdsPipe (s : Endpoints) (p : ℕ) : Bool := s.endpoints.any fun e => e.pipe = some p

/-- The acts `endpoints` keeps up with: no child with an entry asks to be terminated, and a pipe with an
entry is terminated by `term_endpoint` only. -/
def Tracked (s : Endpoints) : EndpointAct → Prop
  | .connect addr toAll rejects _ _ =>
    addr.inproc = false → s.immediate = false ∨ toAll = true → rejects = false
  | .termReq c => s.holdsChild c = false
  | .socket p a =>
    (a.1.terminates = true → s.holdsPipe p = false) ∧
    (a.1 = .deliver → s.immediate = true → Link.hiccupNext (s.links p).near = true → s.holdsPipe p = false)
  | _ => True

instance (s : Endpoints) (a : EndpointAct) : Decidable (s.Tracked a) :=
  match a with
  | .connect _ _ _ _ _ => inferInstanceAs (Decidable (_ → _ → _))
  | .termReq _ => inferInstanceAs (Decidable (_ = _))
  | .socket _ _ => inferInstanceAs (Decidable ((_ → _) ∧ (_ → _ → _ → _)))
  | .bind _ _ | .processBind _ _ | .termEndpoint _ | .setImmediate _ | .destroy _ | .peer _ _ =>
    inferInstanceAs (Decidable True)

end Endpoints

end Zmq
