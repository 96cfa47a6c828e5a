import ZeroMQ.Pattern.RouterTable

/-!
# REP

`rep_t` is a ROUTER socket that answers requests one after the other. Of a request it copies the
identity of the peer, the identities the request has collected on its way and the empty frame behind
them to the output side of the ROUTER, before it hands the other frames to the application. The reply
of the application is then the rest of a message that has already been begun. A request without an
empty frame is discarded, and what was copied of it is rolled back.

The fields from `current` on do not exist in the code. They say, in terms of what was received and of
the state of the pipes, where each reply belongs: to the pipe of the peer, if it takes a message when the
identity of the peer is copied and is open whenever a frame is to be written to it, and else nowhere.
-/

namespace Zmq

open Foundation

/-- The envelope of a request: the frames up to the first one that is empty. -/
def envelopeOf : List Msg → List Msg
  | [] => []
  | m :: ms => if m.body = [] then [m] else m :: envelopeOf ms

/-- What the peer of a pipe can read, now or after a flush. -/
def Link.outbox (l : Link) : List Msg :=
  match l.near.pipe.outpipe with
  | none => []
  | some i => (l.upipes i).queue.readable

/-- The pipe of the last frame the fair queue has returned. -/
def FqSystem.lastFrom (s : FqSystem) : Option ℕ := (s.received.flatten ++ s.receiving).getLast?.map Prod.snd

/-- A request and the reply to it. -/
structure Exchange where
  /-- The identity in front of the request. -/
  identity : Identity
  /-- The pipe the request came from. -/
  source : Option ℕ
  /-- That pipe is gone or has lost the identity to another one. -/
  displaced : Bool
  /-- The pipe the reply goes to. -/
  target : Option ℕ
  /-- The frames of the request behind the identity. -/
  request : List Msg
  reply : List Msg
  deriving DecidableEq, Repr

namespace Exchange

/-- What the peer gets. -/
def frames (e : Exchange) : List Msg := envelopeOf e.request ++ e.reply

/-- The peer of an identity gets a message only if its pipe takes one. -/
def route (id : Identity) (r : Router) : Option ℕ := (r.pipeOf id).filter fun p => (r.inp.links p).checkWrite.1

/-- A request begins with the identity of its peer. -/
def begin (id : Identity) (r : Router) : Exchange where
  identity := id
  source := r.inp.lastFrom
  displaced := r.inp.lastFrom.all fun p => (r.inp.links p).near.frees ≠ 0 ∨ r.identities p ≠ id
  target := route id r
  request := []
  reply := []

/-- A frame is to be written. -/
def write (r : Router) (e : Exchange) : Exchange :=
  { e with target := e.target.filter fun p => (r.inp.links p).near.pipe.state = .active }

/-- The request turns out to be malformed. -/
def discard (r : Router) (e : Exchange) : Exchange :=
  { e with target := e.target.filter fun p => (r.inp.links p).near.frees = 0 }

/-- A frame of the request is received. -/
def receive (m : Msg) (e : Exchange) : Exchange := { e with request := e.request ++ [m] }

/-- A frame of the reply is sent. -/
def answer (m : Msg) (e : Exchange) : Exchange := { e with reply := e.reply ++ [m] }

end Exchange

/-- What `rep_t` reports when it fails. -/
inductive RepErrno
  | efsm
  | eagain
  | ehostunreach
  deriving DecidableEq, Repr

/-- The same error of a ROUTER socket. -/
def RepErrno.ofRouter : RouterErrno → RepErrno
  | .eagain => .eagain
  | .ehostunreach => .ehostunreach

/-- `rep_t`. -/
structure Rep where
  router : Router
  sendingReply : Bool
  requestBegins : Bool
  /-- The request that is being received or replied to. -/
  current : Option Exchange
  /-- The exchanges that have come to their end, oldest first. -/
  replied : List Exchange
  /-- The requests that were malformed. -/
  discarded : List Exchange
  /-- What a pipe was greeted with. -/
  greeted : ℕ → List Msg

namespace Rep

/-- The constructor of `rep_t`. -/
def new (nextRid : UInt32) : Rep where
  router := Router.new nextRid
  sendingReply := false
  requestBegins := true
  current := none
  replied := []
  discarded := []
  greeted := fun _ => []

/-! ### Receiving -/

/-- A frame in front of the delimiter, or the delimiter, belongs to the request. -/
def take (m : Msg) (s : Rep) : Option Exchange :=
  match s.current with
  | none => some (Exchange.begin m.body s.router)
  | some e => some ((e.write s.router).receive m)

/-- `router_t::xsend` and `errno_assert (rc == 0)`: a frame is copied to the reply pipe. -/
def copy (m : Msg) (s : Rep) : Except RouterFault Rep :=
  match s.router.xsend m with
  | .error f => .error f
  | .ok (.error _, _) => .error .assertFailed
  | .ok (.ok (), router) => .ok { s with router, current := s.take m }

/-- `router_t::rollback`: a malformed request is discarded. -/
def rollback (s : Rep) : Except RouterFault Rep :=
  match s.router.rollback with
  | .error f => .error f
  | .ok router =>
    .ok { s with router, current := none
                 discarded := s.discarded ++ (s.current.map (Exchange.discard s.router)).toList }

/-- The loop in `xrecv`: whether the delimiter was found. -/
def recvEnvelope (rounds : ℕ) : ℕ → Rep → Except RouterFault (Bool × Rep)
  | 0, _ => .error .running
  | n + 1, s =>
    match s.router.xrecv rounds with
    | .error f => .error f
    | .ok (none, router) => .ok (false, { s with router })
    | .ok (some m, router) =>
      if m.more then
        match { s with router }.copy m with
        | .error f => .error f
        | .ok s => if m.body = [] then .ok (true, s) else recvEnvelope rounds n s
      else
        match { s with router }.rollback with
        | .error f => .error f
        | .ok s => recvEnvelope rounds n s

/-- The end of `xrecv`: a frame for the application. -/
def recvBody (n : ℕ) (s : Rep) : Except RouterFault (Except RepErrno Msg × Rep) :=
  match s.router.xrecv n with
  | .error f => .error f
  | .ok (none, router) => .ok (.error .eagain, { s with router })
  | .ok (some m, router) =>
    let s := { s with router, current := s.current.map (Exchange.receive m) }
    .ok (.ok m, if m.more then s else { s with sendingReply := true, requestBegins := true })

/-- `rep_t::xrecv`. Every loop has at most `n` rounds. -/
def xrecv (n : ℕ) (s : Rep) : Except RouterFault (Except RepErrno Msg × Rep) :=
  if s.sendingReply then .ok (.error .efsm, s)
  else if s.requestBegins then
    match s.recvEnvelope n n with
    | .error f => .error f
    | .ok (false, s) => .ok (.error .eagain, s)
    | .ok (true, s) => { s with requestBegins := false }.recvBody n
  else s.recvBody n

/-- `rep_t::xhas_in`. -/
def xhasIn (n : ℕ) (s : Rep) : Except RouterFault (Bool × Rep) :=
  if s.sendingReply then .ok (false, s)
  else
    match s.router.xhasIn n with
    | .error f => .error f
    | .ok (b, router) => .ok (b, { s with router })

/-- A frame of the reply was accepted. -/
def replyWith (m : Msg) (s : Rep) : Rep :=
  let current := s.current.map fun e => (e.write s.router).answer m
  if m.more then { s with current } else { s with current := none, replied := s.replied ++ current.toList }

/-- `rep_t::xsend`. -/
def xsend (m : Msg) (s : Rep) : Except RouterFault (Except RepErrno Unit × Rep) :=
  if !s.sendingReply then .ok (.error .efsm, s)
  else
    match s.router.xsend m with
    | .error f => .error f
    | .ok (.error e, router) => .ok (.error (.ofRouter e), { s with router })
    | .ok (.ok (), router) =>
      .ok (.ok (), { s.replyWith m with router, sendingReply := m.more })

/-- One step. What is not said here is done by the ROUTER. -/
def step (s : Rep) : RouterAct → Except RouterFault Rep
  | .recv n => (s.xrecv n).map Prod.snd
  | .hasIn n => (s.xhasIn n).map Prod.snd
  | .send flags body => (s.xsend ⟨.data, flags, body⟩).map Prod.snd
  | .attach hwm₀ hwm₁ before =>
    (s.router.step (.attach hwm₀ hwm₁ before)).map fun router =>
      { s with router, greeted := Function.update s.greeted s.router.inp.count
                                    (if s.router.probeRouter then [Dealer.probeMsg] else []) }
  | a => (s.router.step a).map fun router => { s with router }

/-- A sequence of steps. -/
def run (s : Rep) (acts : List RouterAct) : Except RouterFault Rep := runSteps step s acts

/-- What a pipe was sent: the greeting and the replies that belong to it, with their envelopes. -/
def sentTo (p : ℕ) (s : Rep) : List Msg :=
  s.greeted p ++ (s.replied.filter fun e => e.target = some p).flatMap Exchange.frames

/-- A request is well formed if it has a delimiter with something behind it. -/
def WellFormed (request : List Msg) : Prop :=
  ∃ stack delimiter body, request = stack ++ delimiter :: body ∧
    (∀ m ∈ stack, m.more = true ∧ m.body ≠ []) ∧ delimiter.more = true ∧ delimiter.body = [] ∧
    Whole Msg.more body

/-- While a reply is being sent the application can send the next frame of it, and with the last frame
the peer the reply belongs to gets the envelope of the request and the reply, and nobody else gets
anything. -/
def Delivers (s : Rep) : Prop :=
  ∃ e, s.current = some e ∧ WellFormed e.request ∧
    ∀ m, ∃ t, s.xsend m = .ok (.ok (), t) ∧
      ∀ p < s.router.inp.count, (t.router.inp.links p).outbox = (s.router.inp.links p).outbox ++
        if m.more = false ∧ (e.write s.router).target = some p then e.frames ++ [m] else []

/-- Replies are routed. -/
structure Routes (s : Rep) : Prop where
  /-- Everything a peer can read is the end of the messages that belong to it, and delimiters. -/
  readable : ∀ p < s.router.inp.count, ∀ i ≠ (s.router.inp.links p).near.pipe.inpipe, ∃ n,
    ((s.router.inp.links p).upipes i).queue.readable <:+ s.sentTo p ++ List.replicate n Msg.initDelimiter
  /-- A reply belongs to the pipe the request came from, or, if the peer has another pipe now, to that
  one. -/
  source : ∀ e ∈ s.replied ++ s.current.toList, ∀ p, e.target = some p → e.source = some p ∨ e.displaced = true
  delivers : s.sendingReply = true → s.Delivers

end Rep

end Zmq
