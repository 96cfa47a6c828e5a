import ZeroMQ.Pattern.Dealer
import ZeroMQ.Pattern.ReqSession

/-!
# REQ

`req_t` is a DEALER that sends a request and waits for the reply. The pipe the envelope of the request
was written to is remembered in `reply_pipe`, and frames that come from other pipes are dropped; when
that pipe is terminated `reply_pipe` is reset, and from then on frames of every pipe are taken. Unless
the socket is relaxed it does not send a request before the reply to the last one has been received.

The loops of the source end when the fair queue has no more frames. Since the peers may add frames all
the time, the functions below take the number of rounds after which a loop is left unfinished.

The frame with the request id does not hold the id, it points to the field of the socket. A peer in
another process receives a copy; a peer in the same process receives the frame itself, and if it sends the
frame back the socket finds its own field there.
-/

namespace Zmq

open Foundation

/-- What can go wrong in a REQ socket. -/
inductive ReqFault
  | dealer (fault : PatternFault)
  /-- A `zmq_assert` or an `errno_assert` fails. -/
  | assertFailed
  /-- A loop has not come to its end. -/
  | running
  deriving DecidableEq, Repr

/-- What `xsend` and `xrecv` report when they fail. -/
inductive ReqErrno
  | efsm
  | eagain
  deriving DecidableEq, Repr

/-- What the application has done. -/
inductive ReqEvent
  /-- The last frame of a request was accepted. -/
  | sent
  /-- The last frame of a reply was received. -/
  | received
  deriving DecidableEq, Repr

/-- `req_t`. The fields from `requestPipe` on record what has happened. -/
structure Req where
  dealer : Dealer
  receivingReply : Bool
  messageBegins : Bool
  replyPipe : Option ℕ
  requestIdFramesEnabled : Bool
  requestId : UInt32
  strict : Bool
  /-- The pipe to which the envelope of the most recent request was written. -/
  requestPipe : Option ℕ
  /-- The pipes of which the socket knows that they are terminated. -/
  gone : List ℕ
  events : List ReqEvent
  /-- How often the request id was increased. -/
  increments : ℕ

namespace Req

/-- The constructor of `req_t`; the first request id is random. -/
def new (requestId : UInt32) : Req where
  dealer := Dealer.new
  receivingReply := false
  messageBegins := true
  replyPipe := none
  requestIdFramesEnabled := false
  requestId := requestId
  strict := true
  requestPipe := none
  gone := []
  events := []
  increments := 0

/-! ### Sending -/

/-- `reply_pipe->terminate (false)`, if there is a reply pipe. -/
def terminateReplyPipe (s : Req) : Except ReqFault Req :=
  match s.replyPipe with
  | none => .ok s
  | some p =>
    match s.dealer.terminate p false with
    | .error e => .error (.dealer e)
    | .ok dealer => .ok { s with dealer }

/-- The beginning of `xsend` in a relaxed socket: the reply is not awaited any longer. -/
def abandonReply (s : Req) : Except ReqFault Req :=
  if s.receivingReply then
    match s.terminateReplyPipe with
    | .error f => .error f
    | .ok s => .ok { s with receivingReply := false, messageBegins := true }
  else .ok s

/-- `dealer_t::sendpipe (&frame, &reply_pipe)`: whether the frame was sent. -/
def sendEnvelope (m : Msg) (s : Req) : Except ReqFault (Bool × Req) :=
  match s.dealer.sendpipe m with
  | .error e => .error (.dealer e)
  | .ok (.again, dealer) => .ok (false, { s with dealer })
  | .ok (.dropped, dealer) => .ok (true, { s with dealer })
  | .ok (.written p, dealer) =>
    .ok (true, { s with dealer, replyPipe := some p, requestPipe := some p })

/-- The frame `xsend` makes of the request id. It points to the field of the socket. -/
def idMsg (id : UInt32) : Msg := ⟨.cmsg, frameFlags true, uint32Bytes id⟩

/-- The request id in front of a request, if it is enabled. -/
def sendId (s : Req) : Except ReqFault (Bool × Req) :=
  if s.requestIdFramesEnabled then
    { s with requestId := s.requestId + 1, increments := s.increments + 1 }.sendEnvelope (idMsg (s.requestId + 1))
  else .ok (true, s)

/-- All frames that are there are received and dropped. -/
def eat : ℕ → Req → Except ReqFault Req
  | 0, _ => .error .running
  | n + 1, s =>
    match s.dealer.recvpipe with
    | .error e => .error (.dealer e)
    | .ok (none, dealer) => .ok { s with dealer }
    | .ok (some _, dealer) => eat n { s with dealer }

/-- The first part of a request: whether it was sent. -/
def beginRequest (n : ℕ) (s : Req) : Except ReqFault (Bool × Req) :=
  match { s with replyPipe := none }.sendId with
  | .error f => .error f
  | .ok (false, s) => .ok (false, s)
  | .ok (true, s) =>
    match s.sendEnvelope bottomFrame with
    | .error f => .error f
    | .ok (false, s) => .ok (false, s)
    | .ok (true, s) =>
      if s.replyPipe = none then .error .assertFailed
      else
        match { s with messageBegins := false }.eat n with
        | .error f => .error f
        | .ok s => .ok (true, s)

/-- The end of `xsend`: the frame of the application. -/
def sendBody (m : Msg) (s : Req) : Except ReqFault (Except ReqErrno Unit × Req) :=
  match s.dealer.sendpipe m with
  | .error e => .error (.dealer e)
  | .ok (.again, dealer) => .ok (.error .eagain, { s with dealer })
  | .ok (_, dealer) =>
    if m.more then .ok (.ok (), { s with dealer })
    else .ok (.ok (), { s with dealer, receivingReply := true, messageBegins := true
                               events := s.events ++ [.sent] })

/-- `req_t::xsend`. -/
def xsend (n : ℕ) (m : Msg) (s : Req) : Except ReqFault (Except ReqErrno Unit × Req) :=
  if s.receivingReply ∧ s.strict then .ok (.error .efsm, s)
  else
    match s.abandonReply with
    | .error f => .error f
    | .ok s =>
      if s.messageBegins then
        match s.beginRequest n with
        | .error f => .error f
        | .ok (false, s) => .ok (.error .eagain, s)
        | .ok (true, s) => s.sendBody m
      else s.sendBody m

/-! ### Receiving -/

/-- `req_t::recv_reply_pipe`, with the pipe the frame comes from. -/
def recvReplyPipe : ℕ → Req → Except ReqFault (Option FrameFrom × Req)
  | 0, _ => .error .running
  | n + 1, s =>
    match s.dealer.recvpipe with
    | .error e => .error (.dealer e)
    | .ok (none, dealer) => .ok (none, { s with dealer })
    | .ok (some (m, p), dealer) =>
      if s.replyPipe = none ∨ s.replyPipe = some p then .ok (some (m, p), { s with dealer })
      else recvReplyPipe n { s with dealer }

/-- The frames behind `m` are received and dropped. -/
def skipRest (n : ℕ) : ℕ → Msg → Req → Except ReqFault Req
  | 0, m, s => if m.more then .error .running else .ok s
  | k + 1, m, s =>
    if m.more then
      match s.recvReplyPipe n with
      | .error f => .error f
      | .ok (none, _) => .error .assertFailed
      | .ok (some (m, _), s) => skipRest n k m s
    else .ok s

/-- How a round of the loop of `xrecv` ends. -/
inductive Round
  /-- The first frames were the right ones. -/
  | found
  /-- They were not, and the message was skipped. -/
  | skipped
  | eagain
  deriving DecidableEq, Repr

/-- A message with wrong first frames is skipped. -/
def skipMessage (n : ℕ) (m : Msg) (s : Req) : Except ReqFault (Round × Req) :=
  match s.skipRest n n m with
  | .error f => .error f
  | .ok s => .ok (.skipped, s)

/-- The next frame must be empty. -/
def matchBottom (n : ℕ) (s : Req) : Except ReqFault (Round × Req) :=
  match s.recvReplyPipe n with
  | .error f => .error f
  | .ok (none, s) => .ok (.eagain, s)
  | .ok (some (m, _), s) =>
    if m.more ∧ m.body = [] then .ok (.found, { s with messageBegins := false })
    else s.skipMessage n m

/-- What `data ()` of a frame points to: the field of the socket, or the body of the frame. -/
def content (s : Req) (m : Msg) : List UInt8 := if m.type = .cmsg then uint32Bytes s.requestId else m.body

/-- The frame is the request id: it has its size and its value, and there are more frames behind it. -/
def MatchesId (m : Msg) (s : Req) : Prop := m.more = true ∧ s.content m = uint32Bytes s.requestId

instance (m : Msg) (s : Req) : Decidable (s.MatchesId m) :=
  inferInstanceAs (Decidable (m.more = true ∧ s.content m = uint32Bytes s.requestId))

/-- A round of the loop of `xrecv`. -/
def matchEnvelope (n : ℕ) (s : Req) : Except ReqFault (Round × Req) :=
  if s.requestIdFramesEnabled then
    match s.recvReplyPipe n with
    | .error f => .error f
    | .ok (none, s) => .ok (.eagain, s)
    | .ok (some (m, _), s) => if s.MatchesId m then s.matchBottom n else s.skipMessage n m
  else s.matchBottom n

/-- The loop of `xrecv`: whether a message with the right first frames was found. -/
def matchLoop (n : ℕ) : ℕ → Req → Except ReqFault (Bool × Req)
  | 0, s => if s.messageBegins then .error .running else .ok (true, s)
  | k + 1, s =>
    if s.messageBegins then
      match s.matchEnvelope n with
      | .error f => .error f
      | .ok (.eagain, s) => .ok (false, s)
      | .ok (_, s) => matchLoop n k s
    else .ok (true, s)

/-- The end of `xrecv`: a frame of the reply. -/
def recvBody (n : ℕ) (s : Req) : Except ReqFault (Except ReqErrno FrameFrom × Req) :=
  match s.recvReplyPipe n with
  | .error f => .error f
  | .ok (none, s) => .ok (.error .eagain, s)
  | .ok (some (m, p), s) =>
    if m.more then .ok (.ok (m, p), s)
    else .ok (.ok (m, p), { s with receivingReply := false, messageBegins := true
                                   events := s.events ++ [.received] })

/-- `req_t::xrecv`, with the pipe the frame comes from; the loop is executed at most `k` times, the loops
inside it at most `n` times. -/
def xrecv (n k : ℕ) (s : Req) : Except ReqFault (Except ReqErrno FrameFrom × Req) :=
  if s.receivingReply then
    match s.matchLoop n k with
    | .error f => .error f
    | .ok (false, s) => .ok (.error .eagain, s)
    | .ok (true, s) => s.recvBody n
  else .ok (.error .efsm, s)

/-! ### The socket -/

/-- `req_t::xhas_in`. -/
def xhasIn (s : Req) : Except ReqFault (Bool × Req) :=
  if s.receivingReply then
    match s.dealer.xhasIn with
    | .error e => .error (.dealer e)
    | .ok (b, dealer) => .ok (b, { s with dealer })
  else .ok (false, s)

/-- `req_t::xhas_out`. -/
def xhasOut (s : Req) : Except ReqFault (Bool × Req) :=
  if s.receivingReply then .ok (false, s)
  else
    match s.dealer.xhasOut with
    | .error e => .error (.dealer e)
    | .ok (b, dealer) => .ok (b, { s with dealer })

/-- `req_t::xpipe_terminated`. -/
def xpipeTerminated (p : ℕ) (s : Req) : Req :=
  { s with replyPipe := if s.replyPipe = some p then none else s.replyPipe, gone := s.gone ++ [p] }

end Req

/-- A step of a REQ socket, its pipes and their peers. -/
inductive ReqAct
  /-- A new pipe is attached. -/
  | attach (hwm₀ hwm₁ : ℤ)
  /-- The application sends a frame; the loop has at most `n` rounds. -/
  | send (n : ℕ) (flags : MsgFlags) (body : List UInt8)
  /-- The application receives a frame. -/
  | recv (n k : ℕ)
  | hasIn
  | hasOut
  /-- The options `ZMQ_REQ_CORRELATE`, `ZMQ_REQ_RELAXED` and `ZMQ_PROBE_ROUTER`. -/
  | setCorrelate (value : Bool)
  | setRelaxed (value : Bool)
  | setProbeRouter (value : Bool)
  /-- The socket does something else with a pipe. -/
  | owner (pipe : ℕ) (act : PipeAct)
  /-- The peer of a pipe does something. -/
  | peer (pipe : ℕ) (act : EndAct)
  /-- The peer of a pipe is in the same process and sends the id frame of a request back as it is. -/
  | echo (pipe : ℕ) (id : UInt32)

namespace Req

/-- One step. Acts on pipes that do not exist do nothing. -/
def step (s : Req) : ReqAct → Except ReqFault Req
  | .attach hwm₀ hwm₁ =>
    match s.dealer.xattachPipe hwm₀ hwm₁ with
    | .error e => .error (.dealer e)
    | .ok dealer => .ok { s with dealer }
  | .send n flags body => (s.xsend n ⟨.data, flags, body⟩).map Prod.snd
  | .recv n k => (s.xrecv n k).map Prod.snd
  | .hasIn => s.xhasIn.map Prod.snd
  | .hasOut => s.xhasOut.map Prod.snd
  | .setCorrelate value => .ok { s with requestIdFramesEnabled := value }
  | .setRelaxed value => .ok { s with strict := !value }
  | .setProbeRouter value => .ok { s with dealer := { s.dealer with probeRouter := value } }
  | .owner p a =>
    if p < s.dealer.count then
      match s.dealer.owner p a with
      | .error e => .error (.dealer e)
      | .ok (dealer, some .pipeTerminated) => .ok ({ s with dealer }.xpipeTerminated p)
      | .ok (dealer, _) => .ok { s with dealer }
    else .ok s
  | .peer p a =>
    if p < s.dealer.count then
      match s.dealer.peer p a with
      | .error e => .error (.dealer e)
      | .ok dealer => .ok { s with dealer }
    else .ok s
  | .echo p id =>
    if p < s.dealer.count then
      match s.dealer.echo p (idMsg id) with
      | .error e => .error (.dealer e)
      | .ok dealer => .ok { s with dealer }
    else .ok s

/-- A sequence of steps. -/
def run (s : Req) (acts : List ReqAct) : Except ReqFault Req := runSteps step s acts

end Req

end Zmq
