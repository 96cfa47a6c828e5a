import ZeroMQ.Codec.Decoder
import ZeroMQ.Engine.Mechanism

/-!
# The engine after the greeting

When the greeting has been exchanged, `stream_engine_t` decodes the bytes it reads and hands every
frame to `process_msg`, a pointer to a member function that changes as the connection gets under way.
The session may refuse a frame; then the frame stays in the decoder and the bytes behind it stay in the
buffer until the session calls `restart_input`.

What the session answers and what the output side finds is fixed in `Surroundings`, for every call that
will be made. The fields of `Engine` from `accepted` on belong to the session or record what has
happened.
-/

namespace Zmq

open Foundation

/-- The targets of `process_msg`. -/
inductive ProcessMsg
  | processIdentityMsg
  | processHandshakeCommand
  | writeSubscriptionMsg
  | pushMsgToSession
  | writeCredential
  | decodeAndPush
  | pushOneThenDecodeAndPush
  deriving DecidableEq, Repr

/-- The targets of `next_msg`. -/
inductive NextMsg
  | identityMsg
  | nextHandshakeCommand
  | pullMsgFromSession
  | pullAndEncode
  deriving DecidableEq, Repr

/-- What must not happen in an engine. -/
inductive EngineFault
  /-- A `zmq_assert` or an `errno_assert` fails. -/
  | assertFailed
  /-- The session refuses an identity message. -/
  | identityRefused
  /-- The engine goes on after it has been deleted. -/
  | useAfterFree
  | mechanism (f : MechanismFault)
  deriving DecidableEq, Repr

/-- What the calls of the engine find outside of it. -/
structure Surroundings where
  /-- Whether the session accepts the frame of a call of `push_msg`. -/
  accepts : ℕ → Bool
  /-- What a call of `out_event` gets from `pull_msg`, each time the batch has room for one more
  message. -/
  batches : ℕ → List (Option Msg)

/-- The fields of `stream_engine_t`, for a mechanism with state `μ`. -/
structure Engine (σ μ : Type) where
  connection : Connection
  decoder : Decoder σ
  /-- The `insize` bytes at `inpos`. -/
  input : List UInt8
  /-- They are where the decoder wants them. -/
  direct : Bool
  /-- `decoder->msg ()`. -/
  current : Msg
  processMsg : ProcessMsg
  nextMsg : NextMsg
  mechanism : Option μ
  /-- `metadata` is not `NULL`. -/
  metadata : Bool
  recvIdentity : Bool
  subscriptionRequired : Bool
  inputStopped : Bool
  outputStopped : Bool
  ioError : Bool
  /-- `error` has been called. -/
  closed : Option ErrorReason
  zap : Zap
  /-- The frames the session has accepted. -/
  accepted : List Msg
  /-- The number of calls of `push_msg`. -/
  pushes : ℕ
  /-- The session has refused a frame and has not called `restart_input` since then. -/
  refused : Bool
  /-- The number of calls of `out_event`. -/
  outEvents : ℕ
  /-- The frames the decoder has produced. -/
  produced : List Msg
  /-- The frames that were given to the mechanism's `decode`, with its results. -/
  decodes : List (Msg × Option Msg)
  /-- What `status` has returned. -/
  reports : List MechanismStatus
  /-- The frames that were pushed before the mechanism had reported that it is ready. -/
  early : List Msg

/-- What a member function returns. -/
inductive Rc
  | ok
  | again
  | failed
  deriving DecidableEq, Repr

/-- The return value for a value of `errno`. -/
def Rc.ofErrno (e : Errno) : Rc := if e = .eagain then .again else .failed

namespace Engine

variable {σ μ : Type} (env : Surroundings) (ops : MechanismOps μ)

/-- `session_base_t::push_msg`. A pipe that has refused a frame takes none until it is activated
again. -/
def pushMsg (m : Msg) (s : Engine σ μ) : Bool × Engine σ μ :=
  let early := if MechanismStatus.ready ∈ s.reports then s.early else s.early ++ [m]
  if env.accepts s.pushes ∧ s.refused = false then
    (true, { s with pushes := s.pushes + 1, early, accepted := s.accepted ++ [m] })
  else (false, { s with pushes := s.pushes + 1, early, refused := true })

/-- `mechanism->status ()`. -/
def askStatus (m : μ) (s : Engine σ μ) : MechanismStatus × Engine σ μ :=
  (ops.status m, { s with reports := s.reports ++ [ops.status m] })

/-- A new message: `msg_t::init`. -/
def emptyMsg : Msg := ⟨.data, .none, []⟩

/-! ### Output -/

/-- `mechanism_ready`. The mechanism's properties become the metadata. -/
def mechanismReady (m : μ) (s : Engine σ μ) : Except EngineFault (Engine σ μ) :=
  let base := ops.base m
  let switch (s : Engine σ μ) : Except EngineFault (Engine σ μ) :=
    if s.metadata then .error .assertFailed
    else .ok { s with nextMsg := .pullAndEncode, processMsg := .writeCredential,
                      metadata := base.zapProperties ≠ [] ∨ base.zmtpProperties ≠ [] }
  if s.recvIdentity then
    match s.pushMsg env ⟨.data, { MsgFlags.none with identity := true }, base.identity⟩ with
    -- The pipe is taken to be shut down.
    | (false, s) => .ok s
    | (true, s) => switch s
  else switch s

/-- `pull_and_encode`. -/
def pullAndEncode (pulled : Option Msg) (s : Engine σ μ) : Except EngineFault (Bool × Engine σ μ) :=
  match s.mechanism, pulled with
  | none, _ => .error .assertFailed
  | some _, none => .ok (false, s)
  | some m, some msg =>
    match ops.encode msg m with
    | .error f => .error (.mechanism f)
    | .ok (.error _, m) => .ok (false, { s with mechanism := some m })
    | .ok (.ok _, m) => .ok (true, { s with mechanism := some m })

/-- `next_handshake_command`. -/
def nextHandshakeCommand (pulled : Option Msg) (s : Engine σ μ) : Except EngineFault (Bool × Engine σ μ) :=
  match s.mechanism with
  | none => .error .assertFailed
  | some m =>
    match s.askStatus ops m with
    | (.ready, s) =>
      match s.mechanismReady env ops m with
      | .error f => .error f
      | .ok s => s.pullAndEncode ops pulled
    | (.error, s) => .ok (false, s)
    | (.handshaking, s) =>
      match ops.nextHandshakeCommand m s.zap with
      | .error f => .error (.mechanism f)
      | .ok (.error _, m, zap) => .ok (false, { s with mechanism := some m, zap })
      | .ok (.ok _, m, zap) => .ok (true, { s with mechanism := some m, zap })

/-- A call of `next_msg`: whether there is a message. -/
def callNextMsg (pulled : Option Msg) (s : Engine σ μ) : Except EngineFault (Bool × Engine σ μ) :=
  match s.nextMsg with
  | .identityMsg => .ok (true, { s with nextMsg := .pullMsgFromSession })
  | .nextHandshakeCommand => s.nextHandshakeCommand env ops pulled
  | .pullMsgFromSession => .ok (pulled.isSome, s)
  | .pullAndEncode => s.pullAndEncode ops pulled

/-- The loop of `out_event`: whether there is anything to send. -/
def fillBatch : List (Option Msg) → Engine σ μ → Except EngineFault (Bool × Engine σ μ)
  | [], s => .ok (false, s)
  | pulled :: batch, s =>
    match s.callNextMsg env ops pulled with
    | .error f => .error f
    | .ok (false, s) => .ok (false, s)
    | .ok (true, s) =>
      match fillBatch batch s with
      | .error f => .error f
      | .ok (_, s) => .ok (true, s)

/-- `out_event`. If the batch has no room there is still something in the write buffer. -/
def outEvent (s : Engine σ μ) : Except EngineFault (Engine σ μ) :=
  let batch := env.batches s.outEvents
  match fillBatch env ops batch { s with outEvents := s.outEvents + 1 } with
  | .error f => .error f
  | .ok (some_, s) => .ok (if batch ≠ [] ∧ some_ = false then { s with outputStopped := true } else s)

/-- `restart_output`. -/
def restartOutput (s : Engine σ μ) : Except EngineFault (Engine σ μ) :=
  if s.ioError then .ok s else outEvent env ops { s with outputStopped := false }

/-! ### Input -/

/-- `push_msg_to_session` and `push_one_then_decode_and_push`: the frame in the decoder is pushed. -/
def pushCurrent (next : ProcessMsg) (s : Engine σ μ) : Rc × Engine σ μ :=
  match s.pushMsg env s.current with
  | (true, s) => (.ok, { s with current := emptyMsg, processMsg := next })
  | (false, s) => (.again, s)

/-- `process_identity_msg`. -/
def processIdentityMsg (s : Engine σ μ) : Except EngineFault (Rc × Engine σ μ) :=
  let next := if s.subscriptionRequired then ProcessMsg.writeSubscriptionMsg else .pushMsgToSession
  if s.recvIdentity then
    match s.pushMsg env { s.current with flags := { s.current.flags with identity := true } } with
    | (false, _) => .error .identityRefused
    | (true, s) => .ok (.ok, { s with current := emptyMsg, processMsg := next })
  else .ok (.ok, { s with current := emptyMsg, processMsg := next })

/-- The message that subscribes to everything. -/
def subscriptionMsg : Msg := ⟨.data, .none, [1]⟩

/-- `write_subscription_msg`. -/
def writeSubscriptionMsg (s : Engine σ μ) : Rc × Engine σ μ :=
  match s.pushMsg env subscriptionMsg with
  | (false, s) => (.again, s)
  | (true, s) => { s with processMsg := .pushMsgToSession }.pushCurrent env .pushMsgToSession

/-- `decode_and_push`. -/
def decodeAndPush (s : Engine σ μ) : Except EngineFault (Rc × Engine σ μ) :=
  match s.mechanism with
  | none => .error .assertFailed
  | some m =>
    match ops.decode s.current m with
    | .error f => .error (.mechanism f)
    | .ok (.error e, m) =>
      .ok (.ofErrno e, { s with mechanism := some m, decodes := s.decodes ++ [(s.current, none)] })
    | .ok (.ok msg, m) =>
      let s := { s with mechanism := some m, current := msg,
                        decodes := s.decodes ++ [(s.current, some msg)] }
      match s.pushCurrent env .decodeAndPush with
      | (.again, s) => .ok (.again, { s with processMsg := .pushOneThenDecodeAndPush })
      | (rc, s) => .ok (rc, s)

/-- The message with the user id of the peer. -/
def credentialMsg (userId : List UInt8) : Msg := ⟨.data, { MsgFlags.none with credential := true }, userId⟩

/-- `write_credential`. -/
def writeCredential (s : Engine σ μ) : Except EngineFault (Rc × Engine σ μ) :=
  match s.mechanism with
  | none => .error .assertFailed
  | some m =>
    let userId := (ops.base m).userId
    if userId = [] then { s with processMsg := .decodeAndPush }.decodeAndPush env ops
    else
      match s.pushMsg env (credentialMsg userId) with
      | (false, s) => .ok (.again, s)
      | (true, s) => { s with processMsg := .decodeAndPush }.decodeAndPush env ops

/-- `process_handshake_command`. -/
def processHandshakeCommand (s : Engine σ μ) : Except EngineFault (Rc × Engine σ μ) :=
  match s.mechanism with
  | none => .error .assertFailed
  | some m =>
    match ops.processHandshakeCommand s.current m s.zap with
    | .error f => .error (.mechanism f)
    | .ok (.error e, m, zap) => .ok (.ofErrno e, { s with mechanism := some m, zap })
    | .ok (.ok (), m, zap) =>
      let wake (s : Engine σ μ) : Except EngineFault (Rc × Engine σ μ) :=
        if s.outputStopped then
          match s.restartOutput env ops with
          | .error f => .error f
          | .ok s => .ok (.ok, s)
        else .ok (.ok, s)
      match { s with mechanism := some m, zap, current := emptyMsg }.askStatus ops m with
      | (.ready, s) =>
        match s.mechanismReady env ops m with
        | .error f => .error f
        | .ok s => wake s
      | (.error, s) => .ok (.failed, s)
      | (.handshaking, s) => wake s

/-- A call of `process_msg` with the frame in the decoder. -/
def callProcessMsg (s : Engine σ μ) : Except EngineFault (Rc × Engine σ μ) :=
  match s.processMsg with
  | .processIdentityMsg => s.processIdentityMsg env
  | .processHandshakeCommand => s.processHandshakeCommand env ops
  | .writeSubscriptionMsg => .ok (s.writeSubscriptionMsg env)
  | .pushMsgToSession => .ok (s.pushCurrent env .pushMsgToSession)
  | .writeCredential => s.writeCredential env ops
  | .decodeAndPush => s.decodeAndPush env ops
  | .pushOneThenDecodeAndPush => .ok (s.pushCurrent env .decodeAndPush)

variable (S : Stages σ)

/-- `decoder->decode`. Bytes that are where the decoder wants them are used up by one call. -/
def decode (s : Engine σ μ) : Except DecodeFault (Option Msg × ℕ × Decoder σ) :=
  if s.direct then S.decodeDirect s.decoder s.input else S.decodeCopied s.decoder s.input

/-- The rest of the buffer, when a message has been decoded. -/
def afterDecode (m : Msg) (used : ℕ) (d : Decoder σ) (s : Engine σ μ) : Engine σ μ :=
  { s with decoder := d, input := s.input.drop used, direct := false, current := m,
           produced := s.produced ++ [m] }

/-- One round of the loop of `in_event` and `restart_input`: it is left with a return value, or the next
round follows. -/
def round (s : Engine σ μ) : Except EngineFault (Option Rc × Engine σ μ) :=
  -- The assertion of `decode`.
  if s.direct ∧ s.input.length > s.decoder.toRead then .error .assertFailed
  else
    match s.decode S with
    | .error _ => .ok (some .failed, s)
    | .ok (none, used, d) =>
      .ok (some .ok, { s with decoder := d, input := s.input.drop used, direct := false })
    | .ok (some m, used, d) =>
      match callProcessMsg env ops (s.afterDecode m used d) with
      | .error f => .error f
      | .ok (.ok, s) => .ok (none, s)
      | .ok (rc, s) => .ok (some rc, s)

/-- The loop. There are at most as many rounds as bytes. -/
def decodeLoop : ℕ → Engine σ μ → Except EngineFault (Rc × Engine σ μ)
  | 0, s => .ok (.ok, s)
  | n + 1, s =>
    if s.input = [] then .ok (.ok, s)
    else
      match s.round env ops S with
      | .error f => .error f
      | .ok (some rc, s) => .ok (rc, s)
      | .ok (none, s) => decodeLoop n s

/-- `error`. -/
def close (reason : ErrorReason) (s : Engine σ μ) : Engine σ μ := { s with closed := some reason }

/-- The size of the decoder's buffer. -/
def inBatchSize : ℕ := 8192

/-- The buffer is filled, if it is empty: whether there is anything to decode. -/
def fillBuffer (limit : ℕ) (s : Engine σ μ) : Bool × Engine σ μ :=
  if s.input ≠ [] then (true, s)
  else
    let (direct, size) := Stages.getBuffer inBatchSize s.decoder
    match s.connection.tcpRead limit size with
    | (.closed, _) => (false, s.close .connectionError)
    | (.error, _) => (false, s.close .connectionError)
    | (.again, _) => (false, s)
    | (.data bytes, connection) => (true, { s with connection, input := bytes, direct })

/-- `in_event`. -/
def inEvent (limit : ℕ) (s : Engine σ μ) : Except EngineFault (Engine σ μ) :=
  if s.inputStopped then .ok { s with ioError := true }
  else
    match s.fillBuffer limit with
    | (false, s) => .ok s
    | (true, s) =>
      match decodeLoop env ops S s.input.length s with
      | .error f => .error f
      | .ok (.ok, s) => .ok s
      | .ok (.again, s) => .ok { s with inputStopped := true }
      | .ok (.failed, s) => .ok (s.close .protocolError)

/-- `restart_input`. -/
def restartInput (limit : ℕ) (s : Engine σ μ) : Except EngineFault (Engine σ μ) :=
  if s.inputStopped then
    match s.callProcessMsg env ops with
    | .error f => .error f
    | .ok (.again, s) => .ok s
    | .ok (.failed, s) => .ok (s.close .protocolError)
    | .ok (.ok, s) =>
      match decodeLoop env ops S s.input.length s with
      | .error f => .error f
      | .ok (.again, s) => .ok s
      | .ok (rc, s) =>
        if s.ioError then .ok (s.close .connectionError)
        else if rc = .failed then .ok (s.close .protocolError)
        else inEvent env ops S limit { s with inputStopped := false }
  else .error .assertFailed

/-- `zap_msg_available`. -/
def zapMsgAvailable (limit : ℕ) (s : Engine σ μ) : Except EngineFault (Engine σ μ) :=
  match s.mechanism with
  | none => .error .assertFailed
  | some m =>
    let output (s : Engine σ μ) : Except EngineFault (Engine σ μ) :=
      if s.closed.isSome then .error .useAfterFree
      else if s.outputStopped then s.restartOutput env ops
      else .ok s
    match ops.zapMsgAvailable m s.zap with
    | .error f => .error (.mechanism f)
    | .ok (.error _, m, zap) => .ok ({ s with mechanism := some m, zap }.close .protocolError)
    | .ok (.ok (), m, zap) =>
      let s := { s with mechanism := some m, zap }
      if s.inputStopped then
        match s.restartInput env ops S limit with
        | .error f => .error f
        | .ok s => output s
      else output s

end Engine

/-- The calls of an engine, and what happens to the session's ZAP pipe. -/
inductive EngineAct
  /-- The poller calls `in_event`, and at most that many bytes have arrived. -/
  | inEvent (limit : ℕ)
  | outEvent
  /-- The session calls `restart_input`, because its pipe can be written again. -/
  | restartInput (limit : ℕ)
  /-- The session calls `zap_msg_available`. -/
  | zapMsgAvailable (limit : ℕ)
  /-- The ZAP handler has sent frames. -/
  | zapFrames (frames : List Msg)
  /-- The pipe to the ZAP handler is gone. -/
  | zapGone
  /-- A ZAP handler is there from now on, or none is. -/
  | zapHandler (handler : Option Bool)

namespace Engine

variable {σ μ : Type}

/-- A step. An engine that has been closed is gone; one that has seen an error of the connection is no
longer polled; and the session calls `restart_input` only if it has refused a frame. -/
def step (env : Surroundings) (ops : MechanismOps μ) (S : Stages σ) (s : Engine σ μ) :
    EngineAct → Except EngineFault (Engine σ μ)
  | .inEvent limit =>
    if s.closed.isSome ∨ s.ioError then .ok s else s.inEvent env ops S limit
  | .outEvent => if s.closed.isSome ∨ s.ioError then .ok s else s.outEvent env ops
  | .restartInput limit =>
    if s.closed.isSome ∨ s.refused = false then .ok s
    else { s with refused := false }.restartInput env ops S limit
  | .zapMsgAvailable limit =>
    if s.closed.isSome ∨ s.zap.pipe = none then .ok s else s.zapMsgAvailable env ops S limit
  | .zapFrames frames => .ok { s with zap := { s.zap with pipe := s.zap.pipe.map (· ++ frames) } }
  | .zapGone => .ok { s with zap := { s.zap with pipe := none } }
  | .zapHandler handler => .ok { s with zap := { s.zap with handler } }

end Engine

end Zmq
