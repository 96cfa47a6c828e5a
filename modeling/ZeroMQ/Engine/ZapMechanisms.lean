import ZeroMQ.Engine.Mechanism

/-!
# The NULL and PLAIN mechanisms

`null_mechanism_t` sends and expects one READY command; it asks the ZAP handler before it sends its
own, if the socket has a ZAP domain. `plain_server_t` asks when it has received the client's HELLO.
-/

namespace Zmq

/-- A handshake command. -/
def handshakeCommand (body : List UInt8) : Msg := ⟨.data, .none, body⟩

/-- The status code of a peer that is let in. -/
def acceptedCode : List UInt8 := ascii "200"

/-! ### `null_mechanism_t` -/

/-- The fields of `null_mechanism_t`. -/
structure NullMechanism where
  base : MechanismBase
  readyCommandSent : Bool
  errorCommandSent : Bool
  readyCommandReceived : Bool
  errorCommandReceived : Bool
  zapConnected : Bool
  zapRequestSent : Bool
  zapReplyReceived : Bool
  statusCode : List UInt8

namespace NullMechanism

variable (o : MechanismOptions)

/-- The constructor. `statusCode` is not initialised. -/
def new (statusCode : List UInt8) (z : Zap) : Except MechanismFault (NullMechanism × Zap) :=
  let m : NullMechanism := ⟨MechanismBase.init, false, false, false, false, false, false, false, statusCode⟩
  if o.zapDomain = [] then .ok (m, z)
  else
    match z.zapConnect with
    | .error f => .error f
    | .ok (connected, z) => .ok ({ m with zapConnected := connected }, z)

/-- `receive_and_process_zap_reply`. -/
def receiveAndProcessZapReply (m : NullMechanism) (z : Zap) : Except Errno Unit × NullMechanism × Zap :=
  match Zmq.receiveAndProcessZapReply .eproto o m.statusCode m.base z with
  | (rc, statusCode, base, z) => (rc, { m with statusCode, base }, z)

/-- The end of `next_handshake_command`: an ERROR or a READY command. -/
def produceCommand (m : NullMechanism) (z : Zap) : GivesMsg NullMechanism :=
  if m.zapReplyReceived ∧ m.statusCode ≠ acceptedCode then
    .ok (.ok (handshakeCommand ([5] ++ ascii "ERROR" ++ [3] ++ m.statusCode)),
      { m with errorCommandSent := true }, z)
  else
    match ownProperties o with
    | .error f => .error f
    | .ok properties =>
      .ok (.ok (handshakeCommand ([5] ++ ascii "READY" ++ properties)), { m with readyCommandSent := true }, z)

/-- `next_handshake_command`. -/
def nextHandshakeCommand (m : NullMechanism) (z : Zap) : GivesMsg NullMechanism :=
  if m.readyCommandSent ∨ m.errorCommandSent then .ok (.error .eagain, m, z)
  else if m.zapConnected ∧ m.zapReplyReceived = false then
    if m.zapRequestSent then .ok (.error .eagain, m, z)
    else
      match sendZapRequest o [ascii "NULL"] z with
      | .error f => .error f
      | .ok z =>
        match receiveAndProcessZapReply o { m with zapRequestSent := true } z with
        | (.error e, m, z) => .ok (.error e, m, z)
        | (.ok (), m, z) => produceCommand o { m with zapReplyReceived := true } z
  else produceCommand o m z

/-- `process_ready_command`. -/
def processReadyCommand (data : List UInt8) (m : NullMechanism) : Except Errno Unit × NullMechanism :=
  match parseMetadata o false (data.drop 6) m.base with
  | (rc, base) => (rc, { m with readyCommandReceived := true, base })

/-- `process_error_command`. -/
def processErrorCommand (data : List UInt8) (m : NullMechanism) : Except Errno Unit × NullMechanism :=
  match data[6]? with
  | none => (.error .eproto, m)
  | some length =>
    if length.toNat > data.length - 7 then (.error .eproto, m)
    else (.ok (), { m with errorCommandReceived := true })

/-- `process_handshake_command`. -/
def processHandshakeCommand (msg : Msg) (m : NullMechanism) (z : Zap) : GivesUnit NullMechanism :=
  if m.readyCommandReceived ∨ m.errorCommandReceived then .ok (.error .eproto, m, z)
  else if msg.body.take 6 = [5] ++ ascii "READY" then
    match processReadyCommand o msg.body m with
    | (rc, m) => .ok (rc, m, z)
  else if msg.body.take 6 = [5] ++ ascii "ERROR" then
    match processErrorCommand msg.body m with
    | (rc, m) => .ok (rc, m, z)
  else .ok (.error .eproto, m, z)

/-- `zap_msg_available`. -/
def zapMsgAvailable (m : NullMechanism) (z : Zap) : GivesUnit NullMechanism :=
  if m.zapReplyReceived then .ok (.error .efsm, m, z)
  else
    match receiveAndProcessZapReply o m z with
    | (.error e, m, z) => .ok (.error e, m, z)
    | (.ok (), m, z) => .ok (.ok (), { m with zapReplyReceived := true }, z)

/-- `status`. -/
def status (m : NullMechanism) : MechanismStatus :=
  if m.readyCommandSent ∧ m.readyCommandReceived then .ready
  else if (m.readyCommandSent ∨ m.errorCommandSent) ∧ (m.readyCommandReceived ∨ m.errorCommandReceived) then
    .error
  else .handshaking

/-- The mechanism, as the engine sees it. -/
def ops : MechanismOps NullMechanism where
  base := NullMechanism.base
  status := status
  nextHandshakeCommand := nextHandshakeCommand o
  processHandshakeCommand := processHandshakeCommand o
  zapMsgAvailable := zapMsgAvailable o
  encode msg m := .ok (.ok msg, m)
  decode msg m := .ok (.ok msg, m)

end NullMechanism

/-! ### `plain_server_t` -/

/-- `plain_server_t::state_t`. -/
inductive PlainState
  | waitingForHello
  | sendingWelcome
  | waitingForInitiate
  | sendingReady
  | waitingForZapReply
  | sendingError
  | errorCommandSent
  | ready
  deriving DecidableEq, Repr

/-- The fields of `plain_server_t`. -/
structure PlainServer where
  base : MechanismBase
  state : PlainState
  statusCode : List UInt8

namespace PlainServer

variable (o : MechanismOptions)

/-- The constructor. -/
def new : PlainServer := ⟨MechanismBase.init, .waitingForHello, []⟩

/-- `receive_and_process_zap_reply`. -/
def receiveAndProcessZapReply (m : PlainServer) (z : Zap) : Except Errno Unit × PlainServer × Zap :=
  match Zmq.receiveAndProcessZapReply .eacces o m.statusCode m.base z with
  | (rc, statusCode, base, z) => (rc, { m with statusCode, base }, z)

/-- The state after a reply. -/
def afterReply (m : PlainServer) : PlainServer :=
  { m with state := if m.statusCode = acceptedCode then .sendingWelcome else .sendingError }

/-- `produce_error`. -/
def produceError (m : PlainServer) : Except MechanismFault Msg :=
  if m.statusCode.length = 3 then
    .ok (handshakeCommand ([5] ++ ascii "ERROR" ++ [3] ++ m.statusCode))
  else .error .assertFailed

/-- `produce_ready`. -/
def produceReady : Except MechanismFault Msg :=
  match ownProperties o with
  | .error f => .error f
  | .ok properties => .ok (handshakeCommand ([5] ++ ascii "READY" ++ properties))

/-- `next_handshake_command`. -/
def nextHandshakeCommand (m : PlainServer) (z : Zap) : GivesMsg PlainServer :=
  match m.state with
  | .sendingWelcome =>
    .ok (.ok (handshakeCommand ([7] ++ ascii "WELCOME")), { m with state := .waitingForInitiate }, z)
  | .sendingReady =>
    match produceReady o with
    | .error f => .error f
    | .ok msg => .ok (.ok msg, { m with state := .ready }, z)
  | .sendingError =>
    match m.produceError with
    | .error f => .error f
    | .ok msg => .ok (.ok msg, { m with state := .errorCommandSent }, z)
  | _ => .ok (.error .eagain, m, z)

/-- The user name and the password in a HELLO command. -/
def parseHello (data : List UInt8) : Option (List UInt8 × List UInt8) :=
  if data.take 6 ≠ [5] ++ ascii "HELLO" then none
  else
    match data.drop 6 with
    | [] => none
    | usernameLength :: rest =>
      if rest.length < usernameLength.toNat then none
      else
        match rest.drop usernameLength.toNat with
        | [] => none
        | passwordLength :: password =>
          if password.length ≠ passwordLength.toNat then none
          else some (rest.take usernameLength.toNat, password)

/-- `process_hello`. -/
def processHello (msg : Msg) (m : PlainServer) (z : Zap) : GivesUnit PlainServer :=
  match parseHello msg.body with
  | none => .ok (.error .eproto, m, z)
  | some (username, password) =>
    match z.zapConnect with
    | .error f => .error f
    | .ok (false, z) => .ok (.ok (), { m with state := .sendingWelcome }, z)
    | .ok (true, z) =>
      match sendZapRequest o [ascii "PLAIN", username, password] z with
      | .error f => .error f
      | .ok z =>
        match receiveAndProcessZapReply o m z with
        | (.ok (), m, z) => .ok (.ok (), m.afterReply, z)
        | (.error .eagain, m, z) => .ok (.ok (), { m with state := .waitingForZapReply }, z)
        | (.error e, m, z) => .ok (.error e, m, z)

/-- `process_initiate`. -/
def processInitiate (msg : Msg) (m : PlainServer) (z : Zap) : GivesUnit PlainServer :=
  if msg.body.take 9 ≠ [8] ++ ascii "INITIATE" then .ok (.error .eproto, m, z)
  else
    match parseMetadata o false (msg.body.drop 9) m.base with
    | (.error e, base) => .ok (.error e, { m with base }, z)
    | (.ok (), base) => .ok (.ok (), { m with base, state := .sendingReady }, z)

/-- `process_handshake_command`. -/
def processHandshakeCommand (msg : Msg) (m : PlainServer) (z : Zap) : GivesUnit PlainServer :=
  match m.state with
  | .waitingForHello => processHello o msg m z
  | .waitingForInitiate => processInitiate o msg m z
  | _ => .ok (.error .eproto, m, z)

/-- `zap_msg_available`. -/
def zapMsgAvailable (m : PlainServer) (z : Zap) : GivesUnit PlainServer :=
  if m.state ≠ .waitingForZapReply then .ok (.error .efsm, m, z)
  else
    match receiveAndProcessZapReply o m z with
    | (.error e, m, z) => .ok (.error e, m, z)
    | (.ok (), m, z) => .ok (.ok (), m.afterReply, z)

/-- `status`. -/
def status (m : PlainServer) : MechanismStatus :=
  match m.state with
  | .ready => .ready
  | .errorCommandSent => .error
  | _ => .handshaking

/-- The mechanism, as the engine sees it. -/
def ops : MechanismOps PlainServer where
  base := PlainServer.base
  status := status
  nextHandshakeCommand := nextHandshakeCommand o
  processHandshakeCommand := processHandshakeCommand o
  zapMsgAvailable := zapMsgAvailable o
  encode msg m := .ok (.ok msg, m)
  decode msg m := .ok (.ok msg, m)

end PlainServer

end Zmq
