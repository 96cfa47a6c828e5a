import ZeroMQ.Engine.ZapMechanisms

/-!
# The CURVE server

`curve_server_t` asks the ZAP handler when it has opened the client's INITIATE command. The functions
of the cryptographic library are parameters; they work on boxes and texts without the zero bytes that
the library wants in front of them.
-/

namespace Zmq

/-- The functions of the cryptographic library, and the size of a `std::string`. -/
structure CurveCrypto where
  /-- `crypto_box_open`, with the box, the nonce, the public and the secret key. -/
  boxOpen : List UInt8 → List UInt8 → List UInt8 → List UInt8 → Option (List UInt8)
  /-- `crypto_box`. -/
  box : List UInt8 → List UInt8 → List UInt8 → List UInt8 → List UInt8
  /-- `crypto_box_beforenm`. -/
  beforenm : List UInt8 → List UInt8 → List UInt8
  /-- `crypto_box_open_afternm`. -/
  openAfternm : List UInt8 → List UInt8 → List UInt8 → Option (List UInt8)
  /-- `crypto_box_afternm`. -/
  boxAfternm : List UInt8 → List UInt8 → List UInt8 → List UInt8
  /-- `crypto_secretbox_open`. -/
  secretboxOpen : List UInt8 → List UInt8 → List UInt8 → Option (List UInt8)
  /-- `crypto_secretbox`. -/
  secretbox : List UInt8 → List UInt8 → List UInt8 → List UInt8
  /-- The bytes the calls of `randombytes` give, one after the other. -/
  random : ℕ → List UInt8
  sizeofString : UInt8

/-- `curve_server_t::state_t`. -/
inductive CurveState
  | expectHello
  | sendWelcome
  | expectInitiate
  | expectZapReply
  | sendReady
  | sendError
  | errorSent
  | connected
  deriving DecidableEq, Repr

/-- The fields of `curve_server_t`. -/
structure CurveServer where
  base : MechanismBase
  state : CurveState
  statusCode : List UInt8
  cnNonce : ℕ
  cnPeerNonce : ℕ
  secretKey : List UInt8
  cnPublic : List UInt8
  cnSecret : List UInt8
  cnClient : List UInt8
  cookieKey : List UInt8
  cnPrecom : List UInt8
  /-- The number of calls of `randombytes`. -/
  randomCalls : ℕ

/-- A part of a command. -/
def slice (data : List UInt8) (pos len : ℕ) : List UInt8 := (data.drop pos).take len

namespace CurveServer

variable (o : MechanismOptions) (k : CurveCrypto)

/-- The constructor, with the keys. -/
def new (secretKey cnPublic cnSecret : List UInt8) : CurveServer :=
  ⟨MechanismBase.init, .expectHello, [], 1, 1, secretKey, cnPublic, cnSecret, [], [], [], 0⟩

/-- `receive_and_process_zap_reply`. -/
def receiveAndProcessZapReply (m : CurveServer) (z : Zap) : Except Errno Unit × CurveServer × Zap :=
  match Zmq.receiveAndProcessZapReply .eacces o m.statusCode m.base z with
  | (rc, statusCode, base, z) => (rc, { m with statusCode, base }, z)

/-- The state after a reply. -/
def afterReply (m : CurveServer) : CurveServer :=
  { m with state := if m.statusCode = acceptedCode then .sendReady else .sendError }

/-- `produce_welcome`. -/
def produceWelcome (m : CurveServer) : Msg × CurveServer :=
  let cookieNonce := k.random m.randomCalls
  let cookieKey := k.random (m.randomCalls + 1)
  let cookie := k.secretbox (m.cnClient ++ m.cnSecret) (ascii "COOKIE--" ++ cookieNonce) cookieKey
  let welcomeNonce := k.random (m.randomCalls + 2)
  let box := k.box (m.cnPublic ++ cookieNonce ++ cookie) (ascii "WELCOME-" ++ welcomeNonce) m.cnClient m.secretKey
  (handshakeCommand ([7] ++ ascii "WELCOME" ++ welcomeNonce ++ box),
    { m with cookieKey, randomCalls := m.randomCalls + 3 })

/-- The size of `ready_plaintext` without the zero bytes in front; `ready_box` has room for a text of this
size. -/
def readyCapacity : ℕ := 256

/-- `produce_ready`. Nothing says that the properties fit into the buffer. -/
def produceReady (m : CurveServer) : Except MechanismFault (Msg × CurveServer) :=
  match ownProperties o with
  | .error f => .error f
  | .ok properties =>
    if properties.length > readyCapacity then .error .outOfBounds
    else
      let nonce := putUint64 m.cnNonce
      let box := k.boxAfternm properties (ascii "CurveZMQREADY---" ++ nonce) m.cnPrecom
      .ok (handshakeCommand ([5] ++ ascii "READY" ++ nonce ++ box), { m with cnNonce := (m.cnNonce + 1) % 2 ^ 64 })

/-- `produce_error`. The length that is sent is the size of the string object. -/
def produceError (m : CurveServer) : Except MechanismFault Msg :=
  if m.statusCode.length = 3 then
    .ok (handshakeCommand ([5] ++ ascii "ERROR" ++ [k.sizeofString] ++ m.statusCode))
  else .error .assertFailed

/-- `next_handshake_command`. -/
def nextHandshakeCommand (m : CurveServer) (z : Zap) : GivesMsg CurveServer :=
  match m.state with
  | .sendWelcome =>
    match produceWelcome k m with
    | (msg, m) => .ok (.ok msg, { m with state := .expectInitiate }, z)
  | .sendReady =>
    match produceReady o k m with
    | .error f => .error f
    | .ok (msg, m) => .ok (.ok msg, { m with state := .connected }, z)
  | .sendError =>
    match produceError k m with
    | .error f => .error f
    | .ok msg => .ok (.ok msg, { m with state := .errorSent }, z)
  | _ => .ok (.error .eagain, m, z)

/-- `process_hello`. -/
def processHello (msg : Msg) (m : CurveServer) (z : Zap) : GivesUnit CurveServer :=
  let hello := msg.body
  if hello.length ≠ 200 then .ok (.error .eproto, m, z)
  else if hello.take 6 ≠ [5] ++ ascii "HELLO" then .ok (.error .eproto, m, z)
  else if slice hello 6 2 ≠ [1, 0] then .ok (.error .eproto, m, z)
  else
    let m := { m with cnClient := slice hello 80 32, cnPeerNonce := getUint64 (slice hello 112 8) }
    let nonce := ascii "CurveZMQHELLO---" ++ slice hello 112 8
    match k.boxOpen (slice hello 120 80) nonce m.cnClient m.secretKey with
    | none => .ok (.error .eproto, m, z)
    | some _ => .ok (.ok (), { m with state := .sendWelcome }, z)

/-- The size of `initiate_box` and of `initiate_plaintext` without the zero bytes in front. -/
def initiateCapacity : ℕ := 144 + 256

/-- The boxes of an INITIATE command are opened; the result is the client's key and the metadata, with
the mechanism as it is then. -/
def openInitiate (initiate : List UInt8) (m : CurveServer) :
    Except MechanismFault (Option (List UInt8 × List UInt8) × CurveServer) :=
  if initiate.length < 257 then .ok (none, m)
  else if initiate.take 9 ≠ [8] ++ ascii "INITIATE" then .ok (none, m)
  else
    match k.secretboxOpen (slice initiate 25 80) (ascii "COOKIE--" ++ slice initiate 9 16) m.cookieKey with
    | none => .ok (none, m)
    | some cookie =>
      if cookie.take 32 ≠ m.cnClient ∨ slice cookie 32 32 ≠ m.cnSecret then .ok (none, m)
      -- Nothing says that the command fits into the buffer.
      else if initiate.length - 113 > initiateCapacity then .error .outOfBounds
      else
        let m := { m with cnPeerNonce := getUint64 (slice initiate 105 8) }
        let nonce := ascii "CurveZMQINITIATE" ++ slice initiate 105 8
        match k.boxOpen (initiate.drop 113) nonce m.cnClient m.cnSecret with
        | none => .ok (none, m)
        | some text =>
          let vouchNonce := ascii "VOUCH---" ++ slice text 32 16
          match k.boxOpen (slice text 48 80) vouchNonce (text.take 32) m.cnSecret with
          | none => .ok (none, m)
          | some vouch =>
            if vouch.take 32 ≠ m.cnClient then .ok (none, m)
            else
              .ok (some (text.take 32, text.drop 128), { m with cnPrecom := k.beforenm m.cnClient m.cnSecret })

/-- The client is authenticated by the ZAP handler, if there is one. -/
def authenticate (clientKey : List UInt8) (m : CurveServer) (z : Zap) : GivesUnit CurveServer :=
  match z.zapConnect with
  | .error f => .error f
  | .ok (false, z) => .ok (.ok (), { m with state := .sendReady }, z)
  | .ok (true, z) =>
    match sendZapRequest o [ascii "CURVE", clientKey] z with
    | .error f => .error f
    | .ok z =>
      match receiveAndProcessZapReply o m z with
      | (.ok (), m, z) => .ok (.ok (), m.afterReply, z)
      | (.error .eagain, m, z) => .ok (.ok (), { m with state := .expectZapReply }, z)
      | (.error e, m, z) => .ok (.error e, m, z)

/-- `process_initiate`. The state has changed when the metadata are parsed. -/
def processInitiate (msg : Msg) (m : CurveServer) (z : Zap) : GivesUnit CurveServer :=
  match openInitiate k msg.body m with
  | .error f => .error f
  | .ok (none, m) => .ok (.error .eproto, m, z)
  | .ok (some (clientKey, metadata), m) =>
    match authenticate o clientKey m z with
    | .error f => .error f
    | .ok (.error e, m, z) => .ok (.error e, m, z)
    | .ok (.ok (), m, z) =>
      match parseMetadata o false metadata m.base with
      | (rc, base) => .ok (rc, { m with base }, z)

/-- `process_handshake_command`. -/
def processHandshakeCommand (msg : Msg) (m : CurveServer) (z : Zap) : GivesUnit CurveServer :=
  match m.state with
  | .expectHello => processHello k msg m z
  | .expectInitiate => processInitiate o k msg m z
  | _ => .ok (.error .eproto, m, z)

/-- `zap_msg_available`. -/
def zapMsgAvailable (m : CurveServer) (z : Zap) : GivesUnit CurveServer :=
  if m.state ≠ .expectZapReply then .ok (.error .efsm, m, z)
  else
    match receiveAndProcessZapReply o m z with
    | (.error e, m, z) => .ok (.error e, m, z)
    | (.ok (), m, z) => .ok (.ok (), m.afterReply, z)

/-- `status`. -/
def status (m : CurveServer) : MechanismStatus :=
  match m.state with
  | .connected => .ready
  | .errorSent => .error
  | _ => .handshaking

/-- `encode`. -/
def encode (msg : Msg) (m : CurveServer) : Except MechanismFault (Except Errno Msg × CurveServer) :=
  if m.state ≠ .connected then .error .assertFailed
  else
    let nonce := putUint64 m.cnNonce
    let flags : UInt8 := if msg.more then 1 else 0
    let box := k.boxAfternm (flags :: msg.body) (ascii "CurveZMQMESSAGES" ++ nonce) m.cnPrecom
    .ok (.ok (handshakeCommand ([7] ++ ascii "MESSAGE" ++ nonce ++ box)),
      { m with cnNonce := (m.cnNonce + 1) % 2 ^ 64 })

/-- `decode`. -/
def decode (msg : Msg) (m : CurveServer) : Except MechanismFault (Except Errno Msg × CurveServer) :=
  if m.state ≠ .connected then .error .assertFailed
  else if msg.body.length < 33 then .ok (.error .eproto, m)
  else if msg.body.take 8 ≠ [7] ++ ascii "MESSAGE" then .ok (.error .eproto, m)
  else
    let nonce := getUint64 (slice msg.body 8 8)
    if nonce ≤ m.cnPeerNonce then .ok (.error .eproto, m)
    else
      let m := { m with cnPeerNonce := nonce }
      let messageNonce := ascii "CurveZMQMESSAGEC" ++ slice msg.body 8 8
      match k.openAfternm (msg.body.drop 16) messageNonce m.cnPrecom with
      | none => .ok (.error .eproto, m)
      | some text =>
        .ok (.ok ⟨.data, frameFlags (text.headD 0 &&& 1 ≠ 0), text.drop 1⟩, m)

/-- The mechanism, as the engine sees it. -/
def ops : MechanismOps CurveServer where
  base := CurveServer.base
  status := status
  nextHandshakeCommand := nextHandshakeCommand o k
  processHandshakeCommand := processHandshakeCommand o k
  zapMsgAvailable := zapMsgAvailable o
  encode := encode k
  decode := decode k

end CurveServer

end Zmq
