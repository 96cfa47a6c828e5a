import ZeroMQ.Engine.CurveServer

/-!
# The CURVE client

`curve_client_t` sends HELLO and INITIATE and expects WELCOME and READY. The engine calls it from two
places: `next_handshake_command` when it can write and `process_handshake_command` when a command has
come. As in the server, the functions of the cryptographic library are parameters and work without the
zero bytes in front.
-/

namespace Zmq

/-- `curve_client_t::state_t`. -/
inductive CurveClientState
  | sendHello
  | expectWelcome
  | sendInitiate
  | expectReady
  | errorReceived
  | connected
  deriving DecidableEq, Repr

/-- The fields of `curve_client_t`. -/
structure CurveClient where
  base : MechanismBase
  state : CurveClientState
  publicKey : List UInt8
  secretKey : List UInt8
  cnPublic : List UInt8
  cnSecret : List UInt8
  serverKey : List UInt8
  cnServer : List UInt8
  cnCookie : List UInt8
  cnPrecom : List UInt8
  cnNonce : ℕ
  cnPeerNonce : ℕ
  /-- The number of calls of `randombytes`. -/
  randomCalls : ℕ

namespace CurveClient

variable (o : MechanismOptions) (k : CurveCrypto)

/-- The constructor, with the keys. The last three fields are not initialised: they are what the memory
holds. -/
def new (publicKey secretKey cnPublic cnSecret serverKey cnServer cnCookie cnPrecom : List UInt8) :
    CurveClient :=
  ⟨MechanismBase.init, .sendHello, publicKey, secretKey, cnPublic, cnSecret, serverKey, cnServer, cnCookie,
    cnPrecom, 1, 1, 0⟩

/-- `produce_hello`. -/
def produceHello (m : CurveClient) : Msg × CurveClient :=
  let nonce := putUint64 m.cnNonce
  let box := k.box (List.replicate 64 0) (ascii "CurveZMQHELLO---" ++ nonce) m.serverKey m.cnSecret
  (handshakeCommand ([5] ++ ascii "HELLO" ++ [1, 0] ++ List.replicate 72 0 ++ m.cnPublic ++ nonce ++ box),
    { m with cnNonce := (m.cnNonce + 1) % 2 ^ 64 })

/-- The room for metadata in `initiate_plaintext`; `initiate_box` has room for a text of this size. -/
def metadataCapacity : ℕ := 256

/-- `produce_initiate`. The metadata are assumed to be limited to 256 bytes. -/
def produceInitiate (m : CurveClient) : Except MechanismFault (Msg × CurveClient) :=
  let vouchNonce := k.random m.randomCalls
  let vouchBox := k.box (m.cnPublic ++ m.serverKey) (ascii "VOUCH---" ++ vouchNonce) m.cnServer m.secretKey
  match ownProperties o with
  | .error f => .error f
  | .ok properties =>
    if properties.length > metadataCapacity then .error .outOfBounds
    else
      let nonce := putUint64 m.cnNonce
      let text := m.publicKey ++ vouchNonce ++ vouchBox ++ properties
      let box := k.box text (ascii "CurveZMQINITIATE" ++ nonce) m.cnServer m.cnSecret
      .ok (handshakeCommand ([8] ++ ascii "INITIATE" ++ m.cnCookie ++ nonce ++ box),
        { m with cnNonce := (m.cnNonce + 1) % 2 ^ 64, randomCalls := m.randomCalls + 1 })

/-- `next_handshake_command`. -/
def nextHandshakeCommand (m : CurveClient) : Except MechanismFault (Except Errno Msg × CurveClient) :=
  match m.state with
  | .sendHello =>
    match produceHello k m with
    | (msg, m) => .ok (.ok msg, { m with state := .expectWelcome })
  | .sendInitiate =>
    match produceInitiate o k m with
    | .error f => .error f
    | .ok (msg, m) => .ok (.ok msg, { m with state := .expectReady })
  | _ => .ok (.error .eagain, m)

/-- The box of a WELCOME command. -/
def openWelcome (data : List UInt8) (m : CurveClient) : Option (List UInt8) :=
  k.boxOpen (slice data 24 144) (ascii "WELCOME-" ++ slice data 8 16) m.serverKey m.cnSecret

/-- `process_welcome`. -/
def processWelcome (data : List UInt8) (m : CurveClient) : Except Errno Unit × CurveClient :=
  if data.length ≠ 168 then (.error .eproto, m)
  else
    match openWelcome k data m with
    | none => (.error .eproto, m)
    | some text =>
      (.ok (),
        { m with
          cnServer := text.take 32
          cnCookie := slice text 32 96
          cnPrecom := k.beforenm (text.take 32) m.cnSecret
          state := .sendInitiate })

/-- The size of `ready_box` without the zero bytes in front; `ready_plaintext` has room for what it holds. -/
def readyBoxCapacity : ℕ := 16 + 256

/-- The box of a READY command. -/
def openReady (data : List UInt8) (m : CurveClient) : Option (List UInt8) :=
  k.openAfternm (data.drop 14) (ascii "CurveZMQREADY---" ++ slice data 6 8) m.cnPrecom

/-- `process_ready`. -/
def processReady (data : List UInt8) (m : CurveClient) : Except MechanismFault (Except Errno Unit × CurveClient) :=
  if data.length < 30 then .ok (.error .eproto, m)
  -- Nothing says that the command fits into the buffer.
  else if data.length - 14 > readyBoxCapacity then .error .outOfBounds
  else
    let peerNonce := getUint64 (slice data 6 8)
    match openReady k data m with
    | none => .ok (.error .eproto, { m with cnPeerNonce := peerNonce })
    | some text =>
      match parseMetadata o false text m.base with
      | (.ok (), base) => .ok (.ok (), { m with cnPeerNonce := peerNonce, base, state := .connected })
      | (.error e, base) => .ok (.error e, { m with cnPeerNonce := peerNonce, base })

/-- `process_error`. -/
def processError (data : List UInt8) (m : CurveClient) : Except Errno Unit × CurveClient :=
  if m.state ≠ .expectWelcome ∧ m.state ≠ .expectReady then (.error .eproto, m)
  else if data.length < 7 then (.error .eproto, m)
  else if (data.getD 6 0).toNat > data.length - 7 then (.error .eproto, m)
  else (.ok (), { m with state := .errorReceived })

/-- The commands `process_handshake_command` tells apart. -/
inductive Command
  | welcome
  | ready
  | error
  | unknown
  deriving DecidableEq, Repr

/-- Which command a message is, by its name. -/
def command (data : List UInt8) : Command :=
  if data.take 8 = [7] ++ ascii "WELCOME" then .welcome
  else if data.take 6 = [5] ++ ascii "READY" then .ready
  else if data.take 6 = [5] ++ ascii "ERROR" then .error
  else .unknown

/-- `process_handshake_command`. -/
def processHandshakeCommand (msg : Msg) (m : CurveClient) :
    Except MechanismFault (Except Errno Unit × CurveClient) :=
  match command msg.body with
  | .welcome => .ok (processWelcome k msg.body m)
  | .ready => processReady o k msg.body m
  | .error => .ok (processError msg.body m)
  | .unknown => .ok (.error .eproto, m)

/-- `encode`. -/
def encode (msg : Msg) (m : CurveClient) : Except MechanismFault (Except Errno Msg × CurveClient) :=
  if m.state ≠ .connected then .error .assertFailed
  else
    let flags : UInt8 := if msg.more then 1 else 0
    let nonce := putUint64 m.cnNonce
    let box := k.boxAfternm (flags :: msg.body) (ascii "CurveZMQMESSAGEC" ++ nonce) m.cnPrecom
    .ok (.ok (handshakeCommand ([7] ++ ascii "MESSAGE" ++ nonce ++ box)),
      { m with cnNonce := (m.cnNonce + 1) % 2 ^ 64 })

/-- `decode`. -/
def decode (msg : Msg) (m : CurveClient) : Except MechanismFault (Except Errno Msg × CurveClient) :=
  if m.state ≠ .connected then .error .assertFailed
  else if msg.body.length < 33 then .ok (.error .eproto, m)
  else if msg.body.take 8 ≠ [7] ++ ascii "MESSAGE" then .ok (.error .eproto, m)
  else
    let nonce := getUint64 (slice msg.body 8 8)
    if nonce ≤ m.cnPeerNonce then .ok (.error .eproto, m)
    else
      let m := { m with cnPeerNonce := nonce }
      let messageNonce := ascii "CurveZMQMESSAGES" ++ slice msg.body 8 8
      match k.openAfternm (msg.body.drop 16) messageNonce m.cnPrecom with
      | none => .ok (.error .eproto, m)
      | some text => .ok (.ok ⟨.data, frameFlags (text.headD 0 &&& 1 ≠ 0), text.drop 1⟩, m)

/-- `status`. -/
def status (m : CurveClient) : MechanismStatus :=
  match m.state with
  | .connected => .ready
  | .errorReceived => .error
  | _ => .handshaking

end CurveClient

end Zmq
