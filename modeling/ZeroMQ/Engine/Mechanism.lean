import ZeroMQ.Engine.Greeting

/-!
# Security mechanisms

A mechanism exchanges handshake commands with the peer and may ask a ZAP handler, over a pipe of the
session, whether the peer is to be let in. `MechanismOps` is what an engine calls. The three
mechanisms that ask have their own copies of the code that reads the reply; these copies differ in one
value of `errno`, so `receiveAndProcessZapReply` has it as a parameter.
-/

namespace Zmq

/-- `mechanism_t::status_t`. -/
inductive MechanismStatus
  | handshaking
  | ready
  | error
  deriving DecidableEq, Repr

/-- The values of `errno`. -/
inductive Errno
  | eagain
  | eproto
  | einval
  | eacces
  | efsm
  | enotconn
  deriving DecidableEq, Repr

/-- What must not happen in a mechanism. -/
inductive MechanismFault
  /-- An assertion fails. -/
  | assertFailed
  /-- A buffer on the stack is too short. -/
  | outOfBounds
  deriving DecidableEq, Repr

/-! ### The session's ZAP pipe -/

/-- The session's side of ZAP. -/
structure Zap where
  /-- The handler `zap_connect` would find, and whether it expects an identity. -/
  handler : Option Bool
  /-- The frames that can be read from `zap_pipe`. -/
  pipe : Option (List Msg)
  /-- The frames that have been written to it. -/
  written : List Msg
  /-- What `zap_connect` has returned. -/
  connects : List Bool
  /-- The replies that have passed all checks. -/
  verified : List (List Msg)

namespace Zap

/-- A frame of data. -/
def frame (body : List UInt8) (more : Bool) : Msg := ⟨.data, frameFlags more, body⟩

/-- `session_base_t::zap_connect`. -/
def zapConnect (z : Zap) : Except MechanismFault (Bool × Zap) :=
  match z.pipe, z.handler with
  | some _, _ => .error .assertFailed
  | none, none => .ok (false, { z with connects := z.connects ++ [false] })
  | none, some recvIdentity =>
    let identity := if recvIdentity then [⟨.data, { MsgFlags.none with identity := true }, []⟩] else []
    .ok (true, { z with pipe := some [], written := z.written ++ identity,
                        connects := z.connects ++ [true] })

/-- `session_base_t::write_zap_msg` for the frames of a request. -/
def writeZapMsgs (frames : List Msg) (z : Zap) : Except MechanismFault Zap :=
  match z.pipe with
  | none => .error .assertFailed
  | some _ => .ok { z with written := z.written ++ frames }

/-- `session_base_t::read_zap_msg`. -/
def readZapMsg (z : Zap) : Except Errno Msg × Zap :=
  match z.pipe with
  | none => (.error .enotconn, z)
  | some [] => (.error .eagain, z)
  | some (m :: ms) => (.ok m, { z with pipe := some ms })

/-- The loop that reads the frames of a reply; `n` is how many are missing. Every frame but the last
must be followed by another one. -/
def readFrames : ℕ → Zap → Except Errno (List Msg) × Zap
  | 0, z => (.ok [], z)
  | n + 1, z =>
    match z.readZapMsg with
    | (.error e, z) => (.error e, z)
    | (.ok m, z) =>
      if m.more = (n = 0 : Bool) then (.error .eproto, z)
      else
        match readFrames n z with
        | (.error e, z) => (.error e, z)
        | (.ok ms, z) => (.ok (m :: ms), z)

end Zap

/-! ### `mechanism_t` -/

/-- What the mechanisms read of `options_t`, and the peer's address. -/
structure MechanismOptions where
  type : SocketType
  identity : List UInt8
  /-- `identity_size` is one byte. -/
  identity_le : identity.length ≤ 255
  recvIdentity : Bool
  zapDomain : List UInt8
  peerAddress : List UInt8

lemma identity_nil_le : ([] : List UInt8).length ≤ 255 := Nat.zero_le _

/-- The fields of `mechanism_t`. -/
structure MechanismBase where
  identity : List UInt8
  userId : List UInt8
  zmtpProperties : List (List UInt8 × List UInt8)
  zapProperties : List (List UInt8 × List UInt8)

namespace MechanismBase

/-- The constructor. -/
def init : MechanismBase := ⟨[], [], [], []⟩

/-- `insert` of a dictionary: the first value stays. -/
def insert (properties : List (List UInt8 × List UInt8)) (name value : List UInt8) :
    List (List UInt8 × List UInt8) :=
  if properties.any (fun p => p.1 = name) then properties else properties ++ [(name, value)]

/-- `set_user_id`. -/
def setUserId (b : MechanismBase) (data : List UInt8) : MechanismBase :=
  { b with userId := data, zapProperties := insert b.zapProperties (ascii "User-Id") data }

end MechanismBase

/-- `socket_type_string`. -/
def socketTypeString : SocketType → Except MechanismFault (List UInt8)
  | .pair => .ok (ascii "PAIR")
  | .pub => .ok (ascii "PUB")
  | .sub => .ok (ascii "SUB")
  | .req => .ok (ascii "REQ")
  | .rep => .ok (ascii "REP")
  | .dealer => .ok (ascii "DEALER")
  | .router => .ok (ascii "ROUTER")
  | .pull => .ok (ascii "PULL")
  | .push => .ok (ascii "PUSH")
  | .xpub => .ok (ascii "XPUB")
  | .xsub => .ok (ascii "XSUB")
  | .stream => .error .assertFailed

/-- `check_socket_type`. -/
def checkSocketType (type : SocketType) (peer : List UInt8) : Bool :=
  match type with
  | .req => peer = ascii "REP" ∨ peer = ascii "ROUTER"
  | .rep => peer = ascii "REQ" ∨ peer = ascii "DEALER"
  | .dealer => peer = ascii "REP" ∨ peer = ascii "DEALER" ∨ peer = ascii "ROUTER"
  | .router => peer = ascii "REQ" ∨ peer = ascii "DEALER" ∨ peer = ascii "ROUTER"
  | .push => peer = ascii "PULL"
  | .pull => peer = ascii "PUSH"
  | .pub => peer = ascii "SUB" ∨ peer = ascii "XSUB"
  | .sub => peer = ascii "PUB" ∨ peer = ascii "XPUB"
  | .xpub => peer = ascii "SUB" ∨ peer = ascii "XSUB"
  | .xsub => peer = ascii "PUB" ∨ peer = ascii "XPUB"
  | .pair => peer = ascii "PAIR"
  | .stream => false

/-- `add_property`. -/
def addProperty (name value : List UInt8) : Except MechanismFault (List UInt8) :=
  if 255 < name.length ∨ 0x7FFFFFFF < value.length then .error .assertFailed
  else .ok ([UInt8.ofNat name.length] ++ name ++ putUint32 value.length ++ value)

/-- The properties every mechanism sends: the type of the socket and, for some types, its identity. -/
def ownProperties (o : MechanismOptions) : Except MechanismFault (List UInt8) := do
  let type ← socketTypeString o.type
  let socketType ← addProperty (ascii "Socket-Type") type
  let identity ←
    if o.type = .req ∨ o.type = .dealer ∨ o.type = .router then
      addProperty (ascii "Identity") o.identity
    else .ok []
  return socketType ++ identity

/-- What the loop of `parse_metadata` leaves when it ends early: an error, if there are bytes left. -/
def metadataRest (rest : List UInt8) (b : MechanismBase) : Except Errno Unit × MechanismBase :=
  if rest = [] then (.ok (), b) else (.error .eproto, b)

/-- A property of the peer or of the ZAP handler. `property` accepts all of them. -/
def takeProperty (o : MechanismOptions) (zapFlag : Bool) (name value : List UInt8) (b : MechanismBase) :
    Except Errno Unit × MechanismBase :=
  let identity := if name = ascii "Identity" ∧ o.recvIdentity then value else b.identity
  if name = ascii "Socket-Type" ∧ checkSocketType o.type value = false then (.error .einval, b)
  else if zapFlag then
    (.ok (), { b with identity, zapProperties := MechanismBase.insert b.zapProperties name value })
  else
    (.ok (), { b with identity, zmtpProperties := MechanismBase.insert b.zmtpProperties name value })

/-- `parse_metadata`. -/
def parseMetadata (o : MechanismOptions) (zapFlag : Bool) (data : List UInt8) (b : MechanismBase) :
    Except Errno Unit × MechanismBase :=
  match data with
  | [] => (.ok (), b)
  | [_] => (.error .eproto, b)
  | nameLength :: rest =>
    let name := rest.take nameLength.toNat
    let afterName := rest.drop nameLength.toNat
    let valueLength := getUint32 (afterName.take 4)
    let afterLength := afterName.drop 4
    if rest.length < nameLength.toNat then metadataRest rest b
    else if afterName.length < 4 then metadataRest afterName b
    else if afterLength.length < valueLength then metadataRest afterLength b
    else
      match takeProperty o zapFlag name (afterLength.take valueLength) b with
      | (.error e, b) => (.error e, b)
      | (.ok (), b) => parseMetadata o zapFlag (afterLength.drop valueLength) b
termination_by data.length
decreasing_by
  simp only [List.length_drop, List.length_cons]
  omega

/-! ### The reply of the ZAP handler -/

/-- The body of a frame of a reply. -/
def replyField (reply : List Msg) (i : ℕ) : List UInt8 := (reply[i]?.map Msg.body).getD []

/-- The checks of the fields of a reply, up to the status code. `badCode` is for a status code that
does not have three characters. -/
def checkReply (badCode : Errno) (reply : List Msg) : Except Errno Unit :=
  if replyField reply 0 ≠ [] then .error .eproto
  else if replyField reply 1 ≠ ascii "1.0" then .error .eproto
  else if replyField reply 2 ≠ ascii "1" then .error .eproto
  else if (replyField reply 3).length ≠ 3 then .error badCode
  else .ok ()

/-- `receive_and_process_zap_reply`: the status code, and the other fields of the mechanism. The status
code and the user id are stored before the metadata are parsed. -/
def receiveAndProcessZapReply (badCode : Errno) (o : MechanismOptions) (code : List UInt8)
    (b : MechanismBase) (z : Zap) : Except Errno Unit × List UInt8 × MechanismBase × Zap :=
  match z.readFrames 7 with
  | (.error e, z) => (.error e, code, b, z)
  | (.ok reply, z) =>
    match checkReply badCode reply with
    | .error e => (.error e, code, b, z)
    | .ok () =>
      match parseMetadata o true (replyField reply 6) (b.setUserId (replyField reply 5)) with
      | (.error e, b) => (.error e, replyField reply 3, b, z)
      | (.ok (), b) =>
        (.ok (), replyField reply 3, b, { z with verified := z.verified ++ [reply] })

/-- `send_zap_request`, with the frames for a mechanism and its credentials. -/
def sendZapRequest (o : MechanismOptions) (mechanism : List (List UInt8)) (z : Zap) :
    Except MechanismFault Zap :=
  let fields := [[], ascii "1.0", ascii "1", o.zapDomain, o.peerAddress, o.identity] ++ mechanism
  let last := fields.length - 1
  z.writeZapMsgs (fields.mapIdx fun i field => Zap.frame field (i ≠ last))

/-- A call that gives a message. -/
abbrev GivesMsg (μ : Type) := Except MechanismFault (Except Errno Msg × μ × Zap)

/-- A call that gives nothing. -/
abbrev GivesUnit (μ : Type) := Except MechanismFault (Except Errno Unit × μ × Zap)

/-- The virtual functions of `mechanism_t`. -/
structure MechanismOps (μ : Type) where
  base : μ → MechanismBase
  status : μ → MechanismStatus
  nextHandshakeCommand : μ → Zap → GivesMsg μ
  processHandshakeCommand : Msg → μ → Zap → GivesUnit μ
  zapMsgAvailable : μ → Zap → GivesUnit μ
  encode : Msg → μ → Except MechanismFault (Except Errno Msg × μ)
  decode : Msg → μ → Except MechanismFault (Except Errno Msg × μ)

end Zmq
