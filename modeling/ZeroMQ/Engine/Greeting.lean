import ZeroMQ.Codec.Encoder
import ZeroMQ.Foundation.Block
import ZeroMQ.Foundation.Run

/-!
# The greeting

Before any message is exchanged, `stream_engine_t` finds out which protocol the peer uses. It sends a
greeting that an old peer takes for the header of an identity message, reads the peer's greeting into a
buffer, and looks at the bytes it has so far after every read. How much it expects, and what it
appends to its own greeting, depends on them.

The connection is a stream of bytes of which every read takes some from the front; it stays open
behind them, or it ends. The numbers of bytes the reads and the writes get are chosen by the labels of
the steps.
-/

namespace Zmq

open Foundation List

/-! ### Options -/

/-- `options.type`. -/
inductive SocketType
  | pair
  | pub
  | sub
  | req
  | rep
  | dealer
  | router
  | pull
  | push
  | xpub
  | xsub
  | stream
  deriving DecidableEq, Repr

/-- The constants of `zmq.h`. -/
def SocketType.code : SocketType → UInt8
  | .pair => 0
  | .pub => 1
  | .sub => 2
  | .req => 3
  | .rep => 4
  | .dealer => 5
  | .router => 6
  | .pull => 7
  | .push => 8
  | .xpub => 9
  | .xsub => 10
  | .stream => 11

/-- `options.mechanism`. -/
inductive MechanismOption
  | null
  | plain
  | curve
  | gssapi
  deriving DecidableEq, Repr

/-- The characters of the name of the mechanism in the greeting. -/
def MechanismOption.name : MechanismOption → List UInt8
  | .null => ascii "NULL"
  | .plain => ascii "PLAIN"
  | .curve => ascii "CURVE"
  | .gssapi => ascii "GSSAPI"

/-- The name as a string of 20 characters, which `handshake` compares with the peer's. -/
def MechanismOption.padded (m : MechanismOption) : List UInt8 := m.name ++ List.replicate (20 - m.name.length) 0

/-- The classes of mechanisms. -/
inductive MechanismClass
  | null
  | plainServer
  | plainClient
  | curveServer
  | curveClient
  | gssapiServer
  | gssapiClient
  deriving DecidableEq, Repr

/-- What the handshake reads of `options_t`, and which libraries the engine was compiled with. -/
structure GreetingOptions where
  type : SocketType
  identity : List UInt8
  /-- `identity_size` is an `unsigned char`. -/
  identity_le : identity.length ≤ 255
  mechanism : MechanismOption
  asServer : Bool
  haveLibsodium : Bool
  haveLibgssapi : Bool

/-! ### The connection -/

/-- What follows the last byte of the stream. -/
inductive StreamEnd
  | staysOpen
  | closed
  | broken
  deriving DecidableEq, Repr

/-- The bytes the peer has sent that have not been read. -/
structure Connection where
  unread : List UInt8
  ending : StreamEnd

/-- What `tcp_read` returns. -/
inductive TcpRead
  | data (bytes : List UInt8)
  | again
  | closed
  | error

/-- `tcp_read`, when at most `limit` bytes have arrived. -/
def Connection.tcpRead (c : Connection) (limit size : ℕ) : TcpRead × Connection :=
  if limit = 0 then (.again, c)
  else if c.unread = [] then
    match c.ending with
    | .staysOpen => (.again, c)
    | .closed => (.closed, c)
    | .broken => (.error, c)
  else
    let n := min limit size
    (.data (c.unread.take n), { c with unread := c.unread.drop n })

/-- There is nothing to read, and there may be more later. -/
def Connection.Dry (c : Connection) : Prop := c.unread = [] ∧ c.ending = .staysOpen

lemma Connection.tcpRead_cases (c : Connection) (limit : ℕ) {size : ℕ} (hsize : 0 < size) :
    (c.tcpRead limit size = (.again, c) ∧ (limit ≠ 0 → c.Dry)) ∨
    (c.unread = [] ∧ c.ending ≠ .staysOpen ∧
      (c.tcpRead limit size = (.closed, c) ∨ c.tcpRead limit size = (.error, c))) ∨
    ∃ bytes rest, c.unread = bytes ++ rest ∧ bytes ≠ [] ∧ bytes.length ≤ size ∧
      c.tcpRead limit size = (.data bytes, { c with unread := rest }) := by
  unfold Connection.tcpRead
  split_ifs with hlimit hunread
  · exact .inl ⟨rfl, fun hne => absurd hlimit hne⟩
  · cases hend : c.ending with
    | staysOpen => exact .inl ⟨rfl, fun _ => ⟨hunread, hend⟩⟩
    | closed => exact .inr (.inl ⟨hunread, by simp, .inl rfl⟩)
    | broken => exact .inr (.inl ⟨hunread, by simp, .inr rfl⟩)
  · refine .inr (.inr ⟨_, _, (take_append_drop _ _).symm, ?_, ?_, rfl⟩)
    · have := length_pos_iff.2 hunread
      refine ne_nil_of_length_pos ?_
      rw [length_take]
      omega
    · rw [length_take]
      omega

/-! ### The engine -/

/-- What the handshake can choose. -/
inductive Protocol
  | unversioned
  | zmtp1
  | zmtp2
  | zmtp3 (mechanism : MechanismClass)
  deriving DecidableEq, Repr

/-- `error_reason_t`. -/
inductive ErrorReason
  | protocolError
  | connectionError
  deriving DecidableEq, Repr

/-- `handshaking`, and what comes after it. -/
inductive Phase
  | handshaking
  | running (p : Protocol)
  /-- `error` was called. -/
  | failed (reason : ErrorReason)
  deriving DecidableEq, Repr

/-- What must not happen. -/
inductive GreetingFault
  /-- An access outside of `greeting_recv` or `greeting_send`. -/
  | outOfBounds
  /-- A `zmq_assert` fails. -/
  | assertFailed
  | encode (f : EncodeFault)
  deriving DecidableEq, Repr

/-- The fields of `stream_engine_t` the handshake works with. -/
structure Greeting where
  connection : Connection
  phase : Phase
  greetingRecv : Block UInt8 64
  greetingBytesRead : ℕ
  greetingSize : ℕ
  greetingSend : Block UInt8 64
  /-- The offset of `outpos` in `greeting_send`. -/
  outpos : ℕ
  outsize : ℕ
  /-- The engine polls for output. -/
  pollout : Bool
  encoder : Option Encoder
  /-- The `insize` bytes at `inpos`. -/
  input : List UInt8
  subscriptionRequired : Bool
  /-- All bytes that were written to the connection. -/
  sent : List UInt8

/-- `signature_size`. -/
def signatureSize : ℕ := 10

/-- `v2_greeting_size`. -/
def v2GreetingSize : ℕ := 12

/-- `v3_greeting_size`. -/
def v3GreetingSize : ℕ := 64

/-- The size of the buffer of an encoder. -/
def outBatchSize : ℕ := 8192

namespace Greeting

variable (o : GreetingOptions)

/-- `outpos [outsize++] = ...` and its likes: bytes are written behind the `outsize` bytes that are
waiting. -/
def append (s : Greeting) (bytes : List UInt8) : Except GreetingFault Greeting :=
  match s.greetingSend.store (s.outpos + s.outsize) bytes with
  | none => .error .outOfBounds
  | some send => .ok { s with greetingSend := send, outsize := s.outsize + bytes.length }

/-- Bytes are written over those behind the ones that are waiting. -/
def overwrite (s : Greeting) (bytes : List UInt8) : Except GreetingFault Greeting :=
  match s.greetingSend.store (s.outpos + s.outsize) bytes with
  | none => .error .outOfBounds
  | some send => .ok { s with greetingSend := send }

/-- `plug`, for a socket that is not raw, up to the first `in_event`. The buffers hold anything. -/
def plug (c : Connection) (recv send : Block UInt8 64) : Except GreetingFault Greeting := do
  let s : Greeting := ⟨c, .handshaking, recv, 0, v2GreetingSize, send, 0, 0, false, none, [], false, []⟩
  let s ← s.append [0xff]
  let s ← s.append (putUint64 (o.identity.length + 1))
  let s ← s.append [0x7f]
  return { s with pollout := true }

/-- The rest of the greeting for peers that use ZMTP 3.0. -/
def appendMechanism (s : Greeting) : Except GreetingFault Greeting := do
  let s ← s.append [0]
  let s ← s.overwrite (List.replicate 20 0)
  let s ← s.overwrite o.mechanism.name
  let s := { s with outsize := s.outsize + 20 }
  let s ← s.overwrite (List.replicate 32 0)
  return { s with outsize := s.outsize + 32, greetingSize := v3GreetingSize }

/-- `if (outsize == 0) set_pollout (handle)`. -/
def wakeOutput (s : Greeting) : Greeting := if s.outsize = 0 then { s with pollout := true } else s

/-- The peer is using a versioned protocol: send the major version number. -/
def sendMajor (s : Greeting) : Except GreetingFault Greeting :=
  if s.outpos + s.outsize = signatureSize then s.wakeOutput.append [3] else .ok s

/-- The peer has sent its major version number. -/
def sendRest (s : Greeting) : Except GreetingFault Greeting :=
  if s.greetingBytesRead > signatureSize then
    if s.outpos + s.outsize = signatureSize + 1 then
      if s.greetingRecv.get 10 = 0 ∨ s.greetingRecv.get 10 = 1 then
        s.wakeOutput.append [o.type.code]
      else s.wakeOutput.appendMechanism o
    else .ok s
  else .ok s

/-- The engine looks at what it has received after a read: the loop is left, or it goes on. -/
def inspect (s : Greeting) : Except GreetingFault (Bool × Greeting) :=
  -- The peer is using the unversioned protocol.
  if s.greetingRecv.get 0 ≠ 0xff then .ok (true, s)
  else if s.greetingBytesRead < signatureSize then .ok (false, s)
  -- The tenth byte holds the flags of an identity message.
  else if s.greetingRecv.get 9 &&& 1 = 0 then .ok (true, s)
  else do
    let s ← s.sendMajor
    let s ← s.sendRest o
    return (false, s)

/-- How the loop that receives the greeting ends. -/
inductive Received
  /-- It has been left, the peer's protocol is known. -/
  | complete
  /-- There is no more to read now. -/
  | again
  /-- The connection has ended. -/
  | lost

/-- The loop of `handshake`. -/
def receiveGreeting : List ℕ → Greeting → Except GreetingFault (Received × Greeting)
  | reads, s =>
    if s.greetingBytesRead < s.greetingSize then
      match reads with
      | [] => .ok (.again, s)
      | limit :: reads =>
        match s.connection.tcpRead limit (s.greetingSize - s.greetingBytesRead) with
        | (.closed, _) => .ok (.lost, s)
        | (.error, _) => .ok (.lost, s)
        | (.again, _) => .ok (.again, s)
        | (.data bytes, connection) =>
          match s.greetingRecv.store s.greetingBytesRead bytes with
          | none => .error .outOfBounds
          | some recv =>
            match inspect o { s with connection, greetingRecv := recv,
                                     greetingBytesRead := s.greetingBytesRead + bytes.length } with
            | .error f => .error f
            | .ok (true, s) => .ok (.complete, s)
            | .ok (false, s) => receiveGreeting reads s
    else .ok (.complete, s)

/-- The peer's name for a mechanism is compared with the one of this socket. -/
def chooseMechanism (peer : List UInt8) : Option MechanismClass :=
  if o.mechanism = .null ∧ peer = MechanismOption.null.padded then some .null
  else if o.mechanism = .plain ∧ peer = MechanismOption.plain.padded then
    some (if o.asServer then .plainServer else .plainClient)
  else if o.haveLibsodium ∧ o.mechanism = .curve ∧ peer = MechanismOption.curve.padded then
    some (if o.asServer then .curveServer else .curveClient)
  else if o.haveLibgssapi ∧ o.mechanism = .gssapi ∧ peer = MechanismOption.gssapi.padded then
    some (if o.asServer then .gssapiServer else .gssapiClient)
  else none

/-- The encoder for an unversioned peer: the header of the identity message has been sent already, so
it is encoded and thrown away. -/
def identityEncoder : Except GreetingFault Encoder :=
  let headerSize := if o.identity.length + 1 ≥ 255 then 10 else 2
  match Encoder.loadMsg .v1 ⟨.data, .none, o.identity⟩ Encoder.init with
  | .error f => .error (.encode f)
  | .ok e =>
    match Encoder.encode .v1 outBatchSize e (some headerSize) with
    | .error f => .error (.encode f)
    | .ok (header, e) => if header.length = headerSize then .ok e else .error .assertFailed

/-- The end of `handshake`, when the protocol is known. -/
def finish (s : Greeting) (p : Protocol) (e : Encoder) : Greeting :=
  { s.wakeOutput with phase := .running p, encoder := some e }

/-- The part of `handshake` behind the loop. -/
def selectProtocol (s : Greeting) : Except GreetingFault Greeting :=
  if s.greetingRecv.get 0 ≠ 0xff ∨ s.greetingRecv.get 9 &&& 1 = 0 then
    match identityEncoder o with
    | .error f => .error f
    | .ok e =>
      match s.greetingRecv.load 0 s.greetingBytesRead with
      | none => .error .outOfBounds
      | some input =>
        let required : Bool := o.type = .pub ∨ o.type = .xpub
        .ok ({ s with input, subscriptionRequired := required }.finish .unversioned e)
  else if s.greetingRecv.get 10 = 0 then .ok (s.finish .zmtp1 Encoder.init)
  else if s.greetingRecv.get 10 = 1 then .ok (s.finish .zmtp2 Encoder.init)
  else
    match s.greetingRecv.load 12 20 with
    | none => .error .outOfBounds
    | some peer =>
      match chooseMechanism o peer with
      | none => .ok { s with phase := .failed .protocolError }
      | some m => .ok (s.finish (.zmtp3 m) Encoder.init)

/-- `handshake`. -/
def handshake (reads : List ℕ) (s : Greeting) : Except GreetingFault Greeting :=
  if s.greetingBytesRead < s.greetingSize then
    match s.receiveGreeting o reads with
    | .error f => .error f
    | .ok (.again, s) => .ok s
    | .ok (.lost, s) => .ok { s with phase := .failed .connectionError }
    | .ok (.complete, s) => s.selectProtocol o
  else .error .assertFailed

/-- `in_event`, as far as the handshake goes. -/
def inEvent (reads : List ℕ) (s : Greeting) : Except GreetingFault Greeting :=
  match s.phase with
  | .handshaking => s.handshake o reads
  | _ => .ok s

/-- `out_event`, as long as there is something of the greeting to be sent. `tcp_write` writes at most
`n` bytes, or fails. -/
def outEvent (n : Option ℕ) (s : Greeting) : Except GreetingFault Greeting :=
  match s.phase with
  | .failed _ => .ok s
  | _ =>
    if s.outsize = 0 then .ok s
    else
      match n with
      | none => .ok { s with pollout := false }
      | some n =>
        match s.greetingSend.load s.outpos (min n s.outsize) with
        | none => .error .outOfBounds
        | some bytes =>
          let s := { s with outpos := s.outpos + bytes.length, outsize := s.outsize - bytes.length,
                            sent := s.sent ++ bytes }
          .ok { s with pollout := s.pollout && !(s.phase = .handshaking ∧ s.outsize = 0) }

end Greeting

/-- The poller calls the engine. -/
inductive PollEvent
  /-- The connection may have bytes; the numbers limit the reads that find some. -/
  | inEvent (reads : List ℕ)
  /-- The connection takes this many bytes, or it is broken. -/
  | outEvent (n : Option ℕ)
  deriving DecidableEq, Repr

namespace Greeting

/-- One call. -/
def step (o : GreetingOptions) (s : Greeting) : PollEvent → Except GreetingFault Greeting
  | .inEvent reads => s.inEvent o reads
  | .outEvent n => s.outEvent n

/-- The engine is plugged in and then called by the poller. -/
def run (o : GreetingOptions) (c : Connection) (recv send : Block UInt8 64) (events : List PollEvent) :
    Except GreetingFault Greeting :=
  match plug o c recv send with
  | .error f => .error f
  | .ok s => runSteps (step o) s events

end Greeting

end Zmq
