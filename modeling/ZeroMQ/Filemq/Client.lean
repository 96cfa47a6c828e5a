import ZeroMQ.Filemq.Server

/-!
# The FileMQ client, and a client with its server

A client connects, sets its inbox, subscribes, and then writes the chunks it gets into files of the inbox. It
keeps account of the credit it has given the server: it takes the bytes of a chunk off when it has written it,
and gives new credit when there is less than a minimum.

The client and its session of the server are joined by two channels. The session exists from the first message
on. When it is gone, a message of the client makes a new one, which answers with `RTFM` as it is not an `OHAI`.
-/

namespace Filemq

open Czmq

/-! ### The client -/

/-- `CREDIT_SLICE`. -/
def creditSlice : ℕ := 1000000

/-- `CREDIT_MINIMUM`. -/
def creditMinimum : ℕ := creditSlice * 4 + 1

/-- `state_t` of the client. -/
inductive ClientState
  | start
  | connecting
  | connected
  | subscribing
  | subscribed
  deriving DecidableEq, Repr

/-- `s_client_t` with `client_t`. -/
structure Client where
  state : ClientState
  terminated : Bool
  credit : ℕ
  /-- `file`: the name of the file that is open. -/
  file : Option CString
  inbox : Option CString
  /-- `subs`: the paths of the subscriptions. -/
  subs : List CString
  timeouts : ℕ
  /-- `message->sequence`, which is sent with credit. -/
  sequence : UInt64
  deriving DecidableEq

/-- `client_initialize`. -/
def Client.new : Client := ⟨.start, false, 0, none, none, [], 0, 0⟩

/-- A loop of the client that does not end. -/
inductive ClientFault
  | endless
  deriving DecidableEq, Repr

/-- The files of the client that can be written, by name. -/
abbrev Writable := CString → Bool

namespace Client

/-- The loop of `refill_credit_as_needed`: the credit and what is to be sent; every turn adds a slice. -/
def refillLoop : ℕ → ℕ → ℕ → ℕ × ℕ
  | 0, credit, creditToSend => (credit, creditToSend)
  | turns + 1, credit, creditToSend =>
    if credit < creditMinimum then refillLoop turns (credit + creditSlice) (creditToSend + creditSlice)
    else (credit, creditToSend)

/-- `refill_credit_as_needed`, and `send NOM` on the event it sets. -/
def refill (c : Client) : Client × List Request :=
  let (credit, creditToSend) := refillLoop (creditMinimum / creditSlice + 1) c.credit 0
  ({ c with credit }, if creditToSend = 0 then [] else [.nom (UInt64.ofNat creditToSend) c.sequence])

/-- The loop of `process_the_patch` over the subscriptions: it stays at the first one until that matches. -/
def matchSubscription (filename : CString) : List CString → Except ClientFault CString
  | [] => .ok filename
  | path :: _ =>
    if startsWith filename path then .ok (dropString path.bytes.length filename) else .error .endless

/-- `if ('/' == *filename) filename++`. -/
def dropSlash (filename : CString) : CString := if isAbsolute filename then dropString 1 filename else filename

/-- The last part of `process_the_patch` for a created file that is open: a chunk is taken off the credit. -/
def writeChunk (c : Client) (name : CString) (chunk : List UInt8) : Client :=
  if 0 < chunk.length then { c with file := some name, credit := (c.credit + 2 ^ 64 - chunk.length) % 2 ^ 64 }
  else { c with file := none }

/-- The file of the inbox that `process_the_patch` writes for a filename; only a client with an inbox subscribes. -/
def target (c : Client) (filename : CString) : Except ClientFault CString := do
  let name ← matchSubscription filename c.subs
  .ok (c.inbox.elim id joinPath (dropSlash name))

/-- `process_the_patch`; no filename is received as an empty one, and what is reported to the caller and the files
that are removed are left out. -/
def processThePatch (writable : Writable) (c : Client) (m : Cheezburger) : Except ClientFault Client :=
  match m.filename with
  | none => .ok c
  | some filename =>
    if isAbsolute filename then do
      let name ← c.target filename
      if m.operation = fileCreate then
        match c.file with
        | some open_ => .ok (c.writeChunk open_ m.chunk)
        | none => if writable name then .ok (c.writeChunk name m.chunk) else .ok c
      else .ok c
    else .ok c

/-- The path is set in the message; a path that is subscribed to already is not added again. -/
def addSubscription (c : Client) (path : CString) : Client :=
  if path ∈ c.subs then c else { c with subs := c.subs ++ [path] }

/-- A timeout: the client gives up after four. -/
def countTimeout (c : Client) : Client :=
  if c.timeouts ≤ 3 then { c with timeouts := c.timeouts + 1 } else { c with terminated := true }

end Client

/-- What the application asks of a client, and its timer. -/
inductive ClientCall
  /-- `connects` says whether the endpoint can be connected to. -/
  | constructor (connects : Bool)
  | setInbox (path : CString)
  | subscribe (path : CString)
  | destructor
  | expired

namespace Client

/-- `s_client_execute` of a call, with the messages that are sent: what a state does not expect is only logged. -/
def call (c : Client) (event : ClientCall) : Client × List Request :=
  if c.terminated then (c, [])
  else
    match event, c.state with
    | .constructor true, .start => ({ c with state := .connecting }, [.ohai])
    | .constructor false, .start => ({ c with terminated := true }, [])
    | .setInbox path, .connected => ({ c with inbox := some (c.inbox.getD path) }, [])
    | .subscribe path, .connected =>
      if c.inbox.isSome ∧ isAbsolute path then ({ c.addSubscription path with state := .subscribing }, [.icanhaz])
      else (c, [])
    | .destructor, .connected | .destructor, .subscribed => ({ c with terminated := true }, [.kthxbai])
    | .expired, .connecting | .expired, .subscribing => (c.countTimeout, [])
    | .expired, .connected | .expired, .subscribed => (c.countTimeout, [.hugz])
    | _, _ => (c, [])

/-- `s_client_execute` of a message from the server. -/
def receive (writable : Writable) (c : Client) (r : Reply) : Except ClientFault (Client × List Request) :=
  match r, c.state with
  | .ohaiOk, .connecting => .ok ({ c with state := .connected, timeouts := 0 }, [])
  | .icanhazOk, .subscribing => .ok { c with state := .subscribed, timeouts := 0 }.refill
  | .cheezburger m, .subscribed => do
    let c ← { c with timeouts := 0, sequence := UInt64.ofNat m.sequence }.processThePatch writable m
    .ok c.refill
  | .hugzOk, _ => .ok ({ c with timeouts := 0 }, [])
  | .rtfm, _ => .ok ({ c with timeouts := 0, terminated := true }, [])
  | _, _ => .ok (c, [])

end Client

/-! ### A client and its server -/

/-- A client, its session, and the messages on the way. -/
structure Link where
  client : Client
  session : Session
  toServer : List Request
  toClient : List Reply

/-- What can happen. -/
inductive LinkAct
  /-- The application calls the client, or its timer expires. -/
  | call (event : ClientCall)
  /-- The client gets the next message. -/
  | clientReceive (writable : Writable)
  /-- The server gets the next message. -/
  | serverReceive (disk : Disk)
  /-- There has been activity in a mount. -/
  | dispatch (disk : Disk)
  /-- The server has not heard of the client for some time. -/
  | expire
  /-- A refresh changes the list of patches. -/
  | refresh (patches : List ZdirPatch)
  /-- The message structure of the server is used for another client. -/
  | other (message : FmqMsg)

/-- What goes wrong. -/
inductive LinkFault
  | client
  | server
  deriving DecidableEq, Repr

namespace Link

/-- Nothing has happened. -/
def new : Link := ⟨.new, .new, [], []⟩

/-- The session takes an input, and what it sends is on the way. -/
def serverExecute (l : Link) (input : Session.Input) : Except LinkFault Link :=
  match l.session.step input with
  | .ok session => .ok { l with session, toClient := l.toClient ++ session.sent.drop l.session.sent.length }
  | .error _ => .error .server

/-- Something happens at the server; the machine for the client is made with its first message. -/
def serverInput (l : Link) (input : Session.Input) : Except LinkFault Link :=
  match l.session.state with
  | .start | .terminated => .ok l
  | .ready | .dispatching => l.serverExecute input

/-- One step. -/
def step (l : Link) : LinkAct → Except LinkFault Link
  | .call event =>
    let (client, requests) := l.client.call event
    .ok { l with client, toServer := l.toServer ++ requests }
  | .clientReceive writable =>
    match l.client.terminated, l.toClient with
    | false, r :: rest =>
      match l.client.receive writable r with
      | .ok (client, requests) => .ok { l with client, toClient := rest, toServer := l.toServer ++ requests }
      | .error _ => .error .client
    | _, _ => .ok l
  | .serverReceive disk =>
    match l.toServer with
    | [] => .ok l
    | r :: rest =>
      match l.session.state with
      | .terminated => .ok { l with toServer := rest, toClient := l.toClient ++ [.rtfm] }
      | .start | .ready | .dispatching => { l with toServer := rest }.serverExecute (.request r disk)
  | .dispatch disk => l.serverInput (.dispatch disk)
  | .expire => l.serverInput .expire
  | .refresh patches => l.serverInput (.refresh patches)
  | .other message => l.serverInput (.other message)

end Link

end Filemq
