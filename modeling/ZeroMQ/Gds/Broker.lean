import Mathlib.Data.Finmap
import Mathlib.Data.Finset.Sort
import ZeroMQ.Foundation.Run
import ZeroMQ.Gds.Messages
import ZeroMQ.Gds.Zmsg

/-!
# The GDS broker

The broker queues the requests of the clients, by service and by the UUID of a project, and sends each to
a worker of the service that serves the project and waits for work. Workers are objects on the heap:
`workers` maps the identity of a worker to a pointer, and so do the lists of those that wait, the broker's
and one of each service. A worker points to its service, which is never deleted and is known by its name.

What a handler finds outside is in `Readings`: the clock, the memory in which the counter of a new service
lies, which its constructor does not set, and a local variable that is not initialised. `queued` and
`dispatched` record what has been put into the queues and what has been sent from them; the code does not
read them.
-/

namespace Gds

/-! ### State -/

/-- `worker`. -/
structure Worker where
  /-- `m_identity` -/
  identity : String
  /-- `m_service`, by name, with nothing for the null pointer. -/
  service : Option String
  /-- `m_expiry` -/
  expiry : ℤ
  /-- `m_projInfo` -/
  projInfo : ProjectInfo
  deriving DecidableEq, Repr

/-- The UUID of the project the worker serves. -/
abbrev Worker.uuid (wrk : Worker) : String := wrk.projInfo.strUUID

/-- A new worker; the type of operation of its project is not initialised. -/
def Worker.new (identity : String) (iOther : ℤ) : Worker := ⟨identity, none, 0, ProjectInfo.new iOther⟩

/-- `service`. -/
structure Service where
  /-- `map_requests`, the queues of requests by the UUID of the project. -/
  requests : Finmap fun _ : String => List Zmsg
  /-- `m_waiting`, pointers to workers. -/
  waiting : List ℕ
  /-- `m_workers`, a `size_t`. -/
  workers : UInt64

/-- The requests for a project, in the order of their queue. -/
def Service.queue (srv : Service) (uuid : String) : List Zmsg := (srv.requests.lookup uuid).getD []

/-- The first request of a queue is taken off, and the queue with it if that was all. -/
def Service.takeRequest (srv : Service) (uuid : String) (rest : List Zmsg) : Service :=
  { srv with requests := if rest = [] then srv.requests.erase uuid else srv.requests.insert uuid rest }

/-- History: a request is put into the queue of a service for a project. -/
structure Queued where
  service : String
  uuid : String
  msg : Zmsg
  deriving DecidableEq, Repr

/-- History: a request is taken from the queue of a service for a project and sent to a worker. -/
structure Dispatched where
  service : String
  uuid : String
  wrk : Worker
  msg : Zmsg
  deriving DecidableEq, Repr

/-- `broker`. -/
structure Broker where
  /-- `m_services` -/
  services : Finmap fun _ : String => Service
  /-- `m_workers`, pointers to workers by identity. -/
  workers : Finmap fun _ : String => ℕ
  /-- `m_waiting`, pointers to workers. -/
  waiting : List ℕ
  /-- `m_heartbeat_at` -/
  heartbeatAt : ℤ
  /-- The workers on the heap. -/
  heap : ℕ → Option Worker
  /-- The pointer the next worker gets. -/
  fresh : ℕ
  /-- What has been sent on `m_socket`. -/
  sent : List Zmsg
  /-- What has been sent on `m_socketpub`. -/
  published : List String
  /-- History: the requests that have been queued. -/
  queued : List Queued
  /-- History: the requests that have been sent to workers. -/
  dispatched : List Dispatched

/-- The broker before the first message. -/
def Broker.initial (heartbeatAt : ℤ) : Broker := ⟨∅, ∅, [], heartbeatAt, fun _ => none, 0, [], [], [], []⟩

/-- What a handler finds outside. -/
structure Readings where
  /-- `s_clock ()` where an expiry is set. -/
  clock : ℤ
  /-- `s_clock ()` in `purge_workers`. -/
  purge : ℤ
  /-- What is in the counter of a new service. -/
  memory : UInt64
  /-- What is in a variable that is not initialised. -/
  iOther : ℤ

/-- `HEARTBEAT_INTERVAL` and `HEARTBEAT_EXPIRY`. -/
def heartbeatInterval : ℤ := 2500
def heartbeatExpiry : ℤ := 7500

/-! ### Protocol -/

def mdpcClient : String := "MDPC01"
def mdpwWorker : String := "MDPW01"

/-- A command is a string of one character. -/
def command (code : ℕ) : String := String.singleton (Char.ofNat code)

def mdpwReady : String := command 1
def mdpwRequest : String := command 2
def mdpwReply : String := command 3
def mdpwHeartbeat : String := command 4
def mdpwDisconnect : String := command 5
def mdpwPublish : String := command 6

def msgVirtualService : String := "GDS.VIRTUAL_SERVICE"
def msgFailure : String := "GDS_FAILURE"

/-- `length () >= 4 && find_first_of ("mmi.") == 0`: the first character is one of those in `mmi.`. -/
def isReserved (name : String) : Bool := 4 ≤ name.length ∧ name.toList.head?.any (· ∈ "mmi.".toList)

/-- A name of more than 32 characters is cut at its first dot into the name of a service and the UUID of a
project; without a dot it is both. -/
def splitService (name : String) : String × String :=
  if name.length ≤ 32 then (name, "")
  else if '.' ∈ name.toList then
    (String.ofList (name.toList.takeWhile fun c => c ≠ '.'),
      String.ofList ((name.toList.dropWhile fun c => c ≠ '.').tail))
  else (name, name)

namespace Broker

/-! ### Access -/

/-- A worker through a pointer. -/
def deref (b : Broker) (p : ℕ) : Except BrokerFault Worker :=
  match b.heap p with
  | some wrk => .ok wrk
  | none => .error .dangling

/-- A service through the pointer of a worker. -/
def serviceOf (b : Broker) (wrk : Worker) : Except BrokerFault (String × Service) :=
  match wrk.service with
  | none => .error .nullService
  | some name =>
    match b.services.lookup name with
    | some srv => .ok (name, srv)
    | none => .error .dangling

def setWorker (b : Broker) (p : ℕ) (wrk : Worker) : Broker := { b with heap := Function.update b.heap p (some wrk) }

def setService (b : Broker) (name : String) (srv : Service) : Broker :=
  { b with services := b.services.insert name srv }

/-- `msg->send (*m_socket)`. -/
def send (b : Broker) (msg : Zmsg) : Broker := { b with sent := b.sent ++ [msg] }

/-- `worker_send`. -/
def workerSend (b : Broker) (wrk : Worker) (command option : String) (msg : Zmsg) : Broker :=
  b.send (Zmsg.wrap (mdpwWorker :: command :: ((if option = "" then [] else [option]) ++ msg)) wrk.identity "")

/-- `client_pub`. -/
def clientPub (b : Broker) (str : String) : Broker := { b with published := b.published ++ [cstr str] }

/-- `service_require`. -/
def serviceRequire (b : Broker) (memory : UInt64) (name : String) : Except BrokerFault Broker :=
  if name = "" then .error .assertion
  else if name ∈ b.services then .ok b
  else .ok (b.setService name ⟨∅, [], memory⟩)

/-- A new worker is registered. -/
def register (b : Broker) (identity : String) (iOther : ℤ) : Broker :=
  { b with
    workers := b.workers.insert identity b.fresh
    heap := Function.update b.heap b.fresh (some (Worker.new identity iOther))
    fresh := b.fresh + 1 }

/-- `worker_require`, with the pointer. -/
def workerRequire (b : Broker) (identity : String) (iOther : ℤ) : Except BrokerFault (ℕ × Broker) :=
  if identity = "" then .error .assertion
  else
    match b.workers.lookup identity with
    | some p => .ok (p, b)
    | none => .ok (b.fresh, b.register identity iOther)

/-- A worker is taken from its service: from the list, and from the count. -/
def detach (b : Broker) (p : ℕ) (wrk : Worker) : Broker :=
  match wrk.service with
  | none => b
  | some name =>
    match b.services.lookup name with
    | none => b
    | some srv => b.setService name
        { srv with waiting := srv.waiting.filter (· ≠ p), workers := srv.workers - 1 }

/-- A worker is forgotten and destroyed. -/
def destroy (b : Broker) (p : ℕ) (wrk : Worker) : Broker :=
  { b with
    waiting := b.waiting.filter (· ≠ p)
    workers := b.workers.erase wrk.identity
    heap := Function.update b.heap p none }

section Handlers

variable (lib : JsonLib) (debug : Bool)

/-- `worker_delete`. -/
def workerDelete (b : Broker) (p : ℕ) (disconnect : Bool) : Except BrokerFault Broker := do
  let wrk ← b.deref p
  let text ← ofJson (CMsg.toString lib ⟨0, .uuid gmtWClosed wrk.identity⟩ 0)
  let b := if disconnect then b.workerSend wrk mdpwDisconnect "" [] else b
  .ok (((b.detach p wrk).clientPub text).destroy p wrk)

/-- The loop of `purge_workers` from an index on. -/
def purgeFrom (now : ℤ) : ℕ → ℕ → Broker → Except BrokerFault Broker
  | 0, _, b => .ok b
  | fuel + 1, i, b =>
    match b.waiting[i]? with
    | none => .ok b
    | some p =>
      match b.deref p with
      | .error e => .error e
      | .ok wrk =>
        if wrk.expiry > now then purgeFrom now fuel (i + 1) b
        else
          match b.workerDelete lib p false with
          | .error e => .error e
          | .ok b => purgeFrom now fuel i b

/-- `purge_workers`: in every turn the index or the list gets nearer to the end. -/
def purgeWorkers (b : Broker) (now : ℤ) : Except BrokerFault Broker := purgeFrom lib now b.waiting.length 0 b

/-! ### Dispatching -/

/-- The loop that reports workers with the same UUID reads every worker that waits. -/
def readIDs (b : Broker) : List ℕ → Except BrokerFault Unit
  | [] => .ok ()
  | p :: rest =>
    match b.deref p with
    | .error e => .error e
    | .ok _ => b.readIDs rest

/-- The innermost loop: `wrk` moves to a later worker with the same UUID that has been seen more recently.
An iterator is a pointer of the list with what follows it. -/
def mostRecent (b : Broker) : ℕ × List ℕ → List ℕ → Except BrokerFault (ℕ × List ℕ)
  | wrk, [] => .ok wrk
  | wrk, p :: next => do
    let current ← b.deref wrk.1
    let other ← b.deref p
    b.mostRecent (if current.uuid = other.uuid ∧ other.expiry > current.expiry then (p, next) else wrk) next

/-- The loop over the workers that wait: it ends at a worker for whose UUID there is a request. It goes on
behind the worker it has moved to. -/
def findRequest (b : Broker) (srv : Service) : ℕ → List ℕ → Except BrokerFault (Option (ℕ × List ℕ))
  | 0, _ => .ok none
  | _ + 1, [] => .ok none
  | fuel + 1, p :: next => do
    let wrk ← b.mostRecent (p, next) next
    let current ← b.deref wrk.1
    if srv.queue current.uuid ≠ [] then .ok (some wrk) else b.findRequest srv fuel wrk.2

/-- A request is sent to a worker; `waiting` are the others of the service that still wait. -/
def handOver (b : Broker) (name : String) (srv : Service) (p : ℕ) (wrk : Worker) (waiting : List ℕ)
    (msg : Zmsg) (rest : List Zmsg) : Broker :=
  { (b.workerSend wrk mdpwRequest "" msg).setService name { srv.takeRequest wrk.uuid rest with waiting } with
    waiting := b.waiting.filter (· ≠ p)
    dispatched := b.dispatched ++ [⟨name, wrk.uuid, wrk, msg⟩] }

/-- The worker that has been found gets the first of its requests. -/
def dispatchTo (b : Broker) (name : String) (srv : Service) (wrk : ℕ × List ℕ) :
    Except BrokerFault Broker := do
  let current ← b.deref wrk.1
  match srv.queue current.uuid with
  | [] => .ok b
  | msg :: rest =>
    let position := srv.waiting.length - wrk.2.length - 1
    .ok (b.handOver name srv wrk.1 current (srv.waiting.eraseIdx position) msg rest)

/-- The outer loop of `service_dispatch`. -/
def dispatchLoop (name : String) : ℕ → Broker → Except BrokerFault Broker
  | 0, b => .ok b
  | fuel + 1, b =>
    match b.services.lookup name with
    | none => .error .dangling
    | some srv =>
      if srv.waiting = [] ∨ srv.requests = ∅ then .ok b
      else do
        b.readIDs srv.waiting
        match ← b.findRequest srv srv.waiting.length srv.waiting with
        | none => .ok b
        | some wrk => do
          let b ← b.dispatchTo name srv wrk
          dispatchLoop name fuel b

/-- A request is put into its queue. -/
def queueRequest (b : Broker) (name : String) (srv : Service) (msg : Zmsg) (strUuid : String) : Broker :=
  { b.setService name { srv with requests := srv.requests.insert strUuid (srv.queue strUuid ++ [msg]) } with
    queued := b.queued ++ [⟨name, strUuid, msg⟩] }

/-- `service_dispatch` without a new request: every turn of the loop takes a worker off the list. -/
def dispatchAll (b : Broker) (now : ℤ) (name : String) : Except BrokerFault Broker := do
  let b ← b.purgeWorkers lib now
  match b.services.lookup name with
  | none => .error .dangling
  | some srv => dispatchLoop name srv.waiting.length b

/-- `service_dispatch`. -/
def serviceDispatch (b : Broker) (now : ℤ) (name : String) (msg : Option Zmsg) (strUuid : String) :
    Except BrokerFault Broker :=
  match b.services.lookup name, msg with
  | none, _ => .error .dangling
  | some _, none => b.dispatchAll lib now name
  | some srv, some msg => (b.queueRequest name srv msg strUuid).dispatchAll lib now name

/-! ### Services of the broker -/

/-- The body of an answer becomes the body of the request, which then goes back to the client. -/
def answer (b : Broker) (serviceName : String) (msg : Zmsg) : Except BrokerFault Broker := do
  let (client, msg) ← Zmsg.unwrap msg
  .ok (b.send (Zmsg.wrap (Zmsg.wrap msg mdpcClient serviceName) client ""))

/-- `service_internal`. -/
def serviceInternal (b : Broker) (serviceName : String) (msg : Zmsg) : Except BrokerFault Broker := do
  let body ← Zmsg.body msg
  if serviceName = "mmi.service" then
    match b.services.lookup body with
    | none => .error .outOfRange
    | some srv => b.answer serviceName (Zmsg.bodySet msg (if srv.workers ≠ 0 then "200" else "404"))
  else b.answer serviceName (Zmsg.bodySet msg "501")

/-- The projects of the workers that are registered under the identities. -/
def projects (b : Broker) : List String → Except BrokerFault (List ProjectInfo)
  | [] => .ok []
  | identity :: rest =>
    match b.workers.lookup identity with
    | none => .error .dangling
    | some p => do
      let wrk ← b.deref p
      let infos ← b.projects rest
      .ok (wrk.projInfo :: infos)

/-- The projects of all workers, in the order of their identities. -/
def allProjects (b : Broker) : Except BrokerFault (List ProjectInfo) := b.projects b.workers.keys.sort

/-- The text of an answer, as `body_set` takes it. -/
def resultText (body : Body) : Except BrokerFault String := do
  let text ← ofJson (CMsg.toString lib ⟨0, body⟩ 0)
  .ok (cstr text)

/-- The body `service_virtual` answers a body with. -/
def virtualBody (b : Broker) (iOther : ℤ) (body : String) : Except BrokerFault String :=
  match lib.parse body with
  | none => .ok body
  | some rootNode => do
    let iType ← ofJson (getNodeType debug rootNode)
    if iType = gmtConnectServer then
      let _ ← ofJson (CMsg.read debug ⟨iOther, .connectInfo "m_strUser" "m_strPassWord"⟩ iOther rootNode)
      resultText lib (.result gmtSuccess "")
    else if iType = gmtServerInfo then
      let infos ← b.allProjects
      resultText lib (.projectList infos)
    else if iType = gmtOpenProject then
      let r ← ofJson (CMsg.read debug ⟨iOther, .uuid iOther ""⟩ iOther rootNode)
      let infos ← b.allProjects
      let strUUID := match r.2.body with
        | .uuid _ strUUID => strUUID
        | _ => ""
      let iMsgType := if strUUID ∈ infos.map ProjectInfo.strUUID then gmtSuccess else gmtFailure
      resultText lib (.result iMsgType "No Project")
    else .ok msgFailure

/-- `service_virtual`. -/
def serviceVirtual (b : Broker) (iOther : ℤ) (serviceName : String) (msg : Zmsg) :
    Except BrokerFault Broker := do
  let body ← Zmsg.body msg
  let body ← b.virtualBody lib debug iOther body
  b.answer serviceName (Zmsg.bodySet msg body)

/-! ### Messages -/

variable (r : Readings)

/-- `client_process`. -/
def clientProcess (b : Broker) (sender : String) (msg : Zmsg) : Except BrokerFault Broker :=
  if msg.length < 2 then .error .assertion
  else do
    let (name, msg) ← Zmsg.popFront msg
    let (serviceName, serviceUuid) := splitService name
    let b ← b.serviceRequire r.memory serviceName
    let msg := Zmsg.wrap msg sender ""
    if serviceName = msgVirtualService then b.serviceVirtual lib debug r.iOther serviceName msg
    else if isReserved serviceName then b.serviceInternal serviceName msg
    else b.serviceDispatch lib r.purge serviceName (some msg) serviceUuid

/-- The worker is seen. -/
def seen (b : Broker) (p : ℕ) (wrk : Worker) (clock : ℤ) : Broker :=
  b.setWorker p { wrk with expiry := clock + heartbeatExpiry }

/-- The worker is put at the end of both lists. -/
def enlist (b : Broker) (p : ℕ) (name : String) (srv : Service) : Broker :=
  { b.setService name { srv with waiting := srv.waiting ++ [p] } with waiting := b.waiting ++ [p] }

/-- `worker_waiting`. -/
def workerWaiting (b : Broker) (p : ℕ) : Except BrokerFault Broker := do
  let wrk ← b.deref p
  let (name, srv) ← b.serviceOf wrk
  ((b.enlist p name srv).seen p wrk r.clock).serviceDispatch lib r.purge name none ""

/-- The project a worker says it serves; if the text is no JSON the worker keeps what it had. -/
def readProject (info : ProjectInfo) (strBody : String) : Except BrokerFault ProjectInfo :=
  match lib.parse strBody with
  | none => .ok info
  | some rootNode => (ofJson (info.read debug r.iOther rootNode)).map Prod.snd

/-- A worker is attached to its service. -/
def attach (b : Broker) (p : ℕ) (wrk : Worker) (info : ProjectInfo) (name : String) (srv : Service) : Broker :=
  (b.setWorker p { wrk with service := some name, projInfo := info }).setService name
    { srv with workers := srv.workers + 1 }

/-- `MDPW_READY`. -/
def workerReady (b : Broker) (sender : String) (known : Bool) (p : ℕ) (msg : Zmsg) : Except BrokerFault Broker :=
  if known ∨ isReserved sender then b.workerDelete lib p true
  else do
    let (serviceName, msg) ← Zmsg.popFront msg
    let strBody ← Zmsg.body msg
    let wrk ← b.deref p
    let info ← readProject lib debug r wrk.projInfo strBody
    let b ← b.serviceRequire r.memory serviceName
    match b.services.lookup serviceName with
    | none => .error .dangling
    | some srv => (b.attach p wrk info serviceName srv).workerWaiting lib r p

/-- `MDPW_REPLY`. -/
def workerReply (b : Broker) (known : Bool) (p : ℕ) (msg : Zmsg) : Except BrokerFault Broker :=
  if known then do
    let (client, msg) ← Zmsg.unwrap msg
    let wrk ← b.deref p
    let (name, _) ← b.serviceOf wrk
    (b.send (Zmsg.wrap (Zmsg.wrap msg mdpcClient name) client "")).workerWaiting lib r p
  else b.workerDelete lib p true

/-- `MDPW_HEARTBEAT`. -/
def workerHeartbeat (b : Broker) (known : Bool) (p : ℕ) : Except BrokerFault Broker :=
  if known then do
    let wrk ← b.deref p
    .ok (b.seen p wrk r.clock)
  else b.workerDelete lib p true

/-- The commands of a worker that is registered, before the message if it is `known`. -/
def workerCommand (b : Broker) (sender : String) (known : Bool) (p : ℕ) (command : String) (msg : Zmsg) :
    Except BrokerFault Broker :=
  if command = mdpwReady then b.workerReady lib debug r sender known p msg
  else if command = mdpwReply then b.workerReply lib r known p msg
  else if command = mdpwPublish then do
    let body ← Zmsg.body msg
    .ok (b.clientPub body)
  else if command = mdpwHeartbeat then b.workerHeartbeat lib r known p
  else if command = mdpwDisconnect then b.workerDelete lib p false
  else .ok b

/-- `worker_process`. -/
def workerProcess (b : Broker) (sender : String) (msg : Zmsg) : Except BrokerFault Broker :=
  match msg with
  | [] => .error .assertion
  | command :: msg => do
    let (p, b') ← b.workerRequire sender r.iOther
    b'.workerCommand lib debug r sender (sender ∈ b.workers) p command msg

/-- The turn of `start_brokering` for a message. -/
def process (b : Broker) (parts : List (List UInt8)) : Except BrokerFault Broker := do
  let (sender, msg) ← Zmsg.popFront (Zmsg.recv parts)
  let (_, msg) ← Zmsg.popFront msg
  let (header, msg) ← Zmsg.popFront msg
  if header = mdpcClient then b.clientProcess lib debug r sender msg
  else if header = mdpwWorker then b.workerProcess lib debug r sender msg
  else .ok b

/-- Send heartbeats to the workers of a list. -/
def sendHeartbeats (b : Broker) : List ℕ → Except BrokerFault Broker
  | [] => .ok b
  | p :: rest =>
    match b.deref p with
    | .error e => .error e
    | .ok wrk => (b.workerSend wrk mdpwHeartbeat "" []).sendHeartbeats rest

/-- The end of a turn of `start_brokering`. -/
def tick (b : Broker) (sclock : ℤ) : Except BrokerFault Broker :=
  if sclock > b.heartbeatAt then do
    let b ← b.purgeWorkers lib r.purge
    let b ← b.sendHeartbeats b.waiting
    .ok { b with heartbeatAt := r.clock + heartbeatInterval }
  else .ok b

end Handlers

end Broker

/-- What happens to the broker. -/
inductive BrokerEvent
  /-- A message arrives, with the identity of the peer as its first part. -/
  | message (parts : List (List UInt8)) (r : Readings)
  /-- A turn ends. -/
  | tick (sclock : ℤ) (r : Readings)

/-- One event. -/
def Broker.step (lib : JsonLib) (debug : Bool) (b : Broker) : BrokerEvent → Except BrokerFault Broker
  | .message parts r => b.process lib debug r parts
  | .tick sclock r => b.tick lib r sclock

end Gds
