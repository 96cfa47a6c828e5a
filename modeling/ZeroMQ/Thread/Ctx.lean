import ZeroMQ.Engine.Greeting

/-!
# The context

`ctx_t` gives each of its sockets a slot in an array of mailboxes; the number of the slot is the thread id of the
socket. The free slots are in `empty_slots`. The array is made when the first socket is created, and when the context
is being terminated no socket is created any more.

The context also keeps the inproc endpoints, and the connections to endpoints that nobody has bound yet. A socket with
such a connection cannot be deallocated, so `terminate` binds each of their addresses to a `PAIR` socket of its own
before it does anything else. These sockets are created like any others.

Every operation of the application is a step, and so is what `terminate` does between two locks; the reaper and the
sockets themselves take steps in between. An operation on a socket does nothing if the application may not use the
socket, and nothing happens in a context that has been deleted.
-/

namespace Zmq

open Function

variable {A : Type}

/-! ### Options -/

/-- What the poller of the platform says of the number of its descriptors, `-1` for no limit. -/
structure PollerLimit where
  maxFds : ℤ
  valid : maxFds = -1 ∨ 0 < maxFds

/-- `clipped_maxsocket`. -/
def clippedMaxsocket (lim : PollerLimit) (maxRequested : ℤ) : ℤ :=
  if maxRequested ≥ lim.maxFds ∧ lim.maxFds ≠ -1 then lim.maxFds - 1 else maxRequested

/-- The options of a context. -/
inductive CtxOption
  | ioThreads
  | maxSockets
  | threadPriority
  | threadSchedPolicy
  | ipv6
  /-- Any other number. -/
  | unknown
  deriving DecidableEq, Repr

/-- The values of `errno` after an operation of a context. -/
inductive CtxErrno
  | eterm
  | emfile
  | enfile
  | einval
  | eaddrinuse
  | eintr
  | enoent
  deriving DecidableEq, Repr

/-- What must not happen. -/
inductive CtxFault
  /-- The number of slots does not fit an `int`. -/
  | overflow
  /-- `terminate` uses a socket that was not created. -/
  | nullSocket
  /-- `zmq_assert (sockets.empty ())`. -/
  | socketsLeft
  deriving DecidableEq, Repr

/-! ### The state -/

/-- Whose mailbox is in a slot. -/
inductive MailboxOwner
  | term
  | reaper
  | ioThread (i : ℕ)
  | socket (sid : ℕ)
  deriving DecidableEq, Repr

/-- What `slot_sync` protects. A socket is known by the number `max_socket_id` has given it. -/
structure CtxSlots where
  starting : Bool
  slotCount : ℕ
  /-- The number of I/O threads. -/
  ioThreads : ℕ
  slots : ℕ → Option MailboxOwner
  /-- The back of the vector first. -/
  emptySlots : List ℕ
  sockets : List ℕ
  /-- The thread id of a socket. -/
  tid : ℕ → ℕ
  maxSocketId : ℕ

/-- A socket, as far as the context has to do with it. -/
structure CtxSocket where
  type : SocketType
  /-- The application has closed it. -/
  closed : Bool
  /-- The reaper has started to reap it. -/
  reaped : Bool
  /-- The command `stop` was sent to it. -/
  stopped : Bool
  /-- As in `own_t`: this counter has 32 bits, and `processed_seqnum` has 64. -/
  sentSeqnum : ℕ
  processedSeqnum : ℕ
  /-- Commands `bind` and `inproc_connected` in its mailbox. -/
  inFlight : ℕ
  deriving DecidableEq, Repr

/-- What `endpoints_sync` protects, and the sockets. -/
structure CtxInproc (A : Type) where
  socket : ℕ → CtxSocket
  endpoints : List (A × ℕ)
  /-- The connections that wait for a bind, with the sockets that have made them. -/
  pendingConnections : List (A × ℕ)

/-- How far `terminate` is. The addresses are those it has still to look at. -/
inductive Termination (A : Type)
  | idle
  | flushing (rest : List A)
  | created (sid : ℕ) (addr : A) (rest : List A)
  | bound (sid : ℕ) (rest : List A)
  /-- It waits for the reaper. -/
  | waiting
  /-- The context is deleted. -/
  | deleted
  deriving DecidableEq, Repr

/-- `ctx_t`. -/
structure Ctx (A : Type) extends CtxSlots, CtxInproc A where
  terminating : Bool
  maxSockets : ℤ
  ioThreadCount : ℤ
  ipv6 : Bool
  threadPriority : ℤ
  threadSchedPolicy : ℤ
  /-- How often the reaper was told to stop. -/
  reaperStops : ℕ
  termination : Termination A

/-- A socket that has just been made. -/
def CtxSocket.new (type : SocketType) : CtxSocket :=
  { type := type, closed := false, reaped := false, stopped := false, sentSeqnum := 0, processedSeqnum := 0,
    inFlight := 0 }

/-- `inc_seqnum`: a command is announced. -/
def CtxSocket.incSeqnum (s : CtxSocket) : CtxSocket := { s with sentSeqnum := (s.sentSeqnum + 1) % 2 ^ 32 }

/-- `process_seqnum`: a command that was announced is processed. -/
def CtxSocket.processSeqnum (s : CtxSocket) : CtxSocket := { s with processedSeqnum := s.processedSeqnum + 1 }

/-- A command that was announced is sent. -/
def CtxSocket.send (s : CtxSocket) : CtxSocket := { s with inFlight := s.inFlight + 1 }

/-- The constructor of `ctx_t`. -/
def Ctx.new (lim : PollerLimit) : Ctx A :=
  { starting := true, slotCount := 0, ioThreads := 0, slots := fun _ => none, emptySlots := [], sockets := [],
    tid := fun _ => 0, maxSocketId := 0, socket := fun _ => .new .pair, endpoints := [], pendingConnections := [],
    terminating := false, maxSockets := clippedMaxsocket lim 1023, ioThreadCount := 1, ipv6 := false,
    threadPriority := -1, threadSchedPolicy := -1, reaperStops := 0, termination := .idle }

namespace CtxSlots

/-- The thread ids there are for sockets. -/
def socketTids (s : CtxSlots) : List ℕ := List.range' (s.ioThreads + 2) (s.slotCount - (s.ioThreads + 2))

/-- The part of `create_socket` that starts the reaper and the I/O threads and makes the array of mailboxes. -/
def start (s : CtxSlots) (maxSockets ioThreadCount : ℤ) : Except CtxFault CtxSlots :=
  if maxSockets + ioThreadCount + 2 < 2 ^ 31 then
    let ios := ioThreadCount.toNat
    let slotCount := (maxSockets + ioThreadCount + 2).toNat
    .ok { s with
      starting := false
      slotCount := slotCount
      ioThreads := ios
      slots := fun tid =>
        if tid = 0 then some .term else if tid = 1 then some .reaper else
        if tid < ios + 2 then some (.ioThread (tid - 2)) else none
      emptySlots := List.range' (ios + 2) (slotCount - (ios + 2)) }
  else .error .overflow

/-- The socket gets the slot. -/
def take (s : CtxSlots) (slot : ℕ) (rest : List ℕ) (sid : ℕ) : CtxSlots :=
  { s with
    emptySlots := rest
    maxSocketId := sid
    sockets := s.sockets ++ [sid]
    tid := update s.tid sid slot
    slots := update s.slots slot (some (.socket sid)) }

/-- The socket gives its slot back and is taken from the list of sockets. -/
def release (s : CtxSlots) (sid : ℕ) : CtxSlots :=
  { s with
    emptySlots := s.tid sid :: s.emptySlots
    slots := update s.slots (s.tid sid) none
    sockets := s.sockets.erase sid }

end CtxSlots

/-! ### Endpoints -/

namespace CtxInproc

/-- A socket changes. -/
def modify (i : CtxInproc A) (sid : ℕ) (f : CtxSocket → CtxSocket) : CtxInproc A :=
  { i with socket := update i.socket sid (f (i.socket sid)) }

/-- `connect_inproc_sockets` for the side of the bind: the command `bind` is processed at once. -/
def connectInprocBindSide (i : CtxInproc A) (bindSocket connectSocket : ℕ) : CtxInproc A :=
  ((i.modify bindSocket .incSeqnum).modify bindSocket .processSeqnum).modify connectSocket .send

/-- `connect_inproc_sockets` for the side of the connect: the command `bind` is sent. -/
def connectInprocConnectSide (i : CtxInproc A) (bindSocket : ℕ) : CtxInproc A :=
  (i.modify bindSocket .incSeqnum).modify bindSocket .send

/-- `unregister_endpoints`. -/
def unregisterEndpoints (i : CtxInproc A) (sid : ℕ) : CtxInproc A :=
  { i with endpoints := i.endpoints.filter fun e => e.2 ≠ sid }

/-- `socket_base_t::close`. -/
def close (i : CtxInproc A) (sid : ℕ) : CtxInproc A := i.modify sid fun s => { s with closed := true }

/-- `socket_base_t::start_reaping`: `process_term` unregisters the endpoints. -/
def startReaping (i : CtxInproc A) (sid : ℕ) : CtxInproc A :=
  (i.unregisterEndpoints sid).modify sid fun s => { s with reaped := true }

/-- `process_commands`, as far as `process_seqnum` goes. -/
def processCommands (i : CtxInproc A) (sid : ℕ) : CtxInproc A :=
  i.modify sid fun s => { s with processedSeqnum := s.processedSeqnum + s.inFlight, inFlight := 0 }

variable [DecidableEq A]

/-- `unregister_endpoint`. -/
def unregisterEndpoint (i : CtxInproc A) (addr : A) (sid : ℕ) : CtxInproc A × Option CtxErrno :=
  if i.endpoints.lookup addr = some sid then ({ i with endpoints := i.endpoints.filter fun e => e.1 ≠ addr }, none)
  else (i, some .enoent)

/-- `pend_connection`. -/
def pendConnection (i : CtxInproc A) (addr : A) (sid : ℕ) : CtxInproc A :=
  match i.endpoints.lookup addr with
  | none => { i.modify sid .incSeqnum with pendingConnections := i.pendingConnections ++ [(addr, sid)] }
  | some peer => i.connectInprocConnectSide peer

/-- `connect_pending`. -/
def connectPending (i : CtxInproc A) (addr : A) (bindSocket : ℕ) : CtxInproc A :=
  let pending := i.pendingConnections.filter fun p => p.1 = addr
  let i := pending.foldl (fun i p => i.connectInprocBindSide bindSocket p.2) i
  { i with pendingConnections := i.pendingConnections.filter fun p => p.1 ≠ addr }

/-- `socket_base_t::bind` to an inproc address. A socket that was sent `stop` finds the command if it has not yet,
and then says `ETERM`; processing its commands may be interrupted. -/
def bind (i : CtxInproc A) (sid : ℕ) (addr : A) (interrupted : Bool) : CtxInproc A × Option CtxErrno :=
  if (i.socket sid).stopped then (i, some .eterm)
  else if interrupted then (i, some .eintr)
  else
    let i := i.processCommands sid
    match i.endpoints.lookup addr with
    | some _ => (i, some .eaddrinuse)
    | none => ({ i with endpoints := (addr, sid) :: i.endpoints }.connectPending addr sid, none)

/-- `socket_base_t::connect` to an inproc address. -/
def connect (i : CtxInproc A) (sid : ℕ) (addr : A) (interrupted : Bool) : CtxInproc A × Option CtxErrno :=
  if (i.socket sid).stopped then (i, some .eterm)
  else if interrupted then (i, some .eintr)
  else
    let i := i.processCommands sid
    match i.endpoints.lookup addr with
    | some peer => (i.connectInprocConnectSide peer, none)
    | none => (i.pendConnection addr sid, none)

end CtxInproc

/-! ### Operations -/

/-- What becomes of the file descriptor of a new mailbox. -/
inductive MailboxFd
  | opened
  /-- The process has too many descriptors. -/
  | emfile
  /-- The system has too many descriptors. -/
  | enfile
  deriving DecidableEq, Repr

/-- `socket_base_t::create`; the type is none if the number is not that of a type. -/
def createSocketBase (type : Option SocketType) (fd : MailboxFd) : Except CtxErrno SocketType :=
  match type, fd with
  | none, _ => .error .einval
  | some type, .opened => .ok type
  | some _, .emfile => .error .emfile
  | some _, .enfile => .error .enfile

namespace Ctx

/-- `ctx_t::set`. -/
def set (lim : PollerLimit) (s : Ctx A) (option : CtxOption) (optval : ℤ) : Except CtxErrno (Ctx A) :=
  if option = .maxSockets ∧ 1 ≤ optval ∧ optval = clippedMaxsocket lim optval then
    .ok { s with maxSockets := optval }
  else if option = .ioThreads ∧ 0 ≤ optval then .ok { s with ioThreadCount := optval }
  else if option = .ipv6 ∧ 0 ≤ optval then .ok { s with ipv6 := decide (optval ≠ 0) }
  else if option = .threadPriority ∧ 0 ≤ optval then .ok { s with threadPriority := optval }
  else if option = .threadSchedPolicy ∧ 0 ≤ optval then .ok { s with threadSchedPolicy := optval }
  else .error .einval

/-- The first part of `create_socket`. -/
def wake (s : Ctx A) : Except CtxFault (Ctx A) :=
  if s.starting then
    match s.start s.maxSockets s.ioThreadCount with
    | .ok slots => .ok { s with toCtxSlots := slots }
    | .error e => .error e
  else .ok s

/-- `create_socket`. The result is the socket, or `errno` if it is `NULL`. -/
def createSocket (s : Ctx A) (type : Option SocketType) (fd : MailboxFd) :
    Except CtxFault (Ctx A × Except CtxErrno ℕ) :=
  match s.wake with
  | .error e => .error e
  | .ok s =>
    if s.terminating then .ok (s, .error .eterm)
    else
      match s.emptySlots with
      | [] => .ok (s, .error .emfile)
      | slot :: rest =>
        let sid := s.maxSocketId + 1
        match createSocketBase type fd with
        -- the slot is pushed back
        | .error e => .ok ({ s with maxSocketId := sid }, .error e)
        | .ok type =>
          .ok ({ s with
            toCtxSlots := s.take slot rest sid
            socket := update s.socket sid (.new type) }, .ok sid)

/-- `destroy_socket`. -/
def destroySocket (s : Ctx A) (sid : ℕ) : Ctx A :=
  let s := { s with toCtxSlots := s.release sid }
  if s.terminating ∧ s.sockets = [] then { s with reaperStops := s.reaperStops + 1 } else s

/-- The sockets are sent `stop`; if there are none, the reaper is. -/
def stopSockets (s : Ctx A) : Ctx A :=
  let s := { s with
    socket := fun sid => if sid ∈ s.sockets then { s.socket sid with stopped := true } else s.socket sid }
  if s.sockets = [] then { s with reaperStops := s.reaperStops + 1 } else s

/-- `shutdown`. -/
def shutdown (s : Ctx A) : Ctx A :=
  if s.starting = false ∧ s.terminating = false then { s with terminating := true }.stopSockets else s

/-- The destructor of `ctx_t`. -/
def delete (s : Ctx A) : Except CtxFault (Ctx A) :=
  if s.sockets = [] then .ok { s with termination := .deleted } else .error .socketsLeft

/-- The part of `terminate` behind the loop, up to where it waits. -/
def stop (s : Ctx A) : Except CtxFault (Ctx A) :=
  if s.starting then s.delete
  else
    let restarted := s.terminating
    let s := { s with terminating := true }
    let s := if restarted then s else s.stopSockets
    .ok { s with termination := .waiting }

/-- The end of `terminate`. The reaper answers when it was told to stop and has no sockets left; a signal may come
before. -/
def receiveDone (s : Ctx A) (interrupted : Bool) : Except CtxFault (Ctx A) :=
  if interrupted then .ok { s with termination := .idle }
  else if s.reaperStops = 0 then .ok s
  else s.delete

/-- The socket of `terminate` that is neither closed nor `NULL`. -/
def temporary (s : Ctx A) : Option ℕ :=
  match s.termination with
  | .created sid _ _ | .bound sid _ => some sid
  | _ => none

/-- The application may use the socket. -/
def Usable (s : Ctx A) (sid : ℕ) : Prop := sid ∈ s.sockets ∧ (s.socket sid).closed = false ∧ s.temporary ≠ some sid

instance (s : Ctx A) (sid : ℕ) : Decidable (s.Usable sid) :=
  inferInstanceAs (Decidable (_ ∧ _ ∧ _))

/-- What an operation on endpoints leaves, whether it fails or not. -/
def onInproc (s : Ctx A) (r : CtxInproc A × Option CtxErrno) : Ctx A := { s with toCtxInproc := r.1 }

variable [DecidableEq A]

/-- `terminate` goes on. -/
def proceed (s : Ctx A) (fd : MailboxFd) (interrupted : Bool) : Except CtxFault (Ctx A) :=
  match s.termination with
  | .idle | .deleted => .ok s
  | .flushing [] => s.stop
  | .flushing (addr :: rest) =>
    match s.createSocket (some .pair) fd with
    | .error e => .error e
    -- the result is used without a look at it
    | .ok (_, .error _) => .error .nullSocket
    | .ok (s, .ok sid) => .ok { s with termination := .created sid addr rest }
  | .created sid addr rest =>
    let s := s.onInproc (s.bind sid addr interrupted)
    .ok { s with termination := .bound sid rest }
  | .bound sid rest =>
    .ok { s with toCtxInproc := s.close sid, termination := .flushing rest }
  | .waiting => s.receiveDone interrupted

/-- A step of the application, of `terminate`, of the reaper, or of a socket. -/
inductive Act (A : Type)
  | set (option : CtxOption) (optval : ℤ)
  | createSocket (type : Option SocketType) (fd : MailboxFd)
  | bind (sid : ℕ) (addr : A) (interrupted : Bool)
  | unbind (sid : ℕ) (addr : A)
  | connect (sid : ℕ) (addr : A) (interrupted : Bool)
  | close (sid : ℕ)
  | shutdown
  /-- A call of `terminate`. -/
  | terminate
  | proceed (fd : MailboxFd) (interrupted : Bool)
  /-- The socket processes the commands it has got. -/
  | processCommands (sid : ℕ)
  /-- The reaper starts to reap a socket that was closed. -/
  | reap (sid : ℕ)
  /-- A socket that was reaped is deallocated, after as many commands as were announced. -/
  | destroySocket (sid : ℕ)
  deriving DecidableEq, Repr

/-- One step. -/
def step (lim : PollerLimit) (s : Ctx A) (a : Act A) : Except CtxFault (Ctx A) :=
  if s.termination = .deleted then .ok s
  else
    match a with
    | .set option optval =>
      match s.set lim option optval with
      | .ok s' => .ok s'
      | .error _ => .ok s
    | .createSocket type fd =>
      match s.createSocket type fd with
      | .ok (s', _) => .ok s'
      | .error e => .error e
    | .bind sid addr interrupted =>
      .ok (if s.Usable sid then s.onInproc (s.bind sid addr interrupted) else s)
    | .unbind sid addr => .ok (if s.Usable sid then s.onInproc (s.unregisterEndpoint addr sid) else s)
    | .connect sid addr interrupted =>
      .ok (if s.Usable sid then s.onInproc (s.connect sid addr interrupted) else s)
    | .close sid =>
      .ok (if s.Usable sid then { s with toCtxInproc := s.close sid } else s)
    | .shutdown => .ok s.shutdown
    | .terminate =>
      .ok (if s.termination = .idle then
        { s with termination := .flushing (s.pendingConnections.map Prod.fst) } else s)
    | .proceed fd interrupted => s.proceed fd interrupted
    | .processCommands sid =>
      .ok (if sid ∈ s.sockets then { s with toCtxInproc := s.processCommands sid } else s)
    | .reap sid =>
      .ok (if sid ∈ s.sockets ∧ (s.socket sid).closed = true ∧ (s.socket sid).reaped = false then
        { s with toCtxInproc := s.startReaping sid } else s)
    | .destroySocket sid =>
      .ok (if sid ∈ s.sockets ∧ (s.socket sid).reaped = true ∧
          (s.socket sid).sentSeqnum = (s.socket sid).processedSeqnum then s.destroySocket sid else s)

end Ctx

end Zmq
