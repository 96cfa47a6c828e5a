import Mathlib.Algebra.Ring.Nat
import ZeroMQ.Filemq.Patch

/-!
# The FileMQ server

The server has a state machine for every client. A machine executes an event, and then the event that the
actions have set as the next one, until there is none. When there is credit and there are patches, the machine
is in the dispatching state and sends a chunk of a file, or tells of a deleted file, with every event.

All machines compose their messages in one message structure. What a machine sends is what is in the structure
at that time, and only the fields that an action sets are its own. The fields of the structure that no message
of the server to a client has (the path, the options and the cache of a subscription) are left out.
-/

namespace Filemq

open Czmq

/-! ### Messages -/

/-- `CHUNK_SIZE`. -/
def chunkSize : ℕ := 1000000

/-- `FMQ_MSG_FILE_CREATE`. -/
def fileCreate : UInt8 := 1

/-- `FMQ_MSG_FILE_DELETE`. -/
def fileDelete : UInt8 := 2

/-- The fields of a `CHEEZBURGER`. -/
structure Cheezburger where
  sequence : ℕ
  operation : UInt8
  filename : Option CString
  offset : ℕ
  eof : Bool
  /-- No chunk is sent as an empty one. -/
  chunk : List UInt8
  deriving DecidableEq

/-- `fmq_msg_t` of the server. -/
structure FmqMsg extends Cheezburger where
  credit : ℕ
  deriving DecidableEq

/-- `fmq_msg_new`. -/
def FmqMsg.new : FmqMsg := ⟨⟨0, 0, none, 0, false, []⟩, 0⟩

/-- What a client sends. -/
inductive Request
  | ohai
  | icanhaz
  | nom (credit : UInt64) (sequence : UInt64)
  | hugz
  | kthxbai
  /-- Any other message: its fields are in the structure when it has been received. -/
  | other (message : FmqMsg)
  deriving DecidableEq

/-- What the server sends. -/
inductive Reply
  | ohaiOk
  | icanhazOk
  | cheezburger (fields : Cheezburger)
  | hugzOk
  | rtfm
  deriving DecidableEq

/-- The fields of a message with a chunk. -/
def Reply.fields? : Reply → Option Cheezburger
  | .cheezburger fields => some fields
  | _ => none

/-! ### State -/

/-- `state_t`, with a machine that is gone; no action leads to the state `defaults`. -/
inductive ServerState
  | start
  | ready
  | dispatching
  | terminated
  deriving DecidableEq, Repr

/-- `event_t`. -/
inductive ServerEvent
  | terminate
  | ohai
  | icanhaz
  | nom
  | dispatch
  | hugz
  | kthxbai
  | sendChunk
  | nextPatch
  | noCredit
  | finished
  | expired
  deriving DecidableEq, Repr

/-- The files of the server that can be read, by name. -/
abbrev Disk := CString → Option (List UInt8)

/-- `s_client_t` with `client_t`, and the message structure. -/
structure Session where
  state : ServerState
  nextEvent : Option ServerEvent
  credit : ℕ
  patches : List ZdirPatch
  patch : Option ZdirPatch
  /-- `file`: what is in the file that is open. -/
  file : Option (List UInt8)
  offset : ℕ
  sequence : ℕ
  message : FmqMsg
  /-- What has been sent to the client. -/
  sent : List Reply
  /-- The patches that have been taken from the list, with what was in their files. -/
  taken : List (ZdirPatch × Option (List UInt8))
  /-- The credit that has been received. -/
  granted : ℕ

/-- `s_client_new`. -/
def Session.new : Session := ⟨.start, none, 0, [], none, none, 0, 0, .new, [], [], 0⟩

namespace Session

/-- The messages with chunks that have been sent. -/
def cheezburgers (s : Session) : List Cheezburger := s.sent.filterMap Reply.fields?

/-! ### Actions -/

/-- `engine_set_next_event`. -/
def setNext (s : Session) (event : ServerEvent) : Session := { s with nextEvent := some event }

/-- `fmq_msg_send`. -/
def reply (s : Session) (r : Reply) : Session := { s with sent := s.sent ++ [r] }

/-- `send CHEEZBURGER`. -/
def sendCheezburger (s : Session) : Session := s.reply (.cheezburger s.message.toCheezburger)

/-- `store_client_credit`. -/
def storeClientCredit (s : Session) : Session :=
  { s with credit := (s.credit + s.message.credit) % 2 ^ 64, granted := s.granted + s.message.credit }

/-- `check_for_client_data`. -/
def checkForClientData (s : Session) : Session :=
  if s.credit = 0 then s.setNext .noCredit
  else if s.patches = [] ∧ s.patch = none then s.setNext .finished
  else s.setNext .sendChunk

/-- The last part of `get_next_patch_for_client`: the next chunk of the open file, which is the end of the file
if it is empty. -/
def nextChunk (s : Session) (contents : List UInt8) : Session :=
  let chunk := (contents.drop s.offset).take chunkSize
  if chunk.length ≤ s.credit then
    { s with
      message := { s.message with
        sequence := s.sequence
        operation := fileCreate
        offset := s.offset
        eof := chunk.isEmpty
        chunk := chunk }
      sequence := s.sequence + 1
      offset := s.offset + chunk.length
      credit := s.credit - chunk.length
      file := if chunk.isEmpty then none else some contents
      patch := if chunk.isEmpty then none else s.patch }
  else s.setNext .noCredit

/-- The branch of `get_next_patch_for_client` for a delete patch. -/
def nextDelete (s : Session) (patch : ZdirPatch) : Session :=
  { s with
    message := { s.message with sequence := s.sequence, operation := fileDelete, eof := false }
    sequence := s.sequence + 1
    patch := none
    taken := s.taken ++ [(patch, none)] }

/-- The branch of `get_next_patch_for_client` for a create patch. -/
def nextCreate (disk : Disk) (s : Session) (patch : ZdirPatch) : Session :=
  match s.file with
  | some contents => s.nextChunk contents
  | none =>
    match disk patch.file with
    | some contents =>
      { s with file := some contents, offset := 0, taken := s.taken ++ [(patch, some contents)] }.nextChunk contents
    | none => { s with patch := none, taken := s.taken ++ [(patch, none)] }.setNext .nextPatch

/-- The first part of `get_next_patch_for_client`: a patch is taken from the list if there is no current one. -/
def popPatch (s : Session) : Session :=
  match s.patch, s.patches with
  | none, patch :: patches => { s with patch := some patch, patches }
  | _, _ => s

/-- `get_next_patch_for_client`. -/
def getNextPatchForClient (disk : Disk) (s : Session) : Session :=
  let s := s.popPatch
  match s.patch with
  | none => s.setNext .finished
  | some patch =>
    let s := { s with message := { s.message with filename := some patch.vpath } }
    match patch.op with
    | .delete => s.nextDelete patch
    | .create => s.nextCreate disk patch

/-- The actions on an event, and the next state; `store_client_subscription` changes a mount, and not the
session. -/
def act (disk : Disk) (s : Session) : ServerEvent → Session
  | .ohai =>
    match s.state with
    | .start | .ready | .dispatching => { s.reply .ohaiOk with state := .ready }
    | .terminated => s
  | .icanhaz =>
    match s.state with
    | .ready => { (s.reply .icanhazOk).checkForClientData with state := .dispatching }
    | .start | .dispatching => (s.reply .rtfm).setNext .terminate
    | .terminated => s
  | .nom =>
    match s.state with
    | .ready | .dispatching => { s.storeClientCredit.checkForClientData with state := .dispatching }
    | .start => (s.reply .rtfm).setNext .terminate
    | .terminated => s
  | .dispatch =>
    match s.state with
    | .ready => { s.checkForClientData with state := .dispatching }
    | .start | .dispatching => (s.reply .rtfm).setNext .terminate
    | .terminated => s
  | .hugz =>
    match s.state with
    | .ready | .dispatching => s.reply .hugzOk
    | .start => (s.reply .rtfm).setNext .terminate
    | .terminated => s
  | .kthxbai =>
    match s.state with
    | .ready | .dispatching => s.setNext .terminate
    | .start => (s.reply .rtfm).setNext .terminate
    | .terminated => s
  | .expired =>
    match s.state with
    | .start | .ready | .dispatching => s.setNext .terminate
    | .terminated => s
  | .sendChunk | .nextPatch =>
    match s.state with
    | .dispatching => (s.getNextPatchForClient disk).sendCheezburger.checkForClientData
    | .start | .ready => (s.reply .rtfm).setNext .terminate
    | .terminated => s
  | .noCredit | .finished =>
    match s.state with
    | .dispatching => { s with state := .ready }
    | .start | .ready => (s.reply .rtfm).setNext .terminate
    | .terminated => s
  | .terminate =>
    match s.state with
    | .start | .ready | .dispatching => (s.reply .rtfm).setNext .terminate
    | .terminated => s

/-- `s_client_execute`: `fuel` bounds the number of events. -/
def execute (disk : Disk) : ℕ → Session → ServerEvent → Option Session
  | 0, _, _ => none
  | fuel + 1, s, event =>
    let s := { s with nextEvent := none }.act disk event
    match s.nextEvent with
    | none => some s
    | some .terminate => some { s with state := .terminated }
    | some event => execute disk fuel s event

/-- `fmq_msg_recv`: the fields of the message structure that a request has. -/
def receive (s : Session) : Request → Session
  | .nom credit sequence =>
    { s with message := { s.message with credit := credit.toNat, sequence := sequence.toNat } }
  | .other message => { s with message }
  | .ohai | .icanhaz | .hugz | .kthxbai => s

end Session

/-- `s_protocol_event`. -/
def Request.event : Request → ServerEvent
  | .ohai => .ohai
  | .icanhaz => .icanhaz
  | .nom _ _ => .nom
  | .hugz => .hugz
  | .kthxbai => .kthxbai
  | .other _ => .terminate

/-! ### Runs -/

namespace Session

/-- A bound on the number of events of a dispatching loop that ends. -/
def fuel (disk : Disk) (s : Session) : ℕ :=
  (s.file.elim 0 fun contents => contents.length + 1) +
    (s.patches.map fun patch => ((disk patch.file).elim 0 List.length) + 2).sum + 2

/-- What happens to a session. -/
inductive Input
  /-- A message of the client arrives. -/
  | request (r : Request) (disk : Disk)
  /-- There has been activity in a mount. -/
  | dispatch (disk : Disk)
  /-- The client has not sent anything for some time. -/
  | expire
  /-- A refresh changes the list of patches. -/
  | refresh (patches : List ZdirPatch)
  /-- The message structure is used for another client. -/
  | other (message : FmqMsg)

/-- A loop that does not end. -/
inductive ServerFault
  | endless
  deriving DecidableEq, Repr

/-- An event is executed. -/
def handle (disk : Disk) (s : Session) (event : ServerEvent) : Except ServerFault Session :=
  match s.execute disk (s.fuel disk) event with
  | some s' => .ok s'
  | none => .error .endless

/-- One step. -/
def step (s : Session) : Input → Except ServerFault Session
  | .request r disk => (s.receive r).handle disk r.event
  | .dispatch disk => s.handle disk .dispatch
  | .expire => s.handle (fun _ => none) .expired
  | .refresh patches => .ok { s with patches }
  | .other message => .ok { s with message }

end Session

end Filemq
