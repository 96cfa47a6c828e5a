import Mathlib.Data.Finset.Basic
import ZeroMQ.Pattern.Attached
import ZeroMQ.Pipe.Epochs

/-!
# The session between an engine and its socket

A `session_base_t` holds the pipe to its socket, a second pipe to the handler of authentication requests
and the pipes it has given up, and it talks to at most one engine at a time. The engine pulls frames
from the pipe and pushes frames into it. When the connection is lost, the engine is gone: the session
takes back the unfinished message it was pushing, drops the rest of the message it was pulling, and waits
for another engine or for its own termination.

Pipes are numbered in the order in which they are created. The engine, the owner, the timer and the
sockets at the other ends of the pipes act in any order; `Session.step` is one such act. What the engine
does when it is told that a pipe can be read or written are further acts. Pipes that conflate are not
part of the model.
-/

namespace Zmq

open Foundation

/-- The options of a session. -/
structure SessionOptions where
  /-- The session connects, and connects again. -/
  active : Bool
  /-- `immediate == 1`, over a transport other than `pgm`, `epgm` and `norm`. -/
  immediate : Bool
  /-- The socket is a `ZMQ_SUB` or a `ZMQ_XSUB`. -/
  subscriber : Bool
  rawSock : Bool
  rcvhwm : ℤ
  sndhwm : ℤ
  deriving DecidableEq, Repr

/-- Where an assertion of the session can fail. -/
inductive SessionAssert
  | cleanPipes
  /-- `pull_msg` fails in `clean_pipes`. -/
  | cleanPipesPull
  | pipeTerminated
  | readActivated
  | writeActivated
  | hiccuped
  | zapConnect
  | writeZapMsg
  | processAttach
  | processTerm
  | processTermTimer
  | ownProcessTerm
  | timerEvent
  deriving DecidableEq, Repr

/-- What can go wrong. -/
inductive SessionFault
  | assertFailed (site : SessionAssert)
  /-- `read_activated` dereferences a pipe that is NULL. -/
  | nullPipe
  /-- The loop of `clean_pipes` has taken everything there is and goes on. -/
  | endless
  | pipe (fault : PipeFault)
  deriving DecidableEq, Repr

/-- `session_base_t`, with its pipes and with a record of what has happened to it. -/
structure Session where
  links : Pipes
  /-- The number of the next pipe. -/
  count : ℕ
  /-- Pipe connecting the session to its socket. -/
  pipe : Option ℕ
  /-- Pipe used to exchange messages with the ZAP socket. -/
  zapPipe : Option ℕ
  /-- Pipes that were detached and not terminated yet. -/
  terminatingPipes : Finset ℕ
  /-- The last frame that was pulled announced another one. -/
  incompleteIn : Bool
  /-- The session waits for its pipes before it terminates. -/
  pending : Bool
  engine : Bool
  hasLingerTimer : Bool
  /-- `own_t::terminating`. -/
  terminating : Bool
  /-- The owner has sent its `term` command. -/
  termReceived : Bool
  /-- `pipe_terminated` has closed an engine. -/
  engineClosed : Bool
  /-- What has happened to the messages in the present pipe. -/
  traffic : Traffic

/-- `stream_engine_t::error_reason_t`. -/
inductive EngineErrorReason
  | protocolError
  | connectionError
  | timeoutError
  deriving DecidableEq, Repr

/-- What can happen to a session. -/
inductive SessionAct
  /-- A connecter or a listener attaches an engine. -/
  | processAttach
  | pullMsg
  | pushMsg (flags : MsgFlags) (body : List UInt8)
  | flush
  /-- The engine looks for a ZAP socket, which there may be or not; `recvIdentity` is its option. -/
  | zapConnect (recvIdentity : Option Bool)
  | readZapMsg
  | writeZapMsg (flags : MsgFlags) (body : List UInt8)
  | engineError (reason : EngineErrorReason)
  | processTerm (linger : ℤ)
  | timerEvent
  /-- A command for the end of the session arrives. -/
  | deliver (pipe : ℕ)
  /-- The socket at the other end of a pipe does something with it. -/
  | socket (pipe : ℕ) (act : { a : EndAct // a.OfSocket })

namespace Session

/-! ### Pipes -/

/-- A pipe after something was done with it. -/
def setLink (s : Session) (p : ℕ) (l : Link) : Session := { s with links := Function.update s.links p l }

@[simp] lemma setLink_self (s : Session) (p : ℕ) (l : Link) : (s.setLink p l).links p = l := by
  simp [setLink]

lemma setLink_of_ne (s : Session) {p q : ℕ} (hq : q ≠ p) (l : Link) : (s.setLink p l).links q = s.links q := by
  simp [setLink, hq]

lemma setLink_setLink (s : Session) (p : ℕ) (l l' : Link) : (s.setLink p l).setLink p l' = s.setLink p l' := by
  simp [setLink]

/-- Call an operation of a pipe. -/
def onPipe (s : Session) (p : ℕ) (r : Except PipeFault Link) : Except SessionFault Session :=
  match r with
  | .ok l => .ok (s.setLink p l)
  | .error f => .error (.pipe f)

/-- `pipe_t::check_read`, called for its effect. -/
def checkRead (s : Session) (p : ℕ) : Except SessionFault Session := s.onPipe p ((s.links p).checkRead.map Prod.snd)

/-- A new pair of pipes. -/
def newPair (s : Session) (l : Link) : Session := { s.setLink s.count l with count := s.count + 1 }

/-- A new pair for the socket. The record of the messages begins anew. -/
def newPipe (s : Session) (l : Link) : Session := { s.newPair l with pipe := some s.count, traffic := Traffic.none }

/-- A new pair for the ZAP socket. -/
def newZapPipe (s : Session) (l : Link) : Session := { s.newPair l with zapPipe := some s.count }

/-! ### Calls of the engine -/

/-- A frame was pulled: `incomplete_in` is set from its flags, and the frame is recorded. -/
def tookFrame (s : Session) (m : Msg) : Session := { s with incompleteIn := m.more, traffic := s.traffic.take m }

/-- `session_base_t::pull_msg`. -/
def pullMsg (s : Session) : Except SessionFault (Option Msg × Session) :=
  match s.pipe with
  | none => .ok (none, s)
  | some p =>
    match (s.links p).read with
    | .error f => .error (.pipe f)
    | .ok (none, l) => .ok (none, s.setLink p l)
    | .ok (some m, l) => .ok (some m, (s.setLink p l).tookFrame m)

/-- `session_base_t::push_msg`. -/
def pushMsg (s : Session) (m : Msg) : Except SessionFault Session :=
  match s.pipe with
  | none => .ok s
  | some p => s.onPipe p (((s.links p).write m).map Prod.snd)

/-- `session_base_t::flush`. -/
def flush (s : Session) : Except SessionFault Session :=
  match s.pipe with
  | none => .ok s
  | some p => s.onPipe p (s.links p).flush

/-- The empty identity `zap_connect` sends. -/
def emptyIdentity : Msg := ⟨.data, { MsgFlags.none with identity := true }, []⟩

/-- `session_base_t::zap_connect`. -/
def zapConnect (s : Session) (recvIdentity : Option Bool) : Except SessionFault Session :=
  if s.zapPipe ≠ none then .error (.assertFailed .zapConnect)
  else
    match recvIdentity with
    | none => .ok s
    | some identity =>
      let p := s.count
      let s := s.newZapPipe (Link.pipepair 0 0).setNodelay
      if identity then
        match (s.links p).write emptyIdentity with
        | .error f => .error (.pipe f)
        | .ok (false, _) => .error (.assertFailed .zapConnect)
        | .ok (true, l) => (s.setLink p l).onPipe p l.flush
      else .ok s

/-- `session_base_t::read_zap_msg`. -/
def readZapMsg (s : Session) : Except SessionFault Session :=
  match s.zapPipe with
  | none => .ok s
  | some p => s.onPipe p ((s.links p).read.map Prod.snd)

/-- `session_base_t::write_zap_msg`. -/
def writeZapMsg (s : Session) (m : Msg) : Except SessionFault Session :=
  match s.zapPipe with
  | none => .ok s
  | some p =>
    match (s.links p).write m with
    | .error f => .error (.pipe f)
    | .ok (false, _) => .error (.assertFailed .writeZapMsg)
    | .ok (true, l) => if m.more then .ok (s.setLink p l) else (s.setLink p l).onPipe p l.flush

/-! ### The end of an engine -/

/-- The loop of `clean_pipes`; the number bounds its rounds. -/
def dropIncomplete : ℕ → Session → Except SessionFault Session
  | 0, _ => .error .endless
  | n + 1, s =>
    if s.incompleteIn then
      match s.pullMsg with
      | .error e => .error e
      | .ok (none, _) => .error (.assertFailed .cleanPipesPull)
      | .ok (some _, s) => dropIncomplete n s
    else .ok s

/-- `session_base_t::clean_pipes`. Every round of the loop takes at least one of the items that can be
read. -/
def cleanPipes (s : Session) : Except SessionFault Session :=
  match s.pipe with
  | none => .error (.assertFailed .cleanPipes)
  | some p => do
    let s ← s.onPipe p (s.links p).rollback
    let s ← s.onPipe p (s.links p).flush
    s.dropIncomplete ((s.links p).inQueue.flushed.length + 1)

/-- `session_base_t::reconnect`. The connecter it starts is not part of the session. -/
def reconnect (o : SessionOptions) (s : Session) : Except SessionFault Session :=
  match s.pipe with
  | none => .ok s
  | some p =>
    if o.immediate then do
      let s ← s.onPipe p ((s.links p).hiccup.terminate false)
      return { s with terminatingPipes := insert p s.terminatingPipes, pipe := none }
    else if o.subscriber then .ok (s.setLink p (s.links p).hiccup)
    else .ok s

/-- `check_read` on a pipe that may be NULL. -/
def checkReadOf (s : Session) : Option ℕ → Except SessionFault Session
  | none => .ok s
  | some p => s.checkRead p

/-- `if (pipe) clean_pipes ()`. -/
def cleanPipesIfAny (s : Session) : Except SessionFault Session :=
  if s.pipe = none then .ok s else s.cleanPipes

/-- The switch of `session_base_t::engine_error`. The request to the owner to be terminated changes
nothing here. -/
def switchReason (o : SessionOptions) (s : Session) : EngineErrorReason → Except SessionFault Session
  | .timeoutError | .connectionError => if o.active then s.reconnect o else .ok s
  | .protocolError => .ok s

/-- `session_base_t::engine_error`. -/
def engineError (o : SessionOptions) (s : Session) (reason : EngineErrorReason) :
    Except SessionFault Session := do
  let s := { s with engine := false }
  let s ← s.cleanPipesIfAny
  let s ← s.switchReason o reason
  let s ← s.checkReadOf s.pipe
  s.checkReadOf s.zapPipe

/-! ### Attaching and terminating -/

/-- `own_t::process_term`. -/
def ownProcessTerm (s : Session) : Except SessionFault Session :=
  if s.terminating then .error (.assertFailed .ownProcessTerm) else .ok { s with terminating := true }

/-- The session has no pipe left. -/
def noPipes (s : Session) : Bool := s.pipe = none && s.zapPipe = none && s.terminatingPipes = ∅

/-- `session_base_t::process_attach`. -/
def processAttach (o : SessionOptions) (s : Session) : Except SessionFault Session :=
  let s := if s.pipe = none && !s.terminating then s.newPipe (Link.pipepair o.rcvhwm o.sndhwm) else s
  if s.engine then .error (.assertFailed .processAttach) else .ok { s with engine := true }

/-- The linger timer is set or not. -/
def setLingerTimer (s : Session) (b : Bool) : Session := { s with hasLingerTimer := b }

/-- The part of `session_base_t::process_term` that concerns the pipe to the socket. -/
def lingerPipe (s : Session) (linger : ℤ) : Except SessionFault Session :=
  match s.pipe with
  | none => .ok s
  | some p =>
    if 0 < linger ∧ s.hasLingerTimer then .error (.assertFailed .processTermTimer)
    else do
      let s := s.setLingerTimer (s.hasLingerTimer || decide (0 < linger))
      let s ← s.onPipe p ((s.links p).terminate (linger ≠ 0))
      s.checkRead p

/-- `session_base_t::process_term`. -/
def processTerm (s : Session) (linger : ℤ) : Except SessionFault Session :=
  if s.pending then .error (.assertFailed .processTerm)
  else if s.noPipes then s.ownProcessTerm
  else do
    let s ← { s with pending := true }.lingerPipe linger
    match s.zapPipe with
    | none => return s
    | some z => s.onPipe z ((s.links z).terminate false)

/-- `session_base_t::timer_event`. -/
def timerEvent (s : Session) : Except SessionFault Session :=
  let s := s.setLingerTimer false
  match s.pipe with
  | none => .error (.assertFailed .timerEvent)
  | some p => s.onPipe p ((s.links p).terminate false)

/-! ### Events of the pipes -/

/-- The first part of `session_base_t::pipe_terminated`: the reference to the pipe is dropped. -/
def dropPipe (s : Session) (p : ℕ) : Session :=
  if s.pipe = some p then { s with pipe := none, hasLingerTimer := false }
  else if s.zapPipe = some p then { s with zapPipe := none }
  else { s with terminatingPipes := s.terminatingPipes.erase p }

/-- The session refers to the pipe. -/
def owns (s : Session) (p : ℕ) : Bool := s.pipe = some p || s.zapPipe = some p || p ∈ s.terminatingPipes

/-- `session_base_t::pipe_terminated`. -/
def pipeTerminated (o : SessionOptions) (s : Session) (p : ℕ) : Except SessionFault Session :=
  if !s.owns p then .error (.assertFailed .pipeTerminated)
  else
    let s := s.dropPipe p
    let s := if !s.terminating && o.rawSock then
        { s with engine := false, engineClosed := s.engineClosed || s.engine }
      else s
    if s.pending && s.noPipes then { s with pending := false }.ownProcessTerm else .ok s

/-- `session_base_t::read_activated`. -/
def readActivated (s : Session) (p : ℕ) : Except SessionFault Session :=
  if s.pipe ≠ some p ∧ s.zapPipe ≠ some p then
    if p ∈ s.terminatingPipes then .ok s else .error (.assertFailed .readActivated)
  else if !s.engine then
    match s.pipe with
    | none => .error .nullPipe
    | some q => s.checkRead q
  else .ok s

/-- `session_base_t::write_activated`. -/
def writeActivated (s : Session) (p : ℕ) : Except SessionFault Session :=
  if s.pipe ≠ some p then
    if p ∈ s.terminatingPipes then .ok s else .error (.assertFailed .writeActivated)
  else .ok s

/-- What the session does about an event of a pipe. -/
def react (o : SessionOptions) (s : Session) (p : ℕ) : Option SinkEvent → Except SessionFault Session
  | none => .ok s
  | some .readActivated => s.readActivated p
  | some .writeActivated => s.writeActivated p
  | some .hiccuped => .error (.assertFailed .hiccuped)
  | some .pipeTerminated => s.pipeTerminated o p

/-- One act. Only an engine that is attached calls the session, the owner sends one `term` command,
a timer that is not set does not expire, and nothing happens to pipes that do not exist. -/
def step (o : SessionOptions) (s : Session) : SessionAct → Except SessionFault Session
  | .processAttach => s.processAttach o
  | .pullMsg => if s.engine then s.pullMsg.map Prod.snd else .ok s
  | .pushMsg flags body => if s.engine then s.pushMsg ⟨.data, flags, body⟩ else .ok s
  | .flush => if s.engine then s.flush else .ok s
  | .zapConnect recvIdentity => if s.engine then s.zapConnect recvIdentity else .ok s
  | .readZapMsg => if s.engine then s.readZapMsg else .ok s
  | .writeZapMsg flags body => if s.engine then s.writeZapMsg ⟨.data, flags, body⟩ else .ok s
  | .engineError reason => if s.engine then s.engineError o reason else .ok s
  | .processTerm linger =>
    if s.termReceived then .ok s else { s with termReceived := true }.processTerm linger
  | .timerEvent => if s.hasLingerTimer then s.timerEvent else .ok s
  | .deliver p =>
    if p < s.count then
      match (s.links p).deliver with
      | .error f => .error (.pipe f)
      | .ok (l, e) => (s.setLink p l).react o p e
    else .ok s
  | .socket p a =>
    if p < s.count then
      match (s.links p).swap.act a.1 with
      | .error f => .error (.pipe f)
      | .ok (l, _) => .ok { s.setLink p l.swap with
          traffic := if s.pipe = some p then s.traffic.far (s.links p) a.1 else s.traffic }
    else .ok s

/-- The constructor, followed by `attach_pipe` if the socket has made the pipe already. -/
def new (o : SessionOptions) (attached : Bool) : Session :=
  { links := fun _ => Link.pipepair o.rcvhwm o.sndhwm, count := if attached then 1 else 0,
    pipe := if attached then some 0 else none, zapPipe := none, terminatingPipes := ∅,
    incompleteIn := false, pending := false, engine := false, hasLingerTimer := false,
    terminating := false, termReceived := false, engineClosed := false, traffic := Traffic.none }

/-- A sequence of acts on a new session. -/
def run (o : SessionOptions) (attached : Bool) (acts : List SessionAct) : Except SessionFault Session :=
  runSteps (step o) (new o attached) acts

end Session

end Zmq
