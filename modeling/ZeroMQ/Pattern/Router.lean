import Mathlib.Data.Finset.Basic
import Mathlib.Data.List.AList
import ZeroMQ.Codec.Wire
import ZeroMQ.Pattern.Dealer

/-!
# ROUTER

`router_t` puts the identity of the peer in front of every message it receives and takes it from the
front of every message it sends, to find the pipe the message goes to. The identity of a peer is chosen
by the application for its next connection (`connect_rid`), or by the peer, whose first message it is,
or made up by the socket if the peer does not choose one.

A pipe whose peer is not identified yet is in `anonymous_pipes`; the others are in the table `outpipes`
and in the fair queue. The fair queue with all the pipes is an `FqSystem`, which also records what was
received. A loop that skips messages ends when the fair queue has no more frames; the functions below
take the number of rounds after which it is left unfinished.
-/

namespace Zmq

open Foundation Function

/-- A `blob_t` with the identity of a peer. -/
abbrev Identity := List UInt8

/-- `outpipe_t`. -/
structure Outpipe where
  pipe : ℕ
  active : Bool
  deriving DecidableEq, Repr

/-- What can go wrong in a ROUTER socket. -/
inductive RouterFault
  | fq (fault : PatternFault)
  /-- `zmq_assert (ok)`: an identity is inserted into `outpipes` that is already there. -/
  | insertFailed
  /-- `zmq_assert (false)`: the application has chosen an identity that is in use. -/
  | duplicateRid
  /-- Another assertion fails. -/
  | assertFailed
  /-- A loop has not come to its end. -/
  | running
  deriving DecidableEq, Repr

/-- What `xsend` reports when it fails. -/
inductive RouterErrno
  | eagain
  | ehostunreach
  deriving DecidableEq, Repr

/-- `router_t`. -/
structure Router where
  /-- `fq` and the pipes. -/
  inp : FqSystem
  /-- `pipe_t::identity` of every pipe. -/
  identities : ℕ → Identity
  anonymousPipes : Finset ℕ
  outpipes : AList fun _ : Identity => Outpipe
  currentOut : Option ℕ
  moreOut : Bool
  nextRid : UInt32
  connectRid : List UInt8
  mandatory : Bool
  rawSock : Bool
  /-- `options.raw_sock`, which is never reset. -/
  optionsRawSock : Bool
  probeRouter : Bool
  handover : Bool
  prefetched : Bool
  identitySent : Bool
  moreIn : Bool
  prefetchedId : Msg
  prefetchedMsg : Msg
  /-- The frames `xrecv` has returned. -/
  returned : List Msg

namespace Router

/-- The constructor of `router_t`; the first identity it makes up is random. -/
def new (nextRid : UInt32) : Router where
  inp := FqSystem.new
  identities := fun _ => []
  anonymousPipes := ∅
  outpipes := ∅
  currentOut := none
  moreOut := false
  nextRid := nextRid
  connectRid := []
  mandatory := false
  rawSock := false
  optionsRawSock := false
  probeRouter := false
  handover := false
  prefetched := false
  identitySent := false
  moreIn := false
  prefetchedId := Dealer.probeMsg
  prefetchedMsg := Dealer.probeMsg
  returned := []

/-- Something happens to a pipe. -/
def setLink (p : ℕ) (l : Link) (s : Router) : Router :=
  { s with inp := { s.inp with links := update s.inp.links p l } }

/-- `pipe->terminate (delay)`. -/
def terminatePipe (p : ℕ) (delay : Bool) (s : Router) : Except RouterFault Router :=
  match (s.inp.links p).terminate delay with
  | .error e => .error (.fq (.pipe e))
  | .ok l => .ok (s.setLink p l)

/-! ### Identities -/

/-- The identity the socket makes up with a number. -/
def autoIdentity (rid : UInt32) : Identity := 0 :: putUint32 rid.toNat

/-- `outpipes.insert` and `zmq_assert (ok)`. -/
def insertOutpipe (id : Identity) (o : Outpipe) (s : Router) : Except RouterFault Router :=
  if (s.outpipes.lookup id).isSome then .error .insertFailed
  else .ok { s with outpipes := s.outpipes.insert id o }

/-- The end of `identify_peer`. -/
def register (p : ℕ) (id : Identity) (s : Router) : Except RouterFault Router :=
  { s with identities := update s.identities p id }.insertOutpipe id ⟨p, true⟩

/-- `identify_peer` for a peer whose identity is made up. -/
def registerAuto (p : ℕ) (s : Router) : Except RouterFault Router :=
  { s with nextRid := s.nextRid + 1 }.register p (autoIdentity s.nextRid)

/-- The pipe that has the identity gets one that is made up, and is terminated. -/
def handOver (id : Identity) (old : Outpipe) (s : Router) : Except RouterFault Router :=
  let newId := autoIdentity s.nextRid
  match { s with nextRid := s.nextRid + 1
                 identities := update s.identities old.pipe newId }.insertOutpipe newId old with
  | .error f => .error f
  | .ok s => { s with outpipes := s.outpipes.erase id }.terminatePipe old.pipe true

/-- A frame was read to identify the peer. What the peer has published counts from here. -/
def identityRead (p : ℕ) (m : Msg) (l : Link) (s : Router) : Router :=
  { s with inp := { s.inp with
      links := update s.inp.links p l
      published := if m.more then s.inp.published else
        update s.inp.published p ((s.inp.published p).drop 1) } }

/-- `identify_peer`: whether the peer is identified. -/
def identifyPeer (p : ℕ) (s : Router) : Except RouterFault (Bool × Router) :=
  if s.connectRid ≠ [] then
    if (s.outpipes.lookup s.connectRid).isSome then .error .duplicateRid
    else ({ s with connectRid := [] }.register p s.connectRid).map (true, ·)
  else if s.optionsRawSock then (s.registerAuto p).map (true, ·)
  else
    match (s.inp.links p).read with
    | .error e => .error (.fq (.pipe e))
    | .ok (none, l) => .ok (false, s.setLink p l)
    | .ok (some m, l) =>
      let s := s.identityRead p m l
      if m.body = [] then (s.registerAuto p).map (true, ·)
      else
        match s.outpipes.lookup m.body with
        | none => (s.register p m.body).map (true, ·)
        | some old =>
          if s.handover then
            match s.handOver m.body old with
            | .error f => .error f
            | .ok s => (s.register p m.body).map (true, ·)
          else .ok (false, s)

/-! ### Pipes -/

/-- `fq.attach`. -/
def fqAttach (p : ℕ) (s : Router) : Except RouterFault Router :=
  match s.inp.fq.attach p with
  | none => .error (.fq .outOfBounds)
  | some fq => .ok { s with inp := { s.inp with fq } }

/-- The probe `xattach_pipe` writes to a new pipe, if the option is set. -/
def probe (p : ℕ) (s : Router) : Except RouterFault Router :=
  if s.probeRouter then
    match (s.inp.links p).write Dealer.probeMsg with
    | .error e => .error (.fq (.pipe e))
    | .ok (_, l) =>
      match l.flush with
      | .error e => .error (.fq (.pipe e))
      | .ok l => .ok (s.setLink p l)
  else .ok s

/-- `xattach_pipe`. -/
def xattachPipe (p : ℕ) (s : Router) : Except RouterFault Router :=
  match s.probe p with
  | .error f => .error f
  | .ok s =>
    match s.identifyPeer p with
    | .error f => .error f
    | .ok (true, s) => s.fqAttach p
    | .ok (false, s) => .ok { s with anonymousPipes := insert p s.anonymousPipes }

/-- `xpipe_terminated`; `before` are the pipes before the event. -/
def xpipeTerminated (before : Pipes) (p : ℕ) (s : Router) : Except RouterFault Router :=
  if p ∈ s.anonymousPipes then .ok { s with anonymousPipes := s.anonymousPipes.erase p }
  else if (s.outpipes.lookup (s.identities p)).isSome then
    match s.inp.fq.pipeTerminated p before with
    | none => .error (.fq .outOfBounds)
    | some fq => .ok { s with outpipes := s.outpipes.erase (s.identities p)
                              inp := { s.inp with fq }
                              currentOut := if s.currentOut = some p then none else s.currentOut }
  else .error .assertFailed

/-- `xread_activated`. -/
def xreadActivated (p : ℕ) (s : Router) : Except RouterFault Router :=
  if p ∈ s.anonymousPipes then
    match s.identifyPeer p with
    | .error f => .error f
    | .ok (true, s) => { s with anonymousPipes := s.anonymousPipes.erase p }.fqAttach p
    | .ok (false, s) => .ok s
  else
    match s.inp.fq.activated p with
    | none => .error (.fq .outOfBounds)
    | some fq => .ok { s with inp := { s.inp with fq } }

/-- `xwrite_activated`. -/
def xwriteActivated (p : ℕ) (s : Router) : Except RouterFault Router :=
  match s.outpipes.entries.find? fun e => e.2.pipe = p with
  | none => .error .assertFailed
  | some ⟨id, o⟩ =>
    if o.active then .error .assertFailed
    else .ok { s with outpipes := s.outpipes.insert id { o with active := true } }

/-- An event of a pipe. -/
def react (before : Pipes) (p : ℕ) (s : Router) : Option SinkEvent → Except RouterFault Router
  | some .readActivated => s.xreadActivated p
  | some .writeActivated => s.xwriteActivated p
  | some .pipeTerminated => s.xpipeTerminated before p
  | _ => .ok s

/-! ### Receiving -/

/-- `fq.recvpipe`. -/
def recvpipe (s : Router) : Except RouterFault (Option FrameFrom × Router) :=
  match s.inp.fq.recvpipe s.inp.links with
  | .error e => .error (.fq e)
  | .ok (none, fq, links) => .ok (none, { s with inp := { s.inp with fq, links } })
  | .ok (some f, fq, links) => .ok (some f, { s with inp := { s.inp with fq, links }.record f })

/-- The next frame that is not the identity of a peer that has connected again. -/
def recvFrame : ℕ → Router → Except RouterFault (Option FrameFrom × Router)
  | 0, _ => .error .running
  | n + 1, s =>
    match s.recvpipe with
    | .error f => .error f
    | .ok (none, s) => .ok (none, s)
    | .ok (some f, s) => if f.1.isIdentity then recvFrame n s else .ok (some f, s)

/-- The frame with an identity. -/
def identityMsg (id : Identity) : Msg := ⟨.data, frameFlags true, id⟩

/-- `router_t::xrecv`; without a result, `EAGAIN`. -/
def xrecv (n : ℕ) (s : Router) : Except RouterFault (Option Msg × Router) :=
  if s.prefetched then
    if s.identitySent then
      .ok (some s.prefetchedMsg, { s with prefetched := false, moreIn := s.prefetchedMsg.more })
    else .ok (some s.prefetchedId, { s with identitySent := true, moreIn := s.prefetchedId.more })
  else
    match s.recvFrame n with
    | .error f => .error f
    | .ok (none, s) => .ok (none, s)
    | .ok (some (m, p), s) =>
      if s.moreIn then .ok (some m, { s with moreIn := m.more })
      else .ok (some (identityMsg (s.identities p)),
        { s with prefetchedMsg := m, prefetched := true, identitySent := true })

/-- `router_t::xhas_in`. -/
def xhasIn (n : ℕ) (s : Router) : Except RouterFault (Bool × Router) :=
  if s.moreIn then .ok (true, s)
  else if s.prefetched then .ok (true, s)
  else
    match s.recvFrame n with
    | .error f => .error f
    | .ok (none, s) => .ok (false, s)
    | .ok (some (m, p), s) =>
      .ok (true, { s with prefetchedMsg := m, prefetchedId := identityMsg (s.identities p)
                          prefetched := true, identitySent := false })

/-! ### Sending -/

/-- The first part of a message is the identity of the peer it goes to. -/
def sendIdentity (m : Msg) (s : Router) : Except RouterFault (Except RouterErrno Unit × Router) :=
  if s.currentOut ≠ none then .error .assertFailed
  else if m.more then
    match s.outpipes.lookup m.body with
    | none =>
      if s.mandatory then .ok (.error .ehostunreach, s) else .ok (.ok (), { s with moreOut := true })
    | some o =>
      match (s.inp.links o.pipe).checkWrite with
      | (true, l) => .ok (.ok (), { s.setLink o.pipe l with moreOut := true, currentOut := some o.pipe })
      | (false, l) =>
        let s := { s.setLink o.pipe l with outpipes := s.outpipes.insert m.body { o with active := false } }
        if s.mandatory then .ok (.error .eagain, s) else .ok (.ok (), { s with moreOut := true })
  else .ok (.ok (), s)

/-- A part of a message is written to the pipe. -/
def sendPart (m : Msg) (p : ℕ) (s : Router) : Except RouterFault Router :=
  if s.rawSock ∧ m.body = [] then
    match s.terminatePipe p false with
    | .error f => .error f
    | .ok s => .ok { s with currentOut := none }
  else
    match (s.inp.links p).write m with
    | .error e => .error (.fq (.pipe e))
    | .ok (false, l) => .ok { s.setLink p l with currentOut := none }
    | .ok (true, l) =>
      if m.more then .ok (s.setLink p l)
      else
        match l.flush with
        | .error e => .error (.fq (.pipe e))
        | .ok l => .ok { s.setLink p l with currentOut := none }

/-- `router_t::xsend`. -/
def xsend (m : Msg) (s : Router) : Except RouterFault (Except RouterErrno Unit × Router) :=
  if s.moreOut then
    let m := if s.optionsRawSock then { m with flags := { m.flags with more := false } } else m
    let s := { s with moreOut := m.more }
    match s.currentOut with
    | none => .ok (.ok (), s)
    | some p =>
      match s.sendPart m p with
      | .error f => .error f
      | .ok s => .ok (.ok (), s)
  else s.sendIdentity m

/-- `router_t::rollback`. -/
def rollback (s : Router) : Except RouterFault Router :=
  match s.currentOut with
  | none => .ok s
  | some p =>
    match (s.inp.links p).rollback with
    | .error e => .error (.fq (.pipe e))
    | .ok l => .ok { s.setLink p l with currentOut := none, moreOut := false }

end Router

/-- A step of a ROUTER socket, its pipes and their peers. -/
inductive RouterAct
  /-- A new pipe is attached; before that its peer may have done something. -/
  | attach (hwm₀ hwm₁ : ℤ) (before : List EndAct)
  /-- The application receives a frame; the loop has at most `n` rounds. -/
  | recv (n : ℕ)
  | hasIn (n : ℕ)
  /-- The application sends a frame. -/
  | send (flags : MsgFlags) (body : List UInt8)
  /-- The options of the socket. -/
  | setConnectRid (rid : List UInt8)
  | setRaw (value : Bool)
  | setMandatory (value : Bool)
  | setProbeRouter (value : Bool)
  | setHandover (value : Bool)
  /-- The socket does something else with a pipe. -/
  | owner (pipe : ℕ) (act : PipeAct)
  /-- The peer of a pipe does something. -/
  | peer (pipe : ℕ) (act : EndAct)

namespace Router

/-- A new pipe. -/
def addPipe (hwm₀ hwm₁ : ℤ) (s : Router) : Router :=
  { s with inp := { s.inp with
      links := update s.inp.links s.inp.count (Link.pipepair hwm₀ hwm₁)
      count := s.inp.count + 1 } }

/-- The peer of a pipe does something. -/
def peer (p : ℕ) (a : EndAct) (s : Router) : Except RouterFault Router :=
  match s.inp.step (.peer p a) with
  | .error e => .error (.fq e)
  | .ok inp => .ok { s with inp }

/-- The peer of a pipe does something, again and again. -/
def peerActs (p : ℕ) : List EndAct → Router → Except RouterFault Router
  | [], s => .ok s
  | a :: as, s =>
    match s.peer p a with
    | .error f => .error f
    | .ok s => peerActs p as s

/-- The socket does something with a pipe; there may be an event. -/
def owner (p : ℕ) (a : PipeAct) (s : Router) : Except RouterFault Router :=
  if p < s.inp.count then
    match (s.inp.links p).socketAct a.1 with
    | .error e => .error (.fq (.pipe e))
    | .ok (l, e) => (s.setLink p l).react s.inp.links p e
  else .ok s

/-- A frame that `xrecv` returns. -/
def recordReturned (r : Option Msg × Router) : Router := { r.2 with returned := r.2.returned ++ r.1.toList }

/-- One step. Acts on pipes that do not exist do nothing. -/
def step (s : Router) : RouterAct → Except RouterFault Router
  | .attach hwm₀ hwm₁ before =>
    match (s.addPipe hwm₀ hwm₁).peerActs s.inp.count before with
    | .error f => .error f
    | .ok t => t.xattachPipe s.inp.count
  | .recv n => (s.xrecv n).map recordReturned
  | .hasIn n => (s.xhasIn n).map Prod.snd
  | .send flags body => (s.xsend ⟨.data, flags, body⟩).map Prod.snd
  | .setConnectRid rid => .ok (if rid = [] then s else { s with connectRid := rid })
  | .setRaw value => .ok { s with rawSock := value, optionsRawSock := s.optionsRawSock || value }
  | .setMandatory value => .ok { s with mandatory := value }
  | .setProbeRouter value => .ok { s with probeRouter := value }
  | .setHandover value => .ok { s with handover := value }
  | .owner p a => s.owner p a
  | .peer p a => s.peer p a

/-- A sequence of steps. -/
def run (s : Router) (acts : List RouterAct) : Except RouterFault Router := runSteps step s acts

end Router

end Zmq
