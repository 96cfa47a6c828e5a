import ZeroMQ.Pattern.Attached
import ZeroMQ.Pipe.Inbound

/-!
# The fair queue

`fq_t` takes messages from its pipes in turn. A message is received frame by frame, so between two
frames the queue remembers that it is inside a message (`more`); the pipe the message comes from is
remembered only as the index `current`.

`FqSystem` is a fair queue with the pipes attached to it, the messages their peers have published and
the frames the application has received. Its steps are calls of the application, acts of the socket on
a pipe (the delivery of a command among them, which may lead to an event for the fair queue) and acts of
a peer.
-/

namespace Zmq

open Function

/-- `fq_t`. -/
structure Fq extends Ring ℕ where
  /-- The first part of a multipart message was received. -/
  more : Bool
  /-- The pipe the last message came from. -/
  lastIn : Option ℕ
  /-- The credential of that pipe if the pipe is gone. -/
  savedCredential : List UInt8

namespace Fq

/-- The constructor of `fq_t`. -/
def new : Fq := { Ring.empty with more := false, lastIn := none, savedCredential := [] }

/-- `fq_t::attach`. -/
def attach (fq : Fq) (p : ℕ) : Option Fq :=
  let pipes := fq.pipes.pushBack p
  (pipes.swap fq.active (pipes.items.length - 1)).map fun pipes =>
    { fq with pipes := pipes, active := fq.active + 1 }

/-- `fq_t::activated`. -/
def activated (fq : Fq) (p : ℕ) : Option Fq := (Ring.activated fq.toRing p).map fun r => { fq with toRing := r }

/-- `fq_t::pipe_terminated`. The pipe is not deallocated before its owner has been told. -/
def pipeTerminated (fq : Fq) (p : ℕ) (links : Pipes) : Option Fq :=
  (fq.toRing.remove p).map fun r =>
    if fq.lastIn = some p then
      { fq with toRing := r, lastIn := none, savedCredential := (links p).near.pipe.credential }
    else { fq with toRing := r }

/-- `pipes [current]->read (msg_)`. -/
def tryRead (p : ℕ) (links : Pipes) : Except PatternFault (Option Msg × Pipes) :=
  match (links p).read with
  | .error e => .error (.pipe e)
  | .ok (m, l) => .ok (m, update links p l)

/-- `pipes [current]->check_read ()`. -/
def tryCheckRead (p : ℕ) (links : Pipes) : Except PatternFault (Option Unit × Pipes) :=
  match (links p).checkRead with
  | .error e => .error (.pipe e)
  | .ok (ok, l) => .ok (if ok then some () else none, update links p l)

/-- `fq_t::recvpipe`: the frame and the pipe it comes from, or none for `EAGAIN`. After the last frame
of a message it is the turn of the next pipe. -/
def recvpipe (fq : Fq) (links : Pipes) : Except PatternFault (Option (Msg × ℕ) × Fq × Pipes) :=
  match Ring.search .outOfBounds tryRead (if fq.more then .error .assertFailed else .ok ())
    Ring.deactivate fq.active fq.toRing links with
  | .error e => .error e
  | .ok (none, r, links) => .ok (none, { fq with toRing := r }, links)
  | .ok (some m, r, links) =>
    match r.pipes.items[r.current]? with
    | none => .error .outOfBounds
    | some p =>
      if m.more then .ok (some (m, p), { fq with toRing := r, more := true }, links)
      else .ok (some (m, p), { fq with toRing := r.advance, more := false, lastIn := some p }, links)

/-- `fq_t::has_in`. -/
def hasIn (fq : Fq) (links : Pipes) : Except PatternFault (Bool × Fq × Pipes) :=
  if fq.more then .ok (true, fq, links)
  else
    match Ring.search .outOfBounds tryCheckRead (.ok ()) Ring.deactivate fq.active fq.toRing
      links with
    | .error e => .error e
    | .ok (found, r, links) => .ok (found.isSome, { fq with toRing := r }, links)

end Fq

/-! ### The fair queue and its pipes -/

/-- A frame and the pipe it was received from. -/
abbrev FrameFrom := Msg × ℕ

/-- A fair queue, its pipes and the messages received through it. -/
structure FqSystem where
  fq : Fq
  links : Pipes
  /-- The address of the next pipe. -/
  count : ℕ
  /-- The messages the peer of a pipe has written completely, oldest first. -/
  published : ℕ → List (List Msg)
  /-- The frames of its next message. -/
  pending : ℕ → List Msg
  /-- What was received between two ends of a message, oldest first. -/
  received : List (List FrameFrom)
  /-- The frames received since the last end of a message. -/
  receiving : List FrameFrom

/-- A step of the system. -/
inductive FqAct
  /-- A new pipe is attached. -/
  | attach (hwm₀ hwm₁ : ℤ)
  /-- The application receives a frame. -/
  | recv
  | hasIn
  /-- The socket does something else with a pipe. -/
  | owner (pipe : ℕ) (act : { a : EndAct // a.KeepsInput })
  /-- The peer of a pipe does something. -/
  | peer (pipe : ℕ) (act : EndAct)

namespace FqSystem

/-- No pipes, nothing received. -/
def new : FqSystem := ⟨Fq.new, fun _ => Link.pipepair 0 0, 0, fun _ => [], fun _ => [], [], []⟩

/-- A frame was received. -/
def record (s : FqSystem) (f : FrameFrom) : FqSystem :=
  if f.1.more then { s with receiving := s.receiving ++ [f] }
  else { s with received := s.received ++ [s.receiving ++ [f]], receiving := [] }

/-- An event of a pipe reaches the fair queue; `before` are the pipes before the event. What the
socket does about a hiccup, if anything, are further acts on the pipe. -/
def react (s : FqSystem) (before : Pipes) (p : ℕ) : Option SinkEvent → Except PatternFault FqSystem
  | some .readActivated =>
    match s.fq.activated p with
    | none => .error .outOfBounds
    | some fq => .ok { s with fq := fq }
  | some .pipeTerminated =>
    match s.fq.pipeTerminated p before with
    | none => .error .outOfBounds
    | some fq => .ok { s with fq := fq }
  | _ => .ok s

/-- One step. Acts on pipes that do not exist do nothing, and no peer writes a credential into the
middle of a message. -/
def step (s : FqSystem) : FqAct → Except PatternFault FqSystem
  | .attach hwm₀ hwm₁ =>
    match s.fq.attach s.count with
    | none => .error .outOfBounds
    | some fq => .ok { s with
        fq := fq
        links := update s.links s.count (Link.pipepair hwm₀ hwm₁)
        count := s.count + 1 }
  | .recv =>
    match s.fq.recvpipe s.links with
    | .error e => .error e
    | .ok (none, fq, links) => .ok { s with fq := fq, links := links }
    | .ok (some f, fq, links) => .ok ({ s with fq := fq, links := links }.record f)
  | .hasIn =>
    match s.fq.hasIn s.links with
    | .error e => .error e
    | .ok (_, fq, links) => .ok { s with fq := fq, links := links }
  | .owner p a =>
    if p < s.count then
      match (s.links p).act a.1 with
      | .error e => .error (.pipe e)
      | .ok (l, e) => { s with links := update s.links p l }.react s.links p e
    else .ok s
  | .peer p a =>
    if p < s.count ∧ a.CredentialBetween (s.pending p) then
      match (s.links p).swap.act a with
      | .error e => .error (.pipe e)
      | .ok (l, _) =>
        let (published, pending) := (s.links p).publish a (s.published p) (s.pending p)
        .ok { s with
          links := update s.links p l.swap
          published := update s.published p published
          pending := update s.pending p pending }
    else .ok s

/-- A sequence of steps. -/
def run (s : FqSystem) (acts : List FqAct) : Except PatternFault FqSystem := Foundation.runSteps step s acts

/-! ### Atomicity -/

/-- The frames came from this pipe. -/
def From (p : ℕ) (g : List FrameFrom) : Prop := ∀ f ∈ g, f.2 = p

instance (p : ℕ) (g : List FrameFrom) : Decidable (From p g) :=
  inferInstanceAs (Decidable (∀ f ∈ g, f.2 = p))

/-- The messages received from a pipe. -/
def messagesFrom (p : ℕ) (received : List (List FrameFrom)) : List (List Msg) :=
  (received.filter (From p)).map fun g => g.map Prod.fst

/-- Between two ends of a message the application receives one message of one pipe, from the first frame
to the last, and each pipe gives its messages in the order in which its peer has published them. -/
structure Atomic (s : FqSystem) : Prop where
  received : ∀ g ∈ s.received, ∃ p < s.count, From p g ∧ Foundation.Whole Msg.more (g.map Prod.fst)
  taken : ∀ p < s.count, messagesFrom p s.received <+: s.published p
  receiving : s.receiving ≠ [] → ∃ p < s.count, From p s.receiving ∧
    ∃ rest ≠ [], messagesFrom p s.received ++ [s.receiving.map Prod.fst ++ rest] <+: s.published p

/-- The steps after which messages stay whole. A frame that continues a message must find the end of
the current pipe in a state in which it can be read, and while a message is being received neither the
current pipe may go nor a pipe whose removal gives the turn of the current one to another. -/
def Good (s : FqSystem) : FqAct → Prop
  | .recv => s.fq.more = true →
    ∀ p ∈ s.fq.pipes.items[s.fq.current]?, Link.reading (s.links p).near.pipe = true
  | .owner p a => s.fq.more = true → a.1 = .deliver →
    (s.links p).near.inbox.head? = some .pipeTermAck →
    s.fq.pipes.items[s.fq.current]? ≠ some p ∧ ¬s.fq.Misplaces p
  | _ => True

instance (s : FqSystem) (a : FqAct) : Decidable (s.Good a) :=
  match a with
  | .recv => inferInstanceAs (Decidable (_ → ∀ p ∈ _, _))
  | .owner _ _ => inferInstanceAs (Decidable (_ → _ → _ → _ ∧ _))
  | .attach _ _ | .hasIn | .peer _ _ => inferInstanceAs (Decidable True)

end FqSystem

end Zmq
