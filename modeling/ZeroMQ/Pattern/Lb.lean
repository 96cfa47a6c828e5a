import ZeroMQ.Foundation.Framing
import ZeroMQ.Pattern.Attached
import ZeroMQ.Pattern.SocketAct

/-!
# The load balancer

`lb_t` sends every message to one of its pipes, in turn. A message is sent frame by frame, so between
two frames the balancer remembers that it is inside a message (`more`) and, if the pipe of the message
is gone, that the rest is to be dropped (`dropping`). Which pipe the message goes to is remembered only
as the index `current`.

`LbSystem` is a load balancer with the pipes attached to it, the peers of these pipes and the frames
the application has sent so far. Its steps are calls of the application, acts of the socket on a pipe
(the delivery of a command among them, which may lead to an event for the load balancer) and acts of a
peer.
-/

namespace Zmq

open Function

/-- `lb_t`. -/
structure Lb extends Ring ℕ where
  /-- Only part of a multipart message was sent. -/
  more : Bool
  /-- The rest of the message is dropped. -/
  dropping : Bool

/-- What `sendpipe` did with a frame. -/
inductive SendResult
  /-- It was written to this pipe. -/
  | written (pipe : ℕ)
  | dropped
  /-- It was not sent: `EAGAIN`. -/
  | again
  deriving DecidableEq, Repr

namespace Lb

/-- The constructor of `lb_t`. -/
def new : Lb := { Ring.empty with more := false, dropping := false }

/-- `lb_t::activated`. -/
def activated (lb : Lb) (p : ℕ) : Option Lb := (Ring.activated lb.toRing p).map fun r => { lb with toRing := r }

/-- `lb_t::attach`. -/
def attach (lb : Lb) (p : ℕ) : Option Lb := { lb with pipes := lb.pipes.pushBack p }.activated p

/-- `lb_t::pipe_terminated`. -/
def pipeTerminated (lb : Lb) (p : ℕ) : Option Lb :=
  let dropping := if lb.pipes.index p = lb.current ∧ lb.more then true else lb.dropping
  (lb.toRing.remove p).map fun r => { toRing := r, more := lb.more, dropping := dropping }

/-- How `lb_t::sendpipe` takes the current pipe from the active ones. -/
def dropCurrent (r : Ring ℕ) : Option (Ring ℕ) :=
  let active := r.active - 1
  if r.current < active then
    (r.pipes.swap r.current active).map fun pipes => ⟨pipes, active, r.current⟩
  else some ⟨r.pipes, active, 0⟩

/-- `pipes [current]->write (msg_)`. -/
def tryWrite (m : Msg) (p : ℕ) (links : Pipes) : Except PatternFault (Option Unit × Pipes) :=
  match (links p).write m with
  | .error e => .error (.pipe e)
  | .ok (ok, l) => .ok (if ok then some () else none, update links p l)

/-- `pipes [current]->check_write ()`. -/
def tryCheckWrite (p : ℕ) (links : Pipes) : Except PatternFault (Option Unit × Pipes) :=
  let (ok, l) := (links p).checkWrite
  .ok (if ok then some () else none, update links p l)

/-- The end of `lb_t::sendpipe` for a frame that was written to the current pipe: the last frame of a
message is flushed, and it is the turn of the next pipe. -/
def finishSend (lb : Lb) (m : Msg) (r : Ring ℕ) (links : Pipes) : Except PatternFault (SendResult × Lb × Pipes) :=
  match r.pipes.items[r.current]? with
  | none => .error .outOfBounds
  | some p =>
    if m.more then .ok (.written p, { lb with toRing := r, more := true }, links)
    else
      match (links p).flush with
      | .error e => .error (.pipe e)
      | .ok l =>
        .ok (.written p, { lb with toRing := r.advance, more := false }, update links p l)

/-- `lb_t::sendpipe`. -/
def sendpipe (lb : Lb) (m : Msg) (links : Pipes) : Except PatternFault (SendResult × Lb × Pipes) :=
  if lb.dropping then .ok (.dropped, { lb with more := m.more, dropping := m.more }, links)
  else
    match Ring.search .outOfBounds (tryWrite m) (if lb.more then .error .assertFailed else .ok ())
      dropCurrent lb.active lb.toRing links with
    | .error e => .error e
    | .ok (none, r, links) => .ok (.again, { lb with toRing := r }, links)
    | .ok (some (), r, links) => lb.finishSend m r links

/-- `lb_t::has_out`. -/
def hasOut (lb : Lb) (links : Pipes) : Except PatternFault (Bool × Lb × Pipes) :=
  if lb.more then .ok (true, lb, links)
  else
    match Ring.search .outOfBounds tryCheckWrite (.ok ()) Ring.deactivate lb.active lb.toRing
      links with
    | .error e => .error e
    | .ok (found, r, links) => .ok (found.isSome, { lb with toRing := r }, links)

end Lb

/-! ### The load balancer and its pipes -/

/-- A frame the load balancer has accepted and the pipe it was written to, or none if it was
dropped. -/
abbrev Frame := Msg × Option ℕ

/-- A load balancer, its pipes and the messages sent through it. -/
structure LbSystem where
  lb : Lb
  links : Pipes
  /-- The address of the next pipe. -/
  count : ℕ
  /-- The messages of which all frames were accepted, oldest first. -/
  sent : List (List Frame)
  /-- The frames of the next message that were accepted so far. -/
  sending : List Frame

/-- A step of the system. -/
inductive LbAct
  /-- A new pipe is attached. -/
  | attach (hwm₀ hwm₁ : ℤ)
  /-- The application sends a frame. -/
  | send (flags : MsgFlags) (body : List UInt8)
  | hasOut
  /-- The socket does something else with a pipe. -/
  | owner (pipe : ℕ) (act : { a : EndAct // a.KeepsOutput })
  /-- The peer of a pipe does something. -/
  | peer (pipe : ℕ) (act : EndAct)

namespace LbSystem

/-- No pipes, nothing sent. -/
def new : LbSystem := ⟨Lb.new, fun _ => Link.pipepair 0 0, 0, [], []⟩

/-- A frame was accepted. -/
def record (s : LbSystem) (m : Msg) (pipe : Option ℕ) : LbSystem :=
  if m.more then { s with sending := s.sending ++ [(m, pipe)] }
  else { s with sent := s.sent ++ [s.sending ++ [(m, pipe)]], sending := [] }

/-- An event of a pipe reaches the load balancer. -/
def react (s : LbSystem) (p : ℕ) : Option SinkEvent → Except PatternFault LbSystem
  | some .writeActivated =>
    match s.lb.activated p with
    | none => .error .outOfBounds
    | some lb => .ok { s with lb := lb }
  | some .pipeTerminated =>
    match s.lb.pipeTerminated p with
    | none => .error .outOfBounds
    | some lb => .ok { s with lb := lb }
  | _ => .ok s

/-- One step. Acts on pipes that do not exist do nothing. -/
def step (s : LbSystem) : LbAct → Except PatternFault LbSystem
  | .attach hwm₀ hwm₁ =>
    match s.lb.attach s.count with
    | none => .error .outOfBounds
    | some lb => .ok { s with
        lb := lb
        links := update s.links s.count (Link.pipepair hwm₀ hwm₁)
        count := s.count + 1 }
  | .send flags body =>
    match s.lb.sendpipe ⟨.data, flags, body⟩ s.links with
    | .error e => .error e
    | .ok (.again, lb, links) => .ok { s with lb := lb, links := links }
    | .ok (.dropped, lb, links) =>
      .ok ({ s with lb := lb, links := links }.record ⟨.data, flags, body⟩ none)
    | .ok (.written p, lb, links) =>
      .ok ({ s with lb := lb, links := links }.record ⟨.data, flags, body⟩ (some p))
  | .hasOut =>
    match s.lb.hasOut s.links with
    | .error e => .error e
    | .ok (_, lb, links) => .ok { s with lb := lb, links := links }
  | .owner p a =>
    if p < s.count then
      match (s.links p).socketAct a.1 with
      | .error e => .error (.pipe e)
      | .ok (l, e) => { s with links := update s.links p l }.react p e
    else .ok s
  | .peer p a =>
    if p < s.count then
      match (s.links p).swap.act a with
      | .error e => .error (.pipe e)
      | .ok (l, _) => .ok { s with links := update s.links p l.swap }
    else .ok s

/-- A sequence of steps. -/
def run (s : LbSystem) (acts : List LbAct) : Except PatternFault LbSystem := Foundation.runSteps step s acts

/-! ### Atomicity -/

/-- A whole message: all frames but the last announce more. -/
def IsMessage (g : List Frame) : Prop := Foundation.Whole (fun f => f.1.more) g

/-- The frames went to one pipe, or the first of them did until that pipe was gone and the others were
dropped. -/
def Placed (s : LbSystem) (g : List Frame) : Prop :=
  ∃ p < s.count, ∃ head tail, g = head ++ tail ∧ head ≠ [] ∧ (∀ f ∈ head, f.2 = some p) ∧
    (∀ f ∈ tail, f.2 = none) ∧ (tail ≠ [] → (s.links p).near.frees ≠ 0)

/-- The message was written to this pipe from the first frame to the last. -/
def wentTo (p : ℕ) (g : List Frame) : Bool := g.all fun f => f.2 = some p

/-- The frames of all messages that were completely written to a pipe. -/
def wholeTo (p : ℕ) (sent : List (List Frame)) : List Msg := (sent.filter (wentTo p)).flatten.map Prod.fst

/-- Every message goes to one pipe or is dropped, and all that the peer of a pipe can read, now or
after a flush, is the end of the messages that were completely written to this pipe, followed by
delimiters. -/
structure Atomic (s : LbSystem) : Prop where
  sent : ∀ g ∈ s.sent, IsMessage g ∧ s.Placed g
  sending : s.sending ≠ [] → (∀ f ∈ s.sending, f.1.more = true) ∧ s.Placed s.sending
  readable : ∀ p < s.count, ∀ i ≠ (s.links p).near.pipe.inpipe, ∃ n,
    ((s.links p).upipes i).queue.readable <:+ wholeTo p s.sent ++ List.replicate n Msg.initDelimiter

/-- The steps after which messages stay whole. A frame that continues a message must find the pipe of
the message still active, and while a message is being written no pipe may be removed whose removal
gives the turn of the current pipe to another one. -/
def Good (s : LbSystem) : LbAct → Prop
  | .send _ _ => s.lb.more = true → s.lb.dropping = false →
    ∀ p ∈ s.lb.pipes.items[s.lb.current]?, (s.links p).near.pipe.state = .active
  | .owner p a => s.lb.more = true → s.lb.dropping = false → a.1 = .deliver →
    (s.links p).near.inbox.head? = some .pipeTermAck → ¬s.lb.Misplaces p
  | _ => True

instance (s : LbSystem) (a : LbAct) : Decidable (s.Good a) :=
  match a with
  | .send _ _ => inferInstanceAs (Decidable (_ → _ → ∀ p ∈ _, _))
  | .owner _ _ => inferInstanceAs (Decidable (_ → _ → _ → _ → _))
  | .attach _ _ | .hasOut | .peer _ _ => inferInstanceAs (Decidable True)

end LbSystem

end Zmq
