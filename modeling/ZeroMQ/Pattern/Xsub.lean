import ZeroMQ.Pattern.Outlet
import ZeroMQ.Trie.Trie

/-!
# The subscriber

`xsub_t` keeps its subscriptions in a trie and sends them upstream: a message whose first byte is 1 is a
subscription, 0 cancels one, and everything else is passed on. All of it goes through a distributor.
A new pipe, or one that hiccuped, needs all subscriptions at once, and these are written to it past the
distributor.

`XsubSystem` is such a socket with its pipes and their peers. Receiving does not concern the
distributor, so the fair queue is left out: the socket may do with the inbound side of a pipe what it
likes.
-/

namespace Zmq

open Foundation Function

/-- `xsub_t`. -/
structure Xsub where
  subscriptions : Trie
  dist : Dist
  /-- The option `ZMQ_IMMEDIATE`. -/
  immediate : Bool

namespace Xsub

/-- The constructor of `xsub_t`. -/
def new : Xsub := ⟨Node.new, Dist.new, false⟩

/-- The message `send_subscription` makes for a string. -/
def subscription (key : List UInt8) : Msg := ⟨.data, MsgFlags.none, 1 :: key⟩

/-- What `xsub_t::xsend` does with the trie, and whether the message is sent at all. -/
def forward (t : Trie) : List UInt8 → Except TrieFault (Bool × Trie)
  | 1 :: key => (t.add key).map fun r => (true, r.2)
  | 0 :: key => t.rm key
  | _ => .ok (true, t)

/-- `xsub_t::xsend`, and the writes it leads to with their results. -/
def xsend (x : Xsub) (m : Msg) (links : Pipes) : Except PubSubFault (List (ℕ × Bool) × Xsub × Pipes) :=
  match forward x.subscriptions m.body with
  | .error e => .error (.trie e)
  | .ok (false, t) => .ok ([], { x with subscriptions := t }, links)
  | .ok (true, t) =>
    match x.dist.sendToAll m links with
    | .error e => .error (.pattern e)
    | .ok (log, d, links) => .ok (log, { x with subscriptions := t, dist := d }, links)

/-- How many subscriptions a new pipe gets. -/
def cached (x : Xsub) : ℕ :=
  match x.subscriptions.apply with
  | .error _ => 0
  | .ok keys => keys.length

end Xsub

namespace Link

/-- `send_subscription` for these strings: what is refused is dropped. -/
def sendSubscriptions : List (List UInt8) → Link → Except PipeFault (List Bool × Link)
  | [], s => .ok ([], s)
  | key :: keys, s =>
    match s.write (Xsub.subscription key) with
    | .error e => .error e
    | .ok (ok, s) => (sendSubscriptions keys s).map fun r => (ok :: r.1, r.2)

end Link

/-! ### The subscriber and its pipes -/

/-- A subscriber and its pipes. -/
structure XsubSystem where
  xsub : Xsub
  links : Pipes
  /-- The address of the next pipe. -/
  count : ℕ
  /-- The last write to the pipe failed, and it was not activated since. -/
  blocked : ℕ → Bool
  /-- `dist_t::activated` was called for a pipe that is not passive. -/
  misused : Bool

/-- A step of the system. -/
inductive XsubAct
  /-- A new pipe is attached. -/
  | attach (hwm₀ hwm₁ : ℤ)
  /-- The option `ZMQ_IMMEDIATE` is set. -/
  | setImmediate (immediate : Bool)
  /-- The application sends a frame. -/
  | send (flags : MsgFlags) (body : List UInt8)
  /-- The socket does something else with a pipe. -/
  | owner (pipe : ℕ) (act : { a : EndAct // a.KeepsOutput })
  /-- The peer of a pipe does something. -/
  | peer (pipe : ℕ) (act : EndAct)

namespace XsubSystem

/-- No pipes, no subscriptions. -/
def new : XsubSystem := ⟨Xsub.new, fun _ => Link.pipepair 0 0, 0, fun _ => false, false⟩

/-- Whether a pipe is blocked after some writes to it. -/
def blockedAfter (old : Bool) (results : List Bool) : Bool :=
  match results.getLast? with
  | none => old
  | some ok => !ok

/-- `subscriptions.apply (send_subscription, pipe)` and the flush behind it. -/
def resend (s : XsubSystem) (p : ℕ) : Except PubSubFault XsubSystem :=
  match s.xsub.subscriptions.apply with
  | .error e => .error (.trie e)
  | .ok keys =>
    match (s.links p).sendSubscriptions keys with
    | .error e => .error (.pattern (.pipe e))
    | .ok (results, l) =>
      match l.flush with
      | .error e => .error (.pattern (.pipe e))
      | .ok l => .ok { s with
          links := update s.links p l
          blocked := update s.blocked p (blockedAfter (s.blocked p) results) }

/-- `xsub_t::xattach_pipe`. -/
def xattachPipe (s : XsubSystem) (l : Link) : Except PubSubFault XsubSystem :=
  match s.xsub.dist.attach s.count with
  | none => .error (.pattern .outOfBounds)
  | some d => XsubSystem.resend { s with
      xsub := { s.xsub with dist := d }
      links := update s.links s.count l
      count := s.count + 1
      blocked := update s.blocked s.count false } s.count

/-- `socket_base_t::hiccuped`: a pipe to a peer that is not connected is closed if such pipes are not
wanted. -/
def hiccuped (s : XsubSystem) (p : ℕ) : Except PubSubFault XsubSystem :=
  if s.xsub.immediate then
    match (s.links p).terminate false with
    | .error e => .error (.pattern (.pipe e))
    | .ok l => .ok { s with links := update s.links p l }
  else s.resend p

/-- `xsub_t::xwrite_activated`. -/
def xwriteActivated (s : XsubSystem) (p : ℕ) : Except PubSubFault XsubSystem :=
  match s.xsub.dist.activated p with
  | none => .error (.pattern .outOfBounds)
  | some d => .ok { s with
      xsub := { s.xsub with dist := d }
      blocked := update s.blocked p false
      misused := s.misused || s.xsub.dist.pipes.index p < s.xsub.dist.eligible }

/-- `xsub_t::xpipe_terminated`. -/
def xpipeTerminated (s : XsubSystem) (p : ℕ) : Except PubSubFault XsubSystem :=
  match s.xsub.dist.pipeTerminated p with
  | none => .error (.pattern .outOfBounds)
  | some d => .ok { s with xsub := { s.xsub with dist := d } }

/-- An event of a pipe reaches the socket. -/
def react (s : XsubSystem) (p : ℕ) : Option SinkEvent → Except PubSubFault XsubSystem
  | some .writeActivated => s.xwriteActivated p
  | some .pipeTerminated => s.xpipeTerminated p
  | some .hiccuped => s.hiccuped p
  | some .readActivated | none => .ok s

/-- One step. Acts on pipes that do not exist do nothing. -/
def step (s : XsubSystem) : XsubAct → Except PubSubFault XsubSystem
  | .attach hwm₀ hwm₁ => s.xattachPipe (Link.pipepair hwm₀ hwm₁)
  | .setImmediate immediate => .ok { s with xsub := { s.xsub with immediate := immediate } }
  | .send flags body =>
    match s.xsub.xsend ⟨.data, flags, body⟩ s.links with
    | .error e => .error e
    | .ok (log, x, links) => .ok { s with
        xsub := x
        links := links
        blocked := fun q => blockedAfter (s.blocked q) (log.lookup q).toList }
  | .owner p a =>
    if p < s.count then
      match (s.links p).act a.1 with
      | .error e => .error (.pattern (.pipe e))
      | .ok (l, e) => { s with links := update s.links p l }.react p e
    else .ok s
  | .peer p a =>
    if p < s.count then
      match (s.links p).swap.act a with
      | .error e => .error (.pattern (.pipe e))
      | .ok (l, _) => .ok { s with links := update s.links p l.swap }
    else .ok s

/-- A sequence of steps. -/
def run (s : XsubSystem) (acts : List XsubAct) : Except PubSubFault XsubSystem := runSteps step s acts

/-- The parts of the array are in order, every pipe knows its place, the passive pipes are the ones that
were last found unwritable, and only passive pipes were activated. -/
structure Partitioned (s : XsubSystem) : Prop where
  matching : s.xsub.dist.matching ≤ s.xsub.dist.active
  active : s.xsub.dist.active ≤ s.xsub.dist.eligible
  eligible : s.xsub.dist.eligible ≤ s.xsub.dist.pipes.items.length
  index : ∀ i p, s.xsub.dist.pipes.items[i]? = some p → s.xsub.dist.pipes.index p = i
  passive : ∀ p ∈ s.xsub.dist.pipes.items, s.xsub.dist.eligible ≤ s.xsub.dist.pipes.index p ↔ s.blocked p = true
  misused : s.misused = false

end XsubSystem

/-- A hiccup is the next command for the end. -/
def Link.hiccups (s : Link) : Bool :=
  match s.near.inbox with
  | .hiccup _ :: _ => true
  | _ => false

/-- There is room for some more messages. -/
def HasRoomFor (n : ℕ) (p : Pipe) : Prop := 0 < p.hwm → (p.msgsWritten : ℤ) + n ≤ p.peersMsgsRead + p.hwm

instance (n : ℕ) (p : Pipe) : Decidable (HasRoomFor n p) := inferInstanceAs (Decidable (_ → _))

namespace XsubSystem

/-- The steps that write no subscriptions past the distributor without its noticing. The subscriptions
must fit into a new pipe, and into a pipe that hiccups if it is not passive. If it is passive, the last
of them must not fit, unless there are none. -/
def Good (s : XsubSystem) : XsubAct → Prop
  | .attach hwm₀ hwm₁ => HasRoomFor s.xsub.cached (Link.pipepair hwm₀ hwm₁).near.pipe
  | .owner p a => a.1 = .deliver → (s.links p).hiccups = true →
    (s.links p).near.pipe.state = .active → s.xsub.immediate = false →
    if s.xsub.dist.pipes.index p < s.xsub.dist.eligible then
      HasRoomFor s.xsub.cached (s.links p).near.pipe
    else s.xsub.cached = 0 ∨ ¬HasRoomFor s.xsub.cached (s.links p).near.pipe
  | _ => True

instance (s : XsubSystem) (a : XsubAct) : Decidable (s.Good a) :=
  match a with
  | .attach _ _ => inferInstanceAs (Decidable (HasRoomFor _ _))
  | .owner _ _ => inferInstanceAs (Decidable (_ → _ → _ → _ → ite _ _ _))
  | .setImmediate _ | .send _ _ | .peer _ _ => inferInstanceAs (Decidable True)

end XsubSystem

end Zmq
