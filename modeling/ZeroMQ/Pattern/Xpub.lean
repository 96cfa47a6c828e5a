import ZeroMQ.Pattern.Outlet
import ZeroMQ.Trie.Sweep

/-!
# The publisher

`xpub_t` reads subscriptions from its pipes and keeps them in a trie of pipes. The first frame of a
message decides which pipes the message goes to: the ones with a subscription that is a prefix of the
frame are marked as matching in the distributor, and this and the following frames are sent to these.
Subscriptions that change what the publisher as a whole is subscribed to are passed upstream, together
with all other messages from the peers, through a queue the application reads from.

`XpubSystem` is such a socket with its pipes and their peers. Besides the state of the code it records
which pipe is subscribed to what, where the frames went, and what was passed upstream.
-/

namespace Zmq

open Foundation Function

/-- `xpub_t`. -/
structure Xpub where
  subscriptions : Mtrie ℕ
  dist : Dist
  /-- Pass all subscription messages upstream. -/
  verbose : Bool
  /-- In the middle of a multipart message. -/
  more : Bool
  /-- Drop messages if the high watermark is reached, otherwise return `EAGAIN`. -/
  lossy : Bool
  /-- The type of the socket is `ZMQ_PUB` and not `ZMQ_XPUB`. -/
  pub : Bool
  /-- `pending_data` and `pending_flags`. -/
  pending : List (List UInt8 × MsgFlags)

lemma subscription_cases (data : List UInt8) :
    (∃ key, data = 0 :: key) ∨ (∃ key, data = 1 :: key) ∨ ((∀ key, data ≠ 0 :: key) ∧ ∀ key, data ≠ 1 :: key) := by
  by_cases h0 : ∃ key, data = 0 :: key
  · exact .inl h0
  by_cases h1 : ∃ key, data = 1 :: key
  · exact .inr (.inl h1)
  · push Not at h0 h1
    exact .inr (.inr ⟨h0, h1⟩)

namespace Xpub

/-- The constructor of `xpub_t` or `pub_t`. -/
def new (pub : Bool) : Xpub := ⟨Node.new, Dist.new, false, false, true, pub, []⟩

/-- What `xpub_t::xread_activated` does with the trie for a message from this pipe, and whether it is to
be passed upstream. -/
def subscribe (t : Mtrie ℕ) (p : ℕ) : List UInt8 → Except TrieFault (Bool × Mtrie ℕ)
  | 0 :: key => t.rm key p
  | 1 :: key => t.add key p
  | _ => .ok (true, t)

lemma subscribe_of_other {data : List UInt8} (h0 : ∀ key, data ≠ 0 :: key)
    (h1 : ∀ key, data ≠ 1 :: key) (t : Mtrie ℕ) (p : ℕ) : subscribe t p data = .ok (true, t) := by
  unfold subscribe
  split
  · exact absurd rfl (h0 _)
  · exact absurd rfl (h1 _)
  · rfl

/-- What is passed upstream of a message. -/
def upstream (x : Xpub) (m : Msg) (unique : Bool) : List (List UInt8 × MsgFlags) :=
  match m.body with
  | 0 :: key => if !x.pub && unique then [(0 :: key, MsgFlags.none)] else []
  | 1 :: key => if !x.pub && (unique || x.verbose) then [(1 :: key, MsgFlags.none)] else []
  | data => [(data, m.flags)]

/-- A round of the loop in `xpub_t::xread_activated`, for a message from this pipe: what is passed
upstream, and the new trie. -/
def readSubscription (x : Xpub) (p : ℕ) (m : Msg) : Except TrieFault (List (List UInt8 × MsgFlags) × Mtrie ℕ) :=
  (subscribe x.subscriptions p m.body).map fun r => (x.upstream m r.1, r.2)

/-- `subscriptions.match (…, mark_as_matching, this)`. -/
def markMatching (x : Xpub) (data : List UInt8) : Except PubSubFault Dist :=
  match x.subscriptions.matchPipes data with
  | .error e => .error (.trie e)
  | .ok calls =>
    match calls.foldlM Dist.matchPipe x.dist with
    | none => .error (.pattern .outOfBounds)
    | some d => .ok d

/-- `xpub_t::xsend`: the writes with their results, or `none` for `EAGAIN`. -/
def xsend (x : Xpub) (m : Msg) (links : Pipes) : Except PubSubFault (Option (List (ℕ × Bool)) × Xpub × Pipes) :=
  match if x.more then .ok x.dist else x.markMatching m.body with
  | .error e => .error e
  | .ok d =>
    if x.lossy || d.checkHwm links then
      match d.sendToMatching m links with
      | .error e => .error (.pattern e)
      | .ok (log, d, links) =>
        .ok (some log, { x with dist := if m.more then d else d.unmatch, more := m.more }, links)
    else .ok (none, { x with dist := d }, links)

/-- `xpub_t::xpipe_terminated`: what is passed upstream, and the new state. -/
def xpipeTerminated (x : Xpub) (p : ℕ) : Except PubSubFault (List (List UInt8 × MsgFlags) × Xpub) :=
  match x.subscriptions.rmPipe p with
  | .error e => .error (.trie e)
  | .ok (calls, t) =>
    -- `send_unsubscription`
    let out := if x.pub then [] else calls.map fun key => (0 :: key, MsgFlags.none)
    match x.dist.pipeTerminated p with
    | none => .error (.pattern .outOfBounds)
    | some d => .ok (out, { x with subscriptions := t, dist := d, pending := x.pending ++ out })

end Xpub

/-! ### The publisher and its pipes -/

/-- Who is subscribed to what. -/
abbrev Subscribed := Finset (List UInt8 × ℕ)

namespace Subscribed

/-- The prefixes somebody is subscribed to. -/
def topics (S : Subscribed) : Finset (List UInt8) := S.image Prod.fst

/-- A message from a pipe changes who is subscribed to what. -/
def apply (S : Subscribed) (p : ℕ) : List UInt8 → Subscribed
  | 0 :: key => S.erase (key, p)
  | 1 :: key => insert (key, p) S
  | _ => S

lemma apply_of_other {data : List UInt8} (h0 : ∀ key, data ≠ 0 :: key)
    (h1 : ∀ key, data ≠ 1 :: key) (S : Subscribed) (p : ℕ) : apply S p data = S := by
  unfold apply
  split
  · exact absurd rfl (h0 _)
  · exact absurd rfl (h1 _)
  · rfl

/-- The pipe is subscribed to a prefix of the data. -/
def Matches (S : Subscribed) (p : ℕ) (data : List UInt8) : Prop := ∃ x ∈ S, x.2 = p ∧ x.1 <+: data

instance (S : Subscribed) (p : ℕ) (data : List UInt8) : Decidable (S.Matches p data) :=
  inferInstanceAs (Decidable (∃ x ∈ S, _))

end Subscribed

/-- A frame that was accepted. -/
structure SentFrame where
  msg : Msg
  /-- The pipes it was written to. -/
  writtenTo : List ℕ
  /-- The pipes that were not being closed. -/
  opened : List ℕ

/-- A message of which some frames were accepted. -/
structure Publication where
  /-- The pipes that were writable and subscribed to a prefix of the first frame when that was
  accepted. -/
  audience : List ℕ
  frames : List SentFrame

/-- The message was written to its audience and to nobody else: every frame went to the pipes of the
audience that were not being closed by then, which for the first frame are all of them, and only once to
each. -/
structure Publication.Selective (pub : Publication) : Prop where
  first : ∀ f ∈ pub.frames.head?, ∀ p, p ∈ f.writtenTo ↔ p ∈ pub.audience
  all : ∀ f ∈ pub.frames, ∀ p, p ∈ f.writtenTo ↔ p ∈ pub.audience ∧ p ∈ f.opened
  once : ∀ f ∈ pub.frames, f.writtenTo.Nodup

/-- A change of subscriptions, or another message from a peer, and what was passed upstream. -/
structure Round where
  before : Subscribed
  after : Subscribed
  verbose : Bool
  /-- A new pipe was subscribed to everything, without a message. -/
  implicit : Bool
  passed : List (List UInt8)

/-- A subscription to a prefix was passed upstream exactly if there was none before and there is one now,
and a cancellation exactly if it is the other way round. -/
def Round.Exact (r : Round) : Prop :=
  ∀ key, r.passed.count (1 :: key) = (if key ∈ r.after.topics ∧ key ∉ r.before.topics then 1 else 0) ∧
    r.passed.count (0 :: key) = (if key ∈ r.before.topics ∧ key ∉ r.after.topics then 1 else 0)

/-- Every change begins where the one before it has ended. -/
def Chained : Subscribed → List Round → Subscribed → Prop
  | S, [], T => S = T
  | S, r :: rounds, T => r.before = S ∧ Chained r.after rounds T

/-- A publisher and its pipes. -/
structure XpubSystem where
  xpub : Xpub
  links : Pipes
  /-- The address of the next pipe. -/
  count : ℕ
  subscribed : Subscribed
  /-- The messages that were accepted, the newest first. -/
  sent : List Publication
  rounds : List Round
  /-- What the application has received. -/
  received : List (List UInt8 × MsgFlags)

/-- What a publisher does with a pipe besides reading and writing. -/
def EndAct.Manages : EndAct → Prop
  | .terminate _ | .setNodelay | .deliver => True
  | _ => False

/-- A step of the system. -/
inductive XpubAct
  /-- A new pipe is attached, possibly with a subscription to everything. -/
  | attach (hwm₀ hwm₁ : ℤ) (subscribeToAll : Bool)
  /-- The option `ZMQ_XPUB_VERBOSE`. -/
  | setVerbose (verbose : Bool)
  /-- The option `ZMQ_XPUB_NODROP`. -/
  | setNodrop (nodrop : Bool)
  /-- The application sends a frame. -/
  | send (flags : MsgFlags) (body : List UInt8)
  /-- The application receives a message. -/
  | recv
  /-- The socket reads a message from a pipe. The loop in `xread_activated` makes this step until there
  is nothing left. -/
  | read (pipe : ℕ)
  /-- The socket does something else with a pipe. -/
  | owner (pipe : ℕ) (act : { a : EndAct // a.Manages })
  /-- The peer of a pipe does something. -/
  | peer (pipe : ℕ) (act : EndAct)

/-- The prefix for which the next message cancels a subscription, if it does. -/
def Link.cancels (s : Link) : Option (List UInt8) :=
  match s.read with
  | .ok (some m, _) =>
    match m.body with
    | 0 :: key => some key
    | _ => none
  | _ => none

namespace XpubSystem

/-- No pipes, nothing sent. -/
def new (pub : Bool) : XpubSystem := ⟨Xpub.new pub, fun _ => Link.pipepair 0 0, 0, ∅, [], [], []⟩

/-- The pipe exists. -/
def Alive (s : XpubSystem) (p : ℕ) : Prop := p < s.count ∧ (s.links p).near.frees = 0

instance (s : XpubSystem) (p : ℕ) : Decidable (s.Alive p) := inferInstanceAs (Decidable (_ ∧ _))

/-- The pipes that are not being closed. -/
def opened (s : XpubSystem) : List ℕ :=
  (List.range s.count).filter fun p => s.Alive p ∧ (s.links p).near.pipe.state = .active

/-- The pipes that are writable and subscribed to a prefix of the frame. -/
def audience (s : XpubSystem) (body : List UInt8) : List ℕ :=
  (List.range s.count).filter fun p =>
    s.Alive p ∧ (s.links p).checkWrite.1 = true ∧ s.subscribed.Matches p body

/-- The messages after a frame was accepted. -/
def publish (s : XpubSystem) (m : Msg) (log : List (ℕ × Bool)) : List Publication :=
  let frame : SentFrame := ⟨m, (log.filter Prod.snd).map Prod.fst, s.opened⟩
  match s.xpub.more, s.sent with
  | true, pub :: rest => { pub with frames := pub.frames ++ [frame] } :: rest
  | true, [] => []
  | false, sent => ⟨s.audience m.body, [frame]⟩ :: sent

/-- Subscriptions change, and something is passed upstream. -/
def pass (s : XpubSystem) (after : Subscribed) (implicit : Bool) (out : List (List UInt8 × MsgFlags)) :
    XpubSystem :=
  { s with
    subscribed := after
    rounds := s.rounds ++ [⟨s.subscribed, after, s.xpub.verbose, implicit, out.map Prod.fst⟩] }

/-- `xpub_t::xattach_pipe`, except for reading the subscriptions. -/
def xattachPipe (s : XpubSystem) (l : Link) (subscribeToAll : Bool) :
    Except PubSubFault XpubSystem :=
  match s.xpub.dist.attach s.count with
  | none => .error (.pattern .outOfBounds)
  | some d =>
    let s' := { s with
      xpub := { s.xpub with dist := d }
      links := update s.links s.count l
      count := s.count + 1 }
    if subscribeToAll then
      match s.xpub.subscriptions.add [] s.count with
      | .error e => .error (.trie e)
      | .ok (_, t) => .ok { s'.pass (insert ([], s.count) s.subscribed) true [] with
          xpub := { s.xpub with dist := d, subscriptions := t } }
    else .ok s'

/-- A round of the loop in `xpub_t::xread_activated`. -/
def xread (s : XpubSystem) (p : ℕ) : Except PubSubFault XpubSystem :=
  match (s.links p).read with
  | .error e => .error (.pattern (.pipe e))
  | .ok (none, l) => .ok { s with links := update s.links p l }
  | .ok (some m, l) =>
    match s.xpub.readSubscription p m with
    | .error e => .error (.trie e)
    | .ok (out, t) => .ok { s.pass (s.subscribed.apply p m.body) false out with
        xpub := { s.xpub with subscriptions := t, pending := s.xpub.pending ++ out }
        links := update s.links p l }

/-- An event of a pipe reaches the socket. -/
def react (s : XpubSystem) (p : ℕ) : Option SinkEvent → Except PubSubFault XpubSystem
  | some .writeActivated =>
    match s.xpub.dist.activated p with
    | none => .error (.pattern .outOfBounds)
    | some d => .ok { s with xpub := { s.xpub with dist := d } }
  | some .pipeTerminated =>
    match s.xpub.xpipeTerminated p with
    | .error e => .error e
    | .ok (out, x) => .ok { s.pass (s.subscribed.filter fun x => x.2 ≠ p) false out with xpub := x }
  | _ => .ok s

/-- One step. Acts on pipes that do not exist do nothing. -/
def step (s : XpubSystem) : XpubAct → Except PubSubFault XpubSystem
  | .attach hwm₀ hwm₁ subscribeToAll => s.xattachPipe (Link.pipepair hwm₀ hwm₁) subscribeToAll
  | .setVerbose verbose => .ok { s with xpub := { s.xpub with verbose := verbose } }
  | .setNodrop nodrop => .ok { s with xpub := { s.xpub with lossy := !nodrop } }
  | .send flags body =>
    match s.xpub.xsend ⟨.data, flags, body⟩ s.links with
    | .error e => .error e
    | .ok (none, x, links) => .ok { s with xpub := x, links := links }
    | .ok (some log, x, links) => .ok { s with
        xpub := x
        links := links
        sent := s.publish ⟨.data, flags, body⟩ log }
  | .recv =>
    match s.xpub.pending with
    | [] => .ok s
    | m :: pending => .ok { s with
        xpub := { s.xpub with pending := pending }
        received := s.received ++ [m] }
  | .read p => if s.Alive p then s.xread p else .ok s
  | .owner p a =>
    if p < s.count then
      match (s.links p).socketAct a.1 with
      | .error e => .error (.pattern (.pipe e))
      | .ok (l, e) => { s with links := update s.links p l }.react p e
    else .ok s
  | .peer p a =>
    if p < s.count then
      match (s.links p).swap.act a with
      | .error e => .error (.pattern (.pipe e))
      | .ok (l, _) => .ok { s with links := update s.links p l.swap }
    else .ok s

/-- A sequence of steps. -/
def run (s : XpubSystem) (acts : List XpubAct) : Except PubSubFault XpubSystem := runSteps step s acts

/-- A pipe only cancels what it is subscribed to, or a prefix that nothing anybody is subscribed to
begins with. -/
def Polite (s : XpubSystem) : XpubAct → Prop
  | .read p => ∀ key ∈ (s.links p).cancels,
    (key, p) ∈ s.subscribed ∨ (key ≠ [] ∧ ∀ x ∈ s.subscribed, ¬key <+: x.1)
  | _ => True

instance (s : XpubSystem) (a : XpubAct) : Decidable (s.Polite a) :=
  match a with
  | .read _ => inferInstanceAs (Decidable (∀ key ∈ _, _ ∨ _))
  | .attach _ _ _ | .setVerbose _ | .setNodrop _ | .send _ _ | .recv | .owner _ _ | .peer _ _ =>
    inferInstanceAs (Decidable True)

/-- No pipe is marked as matching that can be written to and is not subscribed to a prefix of the first
frame. -/
def Fresh (s : XpubSystem) : XpubAct → Prop
  | .send _ body => s.xpub.more = false →
    ∀ p ∈ s.xpub.dist.pipes.items.take s.xpub.dist.matching,
      (s.links p).checkWrite.1 = true → s.subscribed.Matches p body
  | _ => True

instance (s : XpubSystem) (a : XpubAct) : Decidable (s.Fresh a) :=
  match a with
  | .send _ _ => inferInstanceAs (Decidable (_ → ∀ p ∈ _, _))
  | .attach _ _ _ | .setVerbose _ | .setNodrop _ | .recv | .read _ | .owner _ _ | .peer _ _ =>
    inferInstanceAs (Decidable True)

end XpubSystem

end Zmq
