import ZeroMQ.Czmq.ZgossipMsg

/-!
# A network of gossip nodes

A node has a table of tuples. When it accepts a tuple that is not in its table, from its application, from a client
or from a remote, it stores the tuple, delivers it to the application, and announces it to every client and every
remote, also to the one it has come from.

A link is made by a `CONNECT` command: the source has a remote with a socket of its own, and the target a client
for it from the first message on. The messages on a link are in two queues. A client may expire; it is then
forgotten, and the next message makes a new one, which expects a `HELLO`.
-/

namespace Czmq

variable {N : Type} [DecidableEq N]

/-- `server_t`. -/
structure GossipNode where
  /-- `tuples`: what is in the hash table. -/
  tuples : AList fun _ : CString => CString
  /-- The tuples that have been stored. -/
  stored : List Tuple
  /-- The tuples of the `DELIVER` messages to the application. -/
  delivered : List Tuple
  /-- The tuples that have been announced to the clients and the remotes. -/
  forwarded : List Tuple
  /-- The loop of the node runs. -/
  running : Bool

/-- `s_server_new`. -/
def GossipNode.new : GossipNode := ⟨∅, [], [], [], true⟩

/-- What `server_accept` does with the table and the application. -/
def GossipNode.store (node : GossipNode) (tuple : Tuple) : GossipNode :=
  { node with
    tuples := node.tuples.insert tuple.1 tuple.2
    stored := node.stored ++ [tuple]
    delivered := node.delivered ++ [tuple]
    forwarded := node.forwarded ++ [tuple] }

/-- An order in which `zhash_first` and `zhash_next` visit the items of a table. -/
structure Walk where
  /-- The tuples in the order they are visited in. -/
  order : AList (fun _ : CString => CString) → List Tuple
  /-- Every item is visited once. -/
  perm : ∀ tuples, (order tuples).Perm tuples.entries

/-! ### Links -/

/-- `state_t`; the state `have_tuple` is left before another event is handled. -/
inductive GossipState
  | start
  | connected
  | external
  deriving DecidableEq, Repr

/-- `event_t`, with the tuples that the actions read. -/
inductive GossipEvent
  /-- `tuples` are what `get_first_tuple` and `get_next_tuple` find. -/
  | hello (tuples : List Tuple)
  | publish (tuple : Tuple)
  | ping
  | expired
  | forward (tuple : Tuple)
  | terminate

/-- A remote of one node, with the client it is at another node. -/
structure GossipLink (N : Type) where
  /-- The node that was told to connect. -/
  source : N
  /-- The node it is connected to. -/
  target : N
  /-- The frames on the way to the target. -/
  up : List (List UInt8)
  /-- The frames on the way to the source. -/
  down : List (List UInt8)
  /-- `s_client_t` at the target. -/
  client : Option GossipState

namespace GossipLink

/-- `send INVALID` and `terminate`. -/
def reject (l : GossipLink N) : GossipLink N :=
  { l with down := l.down ++ [ZgossipMsg.encode .invalid], client := none }

/-- `send PUBLISH` for some tuples. -/
def sendDown (l : GossipLink N) (tuples : List Tuple) : Except GossipFault (GossipLink N) := do
  let frames ← tuples.mapM sendPublish
  .ok { l with down := l.down ++ frames, client := some .connected }

/-- `s_client_execute` of a client in a state, but for a `PUBLISH` that is accepted. -/
def execute (l : GossipLink N) : GossipState → GossipEvent → Except GossipFault (GossipLink N)
  | .start, .hello tuples => l.sendDown tuples
  | .connected, .forward tuple => l.sendDown [tuple]
  | state, .ping => .ok { l with down := l.down ++ [ZgossipMsg.encode .pong], client := some state }
  | _, .expired => .ok { l with client := none }
  | _, _ => .ok l.reject

/-- `engine_broadcast_event`, for the client of a link. -/
def tellClient (n : N) (tuple : Tuple) (l : GossipLink N) : Except GossipFault (GossipLink N) :=
  match l.client with
  | some state => if l.target = n then l.execute state (.forward tuple) else .ok l
  | none => .ok l

/-- The loop of `server_accept` over the remotes, for the remote of a link. -/
def tellRemote (n : N) (tuple : Tuple) (l : GossipLink N) : Except GossipFault (GossipLink N) :=
  if l.source = n then do
    let frame ← sendPublish tuple
    .ok { l with up := l.up ++ [frame] }
  else .ok l

/-- The part of `server_accept` that is about one link. -/
def announce (n : N) (tuple : Tuple) (l : GossipLink N) : Except GossipFault (GossipLink N) := do
  let l ← l.tellClient n tuple
  l.tellRemote n tuple

end GossipLink

/-! ### The network -/

/-- The nodes and the links between them. -/
structure GossipNet (N : Type) where
  node : N → GossipNode
  links : List (GossipLink N)

/-- What can happen. -/
inductive GossipAct (N : Type)
  /-- `CONNECT`, with the address of a node. -/
  | connect (source target : N) (walk : Walk)
  | publish (n : N) (tuple : Tuple)
  /-- The target of a link gets the next message. -/
  | deliverUp (i : ℕ) (walk : Walk)
  /-- The source of a link gets the next message. -/
  | deliverDown (i : ℕ)
  /-- The target has not heard of a client for some time. -/
  | expire (i : ℕ)

namespace GossipNet

/-- No node has a tuple or a link. -/
def new : GossipNet N := ⟨fun _ => .new, []⟩

/-- A link changes. -/
def setLink (net : GossipNet N) (i : ℕ) (l : GossipLink N) : GossipNet N := { net with links := net.links.set i l }

/-- A handler returns an error, and the loop of the node ends. -/
def stop (net : GossipNet N) (n : N) : GossipNet N :=
  { net with node := Function.update net.node n { net.node n with running := false } }

/-- `server_accept`. -/
def serverAccept (net : GossipNet N) (n : N) (tuple : Tuple) : Except GossipFault (GossipNet N) :=
  if (net.node n).tuples.lookup tuple.1 = some tuple.2 then .ok net
  else do
    let links ← net.links.mapM (GossipLink.announce n tuple)
    .ok { node := Function.update net.node n ((net.node n).store tuple), links }

/-- `server_connect`. -/
def serverConnect (net : GossipNet N) (source target : N) (walk : Walk) : Except GossipFault (GossipNet N) := do
  let frames ← (walk.order (net.node source).tuples).mapM sendPublish
  .ok { net with links := net.links ++ [⟨source, target, ZgossipMsg.encode .hello :: frames, [], none⟩] }

/-- `s_protocol_event`. -/
def protocolEvent (tuples : List Tuple) : ZgossipMsg → GossipEvent
  | .hello => .hello tuples
  | .publish key value _ => .publish ⟨key, value⟩
  | .ping => .ping
  | .pong | .invalid => .terminate

/-- `s_server_client_message` for a message that has been decoded; a client that is not known is new. -/
def clientMessage (net : GossipNet N) (i : ℕ) (l : GossipLink N) (walk : Walk) (msg : ZgossipMsg) :
    Except GossipFault (GossipNet N) :=
  match l.client.getD .start, protocolEvent (walk.order (net.node l.target).tuples) msg with
  | .connected, .publish tuple => (net.setLink i l).serverAccept l.target tuple
  | state, event => (l.execute state event).map (net.setLink i)

/-- `remote_handler` for a message that has been decoded. -/
def remoteMessage (net : GossipNet N) (i : ℕ) (l : GossipLink N) : ZgossipMsg → Except GossipFault (GossipNet N)
  | .publish key value _ => (net.setLink i l).serverAccept l.source ⟨key, value⟩
  | .invalid => .ok (net.setLink i { l with up := l.up ++ [ZgossipMsg.encode .hello] })
  | .hello | .ping | .pong => .ok (net.setLink i l)

/-- The target of a link reads a frame. -/
def deliverUp (net : GossipNet N) (i : ℕ) (walk : Walk) (l : GossipLink N) : Except GossipFault (GossipNet N) :=
  match (net.node l.target).running, l.up with
  | true, frame :: up =>
    match ZgossipMsg.decode frame with
    | some msg => net.clientMessage i { l with up } walk msg
    | none => .ok ((net.setLink i { l with up }).stop l.target)
  | _, _ => .ok net

/-- The source of a link reads a frame. -/
def deliverDown (net : GossipNet N) (i : ℕ) (l : GossipLink N) : Except GossipFault (GossipNet N) :=
  match (net.node l.source).running, l.down with
  | true, frame :: down =>
    match ZgossipMsg.decode frame with
    | some msg => net.remoteMessage i { l with down } msg
    | none => .ok ((net.setLink i { l with down }).stop l.source)
  | _, _ => .ok net

/-- A client expires. -/
def expire (net : GossipNet N) (i : ℕ) (l : GossipLink N) : Except GossipFault (GossipNet N) :=
  match (net.node l.target).running, l.client with
  | true, some state => (l.execute state .expired).map (net.setLink i)
  | _, _ => .ok net

/-- A link does something, if there is one. -/
def atLink (net : GossipNet N) (i : ℕ) (f : GossipLink N → Except GossipFault (GossipNet N)) :
    Except GossipFault (GossipNet N) :=
  match net.links[i]? with
  | some l => f l
  | none => .ok net

/-- One step; a node whose loop has ended does nothing. -/
def step (net : GossipNet N) : GossipAct N → Except GossipFault (GossipNet N)
  | .connect source target walk =>
    if (net.node source).running then net.serverConnect source target walk else .ok net
  | .publish n tuple => if (net.node n).running then net.serverAccept n tuple else .ok net
  | .deliverUp i walk => net.atLink i (net.deliverUp i walk)
  | .deliverDown i => net.atLink i (net.deliverDown i)
  | .expire i => net.atLink i (net.expire i)

end GossipNet

end Czmq
