import ZeroMQ.Czmq.Zgossip

/-!
# What a step of a gossip network does

`GossipLink.Evolves` says what a step can do to a link, and `GossipNet.Stepped` what it can do to a network, when
every tuple that is sent is received as it is. Such a network stays `Wired`: every node runs, a client is
connected or not known, and there are only messages on the way that the nodes send.
-/

namespace Czmq

open Function List Option

variable {N : Type} [DecidableEq N]

/-! ### Accepting a tuple -/

lemma mapM_ok {α β ε : Type} {f : α → Except ε β} {g : α → β} {items : List α}
    (h : ∀ item ∈ items, f item = .ok (g item)) : items.mapM f = .ok (items.map g) := by
  induction items with
  | nil => rfl
  | cons item items ih =>
    rw [mapM_cons, h item mem_cons_self, ih fun other hother => h other (mem_cons_of_mem item hother)]
    rfl

/-- The tuple is in the table of the node. -/
def GossipNode.Holds (node : GossipNode) (t : Tuple) : Prop := node.tuples.lookup t.1 = some t.2

instance (node : GossipNode) (t : Tuple) : Decidable (node.Holds t) :=
  inferInstanceAs (Decidable (node.tuples.lookup t.1 = some t.2))

/-- A node stores a tuple. -/
def storeAt (node : N → GossipNode) (n : N) (t : Tuple) : N → GossipNode :=
  update node n ((node n).store t)

section Store

variable {node : N → GossipNode} {n m : N} {t : Tuple}

lemma lookup_storeAt_self : (storeAt node n t m).tuples.lookup t.1 =
    if m = n then some t.2 else (node m).tuples.lookup t.1 := by
  by_cases hm : m = n
  · subst hm
    rw [storeAt, update_self, if_pos rfl]
    exact AList.lookup_insert _
  · rw [storeAt, update_of_ne hm, if_neg hm]

lemma lookup_storeAt_ne {k : CString} (hk : k ≠ t.1) :
    (storeAt node n t m).tuples.lookup k = (node m).tuples.lookup k := by
  by_cases hm : m = n
  · subst hm
    rw [storeAt, update_self]
    exact AList.lookup_insert_ne hk
  · rw [storeAt, update_of_ne hm]

lemma storeAt_of_ne (hm : m ≠ n) : storeAt node n t m = node m := update_of_ne hm _ _

lemma holds_storeAt_self : (storeAt node n t n).Holds t := lookup_storeAt_self.trans (if_pos rfl)

lemma holds_storeAt {t' : Tuple} (h : (storeAt node n t m).Holds t') : (node m).Holds t' ∨ m = n ∧ t' = t := by
  rw [GossipNode.Holds] at h
  by_cases hk : t'.1 = t.1
  · rw [hk, lookup_storeAt_self] at h
    split at h
    · rename_i hm
      exact .inr ⟨hm, Sigma.ext hk (heq_of_eq (some.inj h).symm)⟩
    · rw [← hk] at h
      exact .inl h
  · rw [lookup_storeAt_ne hk] at h
    exact .inl h

lemma stored_storeAt : (storeAt node n t m).stored =
    if m = n then (node m).stored ++ [t] else (node m).stored := by
  by_cases hm : m = n
  · subst hm
    rw [storeAt, update_self, if_pos rfl]
    rfl
  · rw [storeAt, update_of_ne hm, if_neg hm]

lemma logs_storeAt (h : (node m).delivered = (node m).stored ∧ (node m).forwarded = (node m).stored) :
    (storeAt node n t m).delivered = (storeAt node n t m).stored ∧
      (storeAt node n t m).forwarded = (storeAt node n t m).stored := by
  by_cases hm : m = n
  · subst hm
    rw [storeAt, update_self]
    exact ⟨congrArg (· ++ [t]) h.1, congrArg (· ++ [t]) h.2⟩
  · rw [storeAt, update_of_ne hm]
    exact h

lemma running_storeAt : (storeAt node n t m).running = (node m).running := by
  by_cases hm : m = n
  · subst hm
    rw [storeAt, update_self]
    rfl
  · rw [storeAt, update_of_ne hm]

end Store

namespace GossipLink

/-- The link is used when the node announces a tuple. -/
def Joined (l : GossipLink N) (n : N) : Prop := l.source = n ∨ l.target = n ∧ l.client ≠ none

/-- A client is connected or not known. -/
def Settled (l : GossipLink N) : Prop := l.client = none ∨ l.client = some .connected

/-- The link after a tuple has been announced by a node. -/
def told (l : GossipLink N) (n : N) (t : Tuple) : GossipLink N :=
  { l with
    up := if l.source = n then l.up ++ [t.frame] else l.up
    down := if l.client = some .connected ∧ l.target = n then l.down ++ [t.frame] else l.down }

lemma announce_eq {l : GossipLink N} {n : N} {t : Tuple} (hsettled : l.Settled)
    (hsend : l.Joined n → Sendable t) : l.announce n t = .ok (l.told n t) := by
  have hclient : l.tellClient n t = .ok { l with
      down := if l.client = some .connected ∧ l.target = n then l.down ++ [t.frame] else l.down } := by
    rcases hsettled with hnone | hconnected
    · have hquiet : l.tellClient n t = .ok l := by rw [tellClient, hnone]
      rw [hquiet, if_neg fun h => by rw [hnone] at h; exact absurd h.1 nofun]
    rw [tellClient, hconnected]
    by_cases htarget : l.target = n
    · have hsendable : Sendable t := hsend (.inr ⟨htarget, by rw [hconnected]; exact nofun⟩)
      rw [if_pos ⟨rfl, htarget⟩]
      change (if l.target = n then l.execute .connected (.forward t) else .ok l) = _
      rw [if_pos htarget, execute, sendDown, mapM_cons, hsendable.send]
      rfl
    · rw [if_neg fun h => htarget h.2]
      change (if l.target = n then l.execute .connected (.forward t) else .ok l) = _
      rw [if_neg htarget, ← hconnected]
  have hremote : ∀ l' : GossipLink N, l'.source = l.source → l'.tellRemote n t =
      .ok { l' with up := if l'.source = n then l'.up ++ [t.frame] else l'.up } := by
    intro l' hsource
    rw [tellRemote]
    by_cases hn : l'.source = n
    · rw [if_pos hn, if_pos hn, (hsend (.inl (hsource.symm.trans hn))).send]
      rfl
    · rw [if_neg hn, if_neg hn]
  rw [announce, hclient]
  exact hremote _ rfl

end GossipLink

lemma GossipNet.serverAccept_eq {net : GossipNet N} {n : N} {t : Tuple} (hsettled : ∀ l ∈ net.links, l.Settled)
    (hsend : ∀ l ∈ net.links, l.Joined n → Sendable t) : net.serverAccept n t =
      .ok (if (net.node n).Holds t then net else ⟨storeAt net.node n t, net.links.map (·.told n t)⟩) := by
  by_cases hholds : (net.node n).Holds t
  · rw [if_pos hholds]
    exact if_pos hholds
  rw [if_neg hholds]
  refine (if_neg hholds).trans ?_
  rw [mapM_ok fun l hl => GossipLink.announce_eq (hsettled l hl) (hsend l hl)]
  rfl

/-! ### Steps -/

/-- What a step may do to the link with an index; the nodes are `node` before it and `node'` after it. -/
inductive GossipLink.Evolves (act : GossipAct N) (i : ℕ) (node node' : N → GossipNode) :
    GossipLink N → GossipLink N → Prop
  /-- Nothing happens at the link. -/
  | stay {l : GossipLink N} : node' = node → Evolves act i node node' l l
  /-- A node stores a tuple that does not come from the link. -/
  | told {l : GossipLink N} {n : N} {t : Tuple} : ¬(node n).Holds t → (l.Joined n → Sendable t) →
      node' = storeAt node n t → Evolves act i node node' l (l.told n t)
  /-- The target gets a tuple it has. -/
  | sameUp {l : GossipLink N} {t : Tuple} {up : List (List UInt8)} : l.up = t.frame :: up → Sendable t →
      l.client = some .connected → (node l.target).Holds t → node' = node →
      Evolves act i node node' l { l with up }
  /-- The target stores a tuple. -/
  | takeUp {l : GossipLink N} {t : Tuple} {up : List (List UInt8)} : l.up = t.frame :: up → Sendable t →
      l.client = some .connected → ¬(node l.target).Holds t → node' = storeAt node l.target t →
      Evolves act i node node' l (({ l with up } : GossipLink N).told l.target t)
  /-- The target gets a tuple from a client it does not know. -/
  | missed {l : GossipLink N} {t : Tuple} {up : List (List UInt8)} {walk : Walk} : l.up = t.frame :: up →
      Sendable t → l.client = none → act = .deliverUp i walk → node' = node →
      Evolves act i node node' l ({ l with up } : GossipLink N).reject
  /-- A client says hello, and is told all tuples. -/
  | greeted {l : GossipLink N} {up : List (List UInt8)} {tuples : List Tuple} :
      l.up = ZgossipMsg.encode .hello :: up → l.client = none →
      tuples.Perm (node l.target).tuples.entries → (∀ t ∈ tuples, Sendable t) → node' = node →
      Evolves act i node node' l
        { l with up, down := l.down ++ tuples.map Tuple.frame, client := some .connected }
  /-- A client that is known says hello. -/
  | reset {l : GossipLink N} {up : List (List UInt8)} : l.up = ZgossipMsg.encode .hello :: up →
      l.client = some .connected → node' = node → Evolves act i node node' l ({ l with up } : GossipLink N).reject
  /-- The source gets a tuple it has. -/
  | sameDown {l : GossipLink N} {t : Tuple} {down : List (List UInt8)} : l.down = t.frame :: down → Sendable t →
      (node l.source).Holds t → node' = node → Evolves act i node node' l { l with down }
  /-- The source stores a tuple. -/
  | takeDown {l : GossipLink N} {t : Tuple} {down : List (List UInt8)} : l.down = t.frame :: down → Sendable t →
      ¬(node l.source).Holds t → node' = storeAt node l.source t →
      Evolves act i node node' l (({ l with down } : GossipLink N).told l.source t)
  /-- The source is told that it is not known, and says hello again. -/
  | answered {l : GossipLink N} {down : List (List UInt8)} : l.down = ZgossipMsg.encode .invalid :: down →
      node' = node → Evolves act i node node' l { l with down, up := l.up ++ [ZgossipMsg.encode .hello] }
  /-- The client expires. -/
  | expired {l : GossipLink N} : act = .expire i → node' = node → Evolves act i node node' l { l with client := none }

/-- A client is connected or not known, and only messages that nodes send are on the way. -/
structure GossipLink.Wired (l : GossipLink N) : Prop where
  settled : l.Settled
  up : ∀ frame ∈ l.up, frame = ZgossipMsg.encode .hello ∨ ∃ t, Sendable t ∧ frame = Tuple.frame t
  down : ∀ frame ∈ l.down, frame = ZgossipMsg.encode .invalid ∨ ∃ t, Sendable t ∧ frame = Tuple.frame t

/-- A link that is made by a step. -/
inductive GossipLink.Begins (act : GossipAct N) (node : N → GossipNode) : GossipLink N → Prop
  | connect {source target : N} {walk : Walk} {tuples : List Tuple} : act = .connect source target walk →
      tuples.Perm (node source).tuples.entries → (∀ t ∈ tuples, Sendable t) →
      Begins act node ⟨source, target, ZgossipMsg.encode .hello :: tuples.map Tuple.frame, [], none⟩

/-- Where a tuple that is stored comes from. -/
def GossipNet.Comes (net : GossipNet N) (act : GossipAct N) (n : N) (t : Tuple) : Prop :=
  act = .publish n t ∨ Sendable t ∧ ∃ l ∈ net.links, t.frame ∈ l.up ∨ t.frame ∈ l.down

namespace GossipNet

/-- What a step does to a network. -/
structure Stepped (net : GossipNet N) (act : GossipAct N) (net' : GossipNet N) : Prop where
  node : net'.node = net.node ∨ ∃ n t, ¬(net.node n).Holds t ∧ net.Comes act n t ∧ net'.node = storeAt net.node n t
  links : ∀ (i : ℕ) (l' : GossipLink N), net'.links[i]? = some l' →
    (∃ l : GossipLink N, net.links[i]? = some l ∧ l.Evolves act i net.node net'.node l') ∨
      net.links[i]? = none ∧ net'.node = net.node ∧ l'.Begins act net.node
  grows : ∀ (i : ℕ) (l : GossipLink N), net.links[i]? = some l →
    ∃ l', net'.links[i]? = some l' ∧ l.Evolves act i net.node net'.node l'

/-- The nodes run, and the links are as they should be. -/
structure Wired (net : GossipNet N) : Prop where
  running : ∀ n, (net.node n).running = true
  links : ∀ l ∈ net.links, l.Wired

/-- The tuples a step may send. -/
def Sends (net : GossipNet N) : GossipAct N → Tuple → Prop
  | .connect source _ _, t => t ∈ (net.node source).tuples.entries
  | .publish n tuple, t => t = tuple ∧ ∃ l ∈ net.links, l.Joined n
  | .deliverUp i _, t => ∃ l, net.links[i]? = some l ∧ l.client = none ∧
      l.up.head? = some (ZgossipMsg.encode .hello) ∧ t ∈ (net.node l.target).tuples.entries
  | .deliverDown _, _ | .expire _, _ => False

/-- What a step sends is received as it is. -/
def Plain (net : GossipNet N) (act : GossipAct N) : Prop := ∀ t, net.Sends act t → Sendable t

section Step

variable {net net' : GossipNet N} {act : GossipAct N} {i : ℕ} {l l₁ : GossipLink N} {n : N} {t : Tuple}

lemma Stepped.of_length (hlength : net'.links.length = net.links.length)
    (hnode : net'.node = net.node ∨ ∃ n t, ¬(net.node n).Holds t ∧ net.Comes act n t ∧
      net'.node = storeAt net.node n t)
    (hevolves : ∀ (j : ℕ) (l l' : GossipLink N), net.links[j]? = some l → net'.links[j]? = some l' →
      l.Evolves act j net.node net'.node l') : net.Stepped act net' where
  node := hnode
  links := by
    intro j l' hl'
    obtain ⟨hj, -⟩ := List.getElem?_eq_some_iff.mp hl'
    have hl : net.links[j]? = some net.links[j] := List.getElem?_eq_getElem (hlength ▸ hj)
    exact .inl ⟨_, hl, hevolves j _ l' hl hl'⟩
  grows := by
    intro j l hl
    obtain ⟨hj, -⟩ := List.getElem?_eq_some_iff.mp hl
    have hj' : j < net'.links.length := hlength.symm ▸ hj
    have hl' : net'.links[j]? = some net'.links[j] := List.getElem?_eq_getElem hj'
    exact ⟨_, hl', hevolves j l _ hl hl'⟩

lemma Stepped.refl : net.Stepped act net :=
  .of_length rfl (.inl rfl) fun j l l' hl hl' => by
    obtain rfl := some.inj (hl.symm.trans hl')
    exact .stay rfl

lemma Stepped.setLink (hl : net.links[i]? = some l) (h : l.Evolves act i net.node net.node l1) :
    net.Stepped act (net.setLink i l1) :=
  .of_length (List.length_set) (.inl rfl) fun j l' l'' hl' hl'' => by
    obtain ⟨hi, -⟩ := List.getElem?_eq_some_iff.mp hl
    change (net.links.set i l1)[j]? = some l'' at hl''
    by_cases hj : i = j
    · subst hj
      rw [List.getElem?_set_self hi] at hl''
      obtain rfl := some.inj hl''
      obtain rfl := some.inj (hl.symm.trans hl')
      exact h
    · rw [List.getElem?_set_ne hj] at hl''
      obtain rfl := some.inj (hl'.symm.trans hl'')
      exact .stay rfl

lemma Stepped.publish (hholds : ¬(net.node n).Holds t) (hsend : ∀ l ∈ net.links, l.Joined n → Sendable t) :
    net.Stepped (.publish n t) ⟨storeAt net.node n t, net.links.map (·.told n t)⟩ :=
  .of_length (length_map _) (.inr ⟨n, t, hholds, .inl rfl, rfl⟩) fun j l l' hl hl' => by
    rw [getElem?_map, hl] at hl'
    obtain rfl := some.inj hl'
    exact .told hholds (hsend l (mem_of_getElem? hl)) rfl

lemma Stepped.take (hl : net.links[i]? = some l) (hholds : ¬(net.node n).Holds t) (hsend : Sendable t)
    (hcomes : net.Comes act n t) (h : l.Evolves act i net.node (storeAt net.node n t) (l1.told n t)) :
    net.Stepped act ⟨storeAt net.node n t, (net.links.set i l1).map (·.told n t)⟩ :=
  .of_length (by rw [List.length_map, List.length_set]) (.inr ⟨n, t, hholds, hcomes, rfl⟩)
    fun j l' l'' hl' hl'' => by
      obtain ⟨hi, -⟩ := List.getElem?_eq_some_iff.mp hl
      rw [List.getElem?_map] at hl''
      by_cases hj : i = j
      · subst hj
        rw [List.getElem?_set_self hi] at hl''
        obtain rfl := some.inj hl''
        obtain rfl := some.inj (hl.symm.trans hl')
        exact h
      · rw [List.getElem?_set_ne hj, hl'] at hl''
        obtain rfl := some.inj hl''
        exact .told hholds (fun _ => hsend) rfl

lemma connect_spec {source target : N} {walk : Walk}
    (hplain : net.Plain (.connect source target walk)) :
    ∃ net', net.serverConnect source target walk = .ok net' ∧ net.Stepped (.connect source target walk) net' := by
  have hsend : ∀ t ∈ walk.order (net.node source).tuples, Sendable t :=
    fun t ht => hplain t ((walk.perm _).subset ht)
  refine ⟨{ net with links := net.links ++ [⟨source, target, ZgossipMsg.encode .hello ::
    (walk.order (net.node source).tuples).map Tuple.frame, [], none⟩] }, ?_, .inl rfl, ?_, ?_⟩
  · rw [serverConnect, mapM_ok fun t ht => (hsend t ht).send]
    rfl
  · intro j l' hl'
    by_cases hj : j < net.links.length
    · rw [List.getElem?_append_left hj] at hl'
      exact .inl ⟨l', hl', .stay rfl⟩
    · rw [List.getElem?_append_right (Nat.le_of_not_lt hj)] at hl'
      obtain rfl := List.mem_singleton.mp (List.mem_of_getElem? hl')
      exact .inr ⟨List.getElem?_eq_none (Nat.le_of_not_lt hj), rfl, .connect rfl (walk.perm _) hsend⟩
  · intro j l hl
    refine ⟨l, ?_, .stay rfl⟩
    obtain ⟨hj, -⟩ := List.getElem?_eq_some_iff.mp hl
    exact (List.getElem?_append_left hj).trans hl

omit [DecidableEq N] in
lemma Wired.settled_set (h : net.Wired) (hl1 : l1.Settled) : ∀ l ∈ net.links.set i l1, l.Settled := by
  intro l hl
  rcases mem_or_eq_of_mem_set hl with hl | rfl
  · exact (h.links l hl).settled
  · exact hl1

lemma Wired.accept (h : net.Wired) (hl : net.links[i]? = some l) (hl1 : l1.Settled) (hsend : Sendable t)
    (hcomes : net.Comes act n t)
    (hsame : (net.node n).Holds t → l.Evolves act i net.node net.node l1)
    (htake : ¬(net.node n).Holds t → l.Evolves act i net.node (storeAt net.node n t) (l1.told n t)) :
    ∃ net', (net.setLink i l1).serverAccept n t = .ok net' ∧ net.Stepped act net' := by
  refine ⟨_, serverAccept_eq (h.settled_set hl1) fun _ _ _ => hsend, ?_⟩
  change net.Stepped act (if (net.node n).Holds t then net.setLink i l1 else
    ⟨storeAt net.node n t, (net.links.set i l1).map (·.told n t)⟩)
  by_cases hholds : (net.node n).Holds t
  · rw [if_pos hholds]
    exact .setLink hl (hsame hholds)
  · rw [if_neg hholds]
    exact .take hl hholds hsend hcomes (htake hholds)

lemma clientMessage_publish {walk : Walk} {key value : CString} {ttl : ℕ} (hclient : l.client = some .connected) :
    net.clientMessage i l walk (.publish key value ttl) = (net.setLink i l).serverAccept l.target ⟨key, value⟩ := by
  rw [clientMessage, hclient]
  rfl

lemma Wired.deliverUp (h : net.Wired) (hl : net.links[i]? = some l) {walk : Walk}
    (hplain : net.Plain (.deliverUp i walk)) :
    ∃ net', net.deliverUp i walk l = .ok net' ∧ net.Stepped (.deliverUp i walk) net' := by
  have hmem : l ∈ net.links := mem_of_getElem? hl
  rw [GossipNet.deliverUp, h.running]
  cases hup : l.up with
  | nil => exact ⟨net, rfl, .refl⟩
  | cons frame up =>
    rcases (h.links l hmem).up frame (by rw [hup]; exact mem_cons_self) with rfl | ⟨t, hsend, rfl⟩
    · -- A hello.
      rcases (h.links l hmem).settled with hclient | hclient
      · have hsend : ∀ t ∈ walk.order (net.node l.target).tuples, Sendable t := fun t ht =>
          hplain t ⟨l, hl, hclient, by rw [hup]; rfl, (walk.perm _).subset ht⟩
        refine ⟨_, ?_, .setLink hl (.greeted hup hclient (walk.perm _) hsend rfl)⟩
        change net.clientMessage i { l with up } walk .hello = _
        simp only [clientMessage, hclient, getD_none, protocolEvent, GossipLink.execute, GossipLink.sendDown,
          mapM_ok fun t ht => (hsend t ht).send]
        rfl
      · refine ⟨_, ?_, .setLink hl (.reset hup hclient rfl)⟩
        simp only [clientMessage, hclient, getD_some, protocolEvent]
        rfl
    · -- A tuple.
      simp only [hsend.decode]
      rcases (h.links l hmem).settled with hclient | hclient
      · refine ⟨_, ?_, .setLink hl (.missed hup hsend hclient rfl rfl)⟩
        simp only [clientMessage, hclient, getD_none, protocolEvent]
        rfl
      · rw [clientMessage_publish (l := { l with up }) hclient]
        refine h.accept hl (.inr hclient) hsend (.inr ⟨hsend, l, hmem, .inl ?_⟩) ?_ ?_
        · rw [hup]
          exact mem_cons_self
        · intro hholds
          exact .sameUp hup hsend hclient hholds rfl
        · intro hholds
          exact .takeUp hup hsend hclient hholds rfl

lemma Wired.deliverDown (h : net.Wired) (hl : net.links[i]? = some l) :
    ∃ net', net.deliverDown i l = .ok net' ∧ net.Stepped (.deliverDown i) net' := by
  have hmem : l ∈ net.links := mem_of_getElem? hl
  rw [GossipNet.deliverDown, h.running]
  cases hdown : l.down with
  | nil => exact ⟨net, rfl, .refl⟩
  | cons frame down =>
    rcases (h.links l hmem).down frame (by rw [hdown]; exact mem_cons_self) with rfl | ⟨t, hsend, rfl⟩
    · exact ⟨_, rfl, .setLink hl (.answered hdown rfl)⟩
    simp only [hsend.decode]
    refine h.accept hl (h.links l hmem).settled hsend (.inr ⟨hsend, l, hmem, .inr ?_⟩) ?_ ?_
    · rw [hdown]
      exact mem_cons_self
    · intro hholds
      exact .sameDown hdown hsend hholds rfl
    · intro hholds
      exact .takeDown hdown hsend hholds rfl

lemma Wired.expire (h : net.Wired) (hl : net.links[i]? = some l) :
    ∃ net', net.expire i l = .ok net' ∧ net.Stepped (.expire i) net' := by
  rw [GossipNet.expire, h.running]
  rcases (h.links l (mem_of_getElem? hl)).settled with hclient | hclient
  · rw [hclient]
    exact ⟨net, rfl, .refl⟩
  · rw [hclient]
    exact ⟨_, rfl, .setLink hl (.expired rfl rfl)⟩

lemma Wired.step (h : net.Wired) (hplain : net.Plain act) :
    ∃ net', net.step act = .ok net' ∧ net.Stepped act net' := by
  have hlink : ∀ (i : ℕ) (f : GossipLink N → Except GossipFault (GossipNet N)),
      (∀ l, net.links[i]? = some l → ∃ net', f l = .ok net' ∧ net.Stepped act net') →
        ∃ net', net.atLink i f = .ok net' ∧ net.Stepped act net' := by
    intro i f hf
    rw [atLink]
    cases hl : net.links[i]? with
    | none => exact ⟨net, rfl, .refl⟩
    | some l => exact hf l hl
  cases act with
  | connect source target walk =>
    rw [GossipNet.step, h.running, if_pos rfl]
    exact connect_spec hplain
  | publish n t =>
    have hsend : ∀ l ∈ net.links, l.Joined n → Sendable t := fun l hl hjoined => hplain t ⟨rfl, l, hl, hjoined⟩
    rw [GossipNet.step, h.running, if_pos rfl]
    refine ⟨_, serverAccept_eq (fun l hl => (h.links l hl).settled) hsend, ?_⟩
    by_cases hholds : (net.node n).Holds t
    · rw [if_pos hholds]
      exact .refl
    · rw [if_neg hholds]
      exact .publish hholds hsend
  | deliverUp i walk => exact hlink i _ fun l hl => h.deliverUp hl hplain
  | deliverDown i => exact hlink i _ fun l hl => h.deliverDown hl
  | expire i => exact hlink i _ fun l hl => h.expire hl

lemma Stepped.forall_links {P P' : GossipLink N → Prop} (h : net.Stepped act net') (hold : ∀ l ∈ net.links, P l)
    (hevolves : ∀ (i : ℕ) (l l' : GossipLink N), l ∈ net.links → P l → l.Evolves act i net.node net'.node l' → P' l')
    (hbegins : ∀ l', net'.node = net.node → l'.Begins act net.node → P' l') : ∀ l' ∈ net'.links, P' l' := by
  intro l' hl'
  obtain ⟨i, hi⟩ := mem_iff_getElem?.mp hl'
  rcases h.links i l' hi with ⟨l, hl, hlink⟩ | ⟨-, hnode, hlink⟩
  · have hmem : l ∈ net.links := mem_of_getElem? hl
    exact hevolves i l l' hmem (hold l hmem) hlink
  · exact hbegins l' hnode hlink

end Step

end GossipNet

/-! ### The network stays as it should be -/

namespace GossipLink

variable {act : GossipAct N} {i : ℕ} {node node' : N → GossipNode} {l l' : GossipLink N}

variable {frame : List UInt8}

lemma mem_up_told {n : N} {t : Tuple} :
    frame ∈ (l.told n t).up ↔ frame ∈ l.up ∨ l.source = n ∧ frame = t.frame := by
  change frame ∈ (if l.source = n then l.up ++ [t.frame] else l.up) ↔ _
  split
  · rename_i hsource
    rw [mem_append, mem_singleton, and_iff_right hsource]
  · rename_i hsource
    rw [or_iff_left fun h => hsource h.1]

lemma mem_down_told {n : N} {t : Tuple} : frame ∈ (l.told n t).down ↔
    frame ∈ l.down ∨ (l.client = some .connected ∧ l.target = n) ∧ frame = t.frame := by
  change frame ∈ (if l.client = some .connected ∧ l.target = n then l.down ++ [t.frame] else l.down) ↔ _
  split
  · rename_i htarget
    rw [mem_append, mem_singleton, and_iff_right htarget]
  · rename_i htarget
    rw [or_iff_left fun h => htarget h.1]

lemma Wired.told (h : l.Wired) {n : N} {t : Tuple} (hsend : l.Joined n → Sendable t) : (l.told n t).Wired where
  settled := h.settled
  up := by
    intro frame hframe
    rcases mem_up_told.mp hframe with hframe | ⟨hsource, rfl⟩
    · exact h.up frame hframe
    · exact .inr ⟨t, hsend (.inl hsource), rfl⟩
  down := by
    intro frame hframe
    rcases mem_down_told.mp hframe with hframe | ⟨⟨hclient, htarget⟩, rfl⟩
    · exact h.down frame hframe
    · exact .inr ⟨t, hsend (.inr ⟨htarget, by rw [hclient]; exact nofun⟩), rfl⟩

omit [DecidableEq N] in
lemma Wired.dropUp (h : l.Wired) {up : List (List UInt8)} (hup : l.up = frame :: up) :
    ({ l with up } : GossipLink N).Wired where
  settled := h.settled
  up frame' hframe' := h.up frame' (by rw [hup]; exact mem_cons_of_mem _ hframe')
  down := h.down

omit [DecidableEq N] in
lemma Wired.dropDown (h : l.Wired) {down : List (List UInt8)}
    (hdown : l.down = frame :: down) :
    ({ l with down } : GossipLink N).Wired where
  settled := h.settled
  up := h.up
  down frame' hframe' := h.down frame' (by rw [hdown]; exact mem_cons_of_mem _ hframe')

omit [DecidableEq N] in
lemma Wired.reject (h : l.Wired) : l.reject.Wired where
  settled := .inl rfl
  up := h.up
  down := by
    intro frame hframe
    rcases mem_append.mp hframe with hframe | hframe
    · exact h.down frame hframe
    · exact .inl (mem_singleton.mp hframe)

lemma Evolves.wired (h : l.Evolves act i node node' l') (hl : l.Wired) : l'.Wired := by
  cases h with
  | stay _ => exact hl
  | told _ hsend _ => exact hl.told hsend
  | sameUp hup _ _ _ _ => exact hl.dropUp hup
  | takeUp hup hsend _ _ _ => exact (hl.dropUp hup).told fun _ => hsend
  | missed hup _ _ _ _ | reset hup _ _ => exact (hl.dropUp hup).reject
  | greeted hup _ _ hsend _ =>
    refine ⟨.inr rfl, (hl.dropUp hup).up, fun frame hframe => ?_⟩
    rcases mem_append.mp hframe with hframe | hframe
    · exact hl.down frame hframe
    · obtain ⟨t, ht, rfl⟩ := mem_map.mp hframe
      exact .inr ⟨t, hsend t ht, rfl⟩
  | sameDown hdown _ _ _ => exact hl.dropDown hdown
  | takeDown hdown hsend _ _ => exact (hl.dropDown hdown).told fun _ => hsend
  | answered hdown _ =>
    refine ⟨hl.settled, fun frame hframe => ?_, (hl.dropDown hdown).down⟩
    rcases mem_append.mp hframe with hframe | hframe
    · exact hl.up frame hframe
    · exact .inl (mem_singleton.mp hframe)
  | expired _ _ => exact ⟨.inl rfl, hl.up, hl.down⟩

omit [DecidableEq N] in
lemma Begins.wired (h : l.Begins act node) : l.Wired := by
  obtain ⟨-, -, hsend⟩ := h
  refine ⟨.inl rfl, fun frame hframe => ?_, nofun⟩
  rcases mem_cons.mp hframe with rfl | hframe
  · exact .inl rfl
  · obtain ⟨t, ht, rfl⟩ := mem_map.mp hframe
    exact .inr ⟨t, hsend t ht, rfl⟩

end GossipLink

namespace GossipNet

variable {net net' : GossipNet N} {act : GossipAct N}

lemma Stepped.wired (h : net.Stepped act net') (hnet : net.Wired) : net'.Wired where
  running n := by
    rcases h.node with hnode | ⟨m, t, -, -, hnode⟩
    · rw [hnode]
      exact hnet.running n
    · rw [hnode, running_storeAt]
      exact hnet.running n
  links := h.forall_links hnet.links (fun _ _ _ _ hl hlink => hlink.wired hl) fun _ _ hlink => hlink.wired

end GossipNet

end Czmq
