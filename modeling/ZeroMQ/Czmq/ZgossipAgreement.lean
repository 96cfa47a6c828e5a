import ZeroMQ.Czmq.ZgossipRecovery

/-!
# Agreement in a gossip network

When no client expires, a link begins with a hello and never loses a tuple. So two nodes with a link between them
have the same tuples when nothing is on the way, and all nodes that are connected have. And a node takes over a
tuple only if it is new: when every key has one value, no node stores a tuple twice.
-/

namespace Czmq

open Foundation List

variable {N : Type} [DecidableEq N]

/-! ### Links whose client does not expire -/

/-- The client is not known yet and the first message says hello, or it is connected; there is no other hello, and
nobody is told that it is not known. -/
def GossipLink.Unbroken (l : GossipLink N) : Prop :=
  ZgossipMsg.encode .invalid ∉ l.down ∧
    ((l.client = none ∧ ∃ up, l.up = ZgossipMsg.encode .hello :: up ∧ ZgossipMsg.encode .hello ∉ up) ∨
      (l.client = some .connected ∧ ZgossipMsg.encode .hello ∉ l.up))

namespace GossipLink

variable {act : GossipAct N} {i : ℕ} {node node' : N → GossipNode} {l l' : GossipLink N}

lemma Unbroken.told (h : l.Unbroken) (n : N) (t : Tuple) : (l.told n t).Unbroken := by
  obtain ⟨hdown, h⟩ := h
  refine ⟨fun hmem => ?_, ?_⟩
  · rcases mem_down_told.mp hmem with hmem | ⟨-, hmem⟩
    · exact hdown hmem
    · exact t.frame_ne_invalid hmem.symm
  · rcases h with ⟨hclient, up, hup, hhello⟩ | ⟨hclient, hhello⟩
    · refine .inl ⟨hclient, if l.source = n then up ++ [t.frame] else up, ?_, fun hmem => ?_⟩
      · change (if l.source = n then l.up ++ [t.frame] else l.up) = _
        rw [hup]
        split <;> rfl
      · split at hmem
        · rcases mem_append.mp hmem with hmem | hmem
          · exact hhello hmem
          · exact t.frame_ne_hello (mem_singleton.mp hmem).symm
        · exact hhello hmem
    · refine .inr ⟨hclient, fun hmem => ?_⟩
      rcases mem_up_told.mp hmem with hmem | ⟨-, hmem⟩
      · exact hhello hmem
      · exact t.frame_ne_hello hmem.symm

variable {up down : List (List UInt8)}

omit [DecidableEq N] in
lemma Unbroken.dropUp (h : l.Unbroken) {frame : List UInt8} (hup : l.up = frame :: up)
    (hclient : l.client = some .connected) : ({ l with up } : GossipLink N).Unbroken := by
  obtain ⟨hdown, ⟨hnone, -⟩ | ⟨-, hhello⟩⟩ := h
  · rw [hnone] at hclient
    cases hclient
  · rw [hup] at hhello
    exact ⟨hdown, .inr ⟨hclient, fun hmem => hhello (mem_cons_of_mem _ hmem)⟩⟩

omit [DecidableEq N] in
lemma Unbroken.dropDown (h : l.Unbroken) {frame : List UInt8}
    (hdown : l.down = frame :: down) : ({ l with down } : GossipLink N).Unbroken := by
  obtain ⟨hinvalid, h⟩ := h
  rw [hdown] at hinvalid
  exact ⟨fun hmem => hinvalid (mem_cons_of_mem _ hmem), h⟩

omit [DecidableEq N] in
lemma Unbroken.not_tuple (h : l.Unbroken) (hclient : l.client = none) {t : Tuple}
    (hup : l.up = t.frame :: up) : False := by
  obtain ⟨-, ⟨-, up', hup', -⟩ | ⟨hconnected, -⟩⟩ := h
  · exact t.frame_ne_hello (cons.inj (hup.symm.trans hup')).1
  · rw [hclient] at hconnected
    cases hconnected

lemma Evolves.unbroken (hlink : l.Evolves act i node node' l') (h : l.Unbroken) (hact : act ≠ .expire i) :
    l'.Unbroken := by
  cases hlink with
  | stay _ => exact h
  | told _ _ _ => exact h.told _ _
  | sameUp hup _ hclient _ _ => exact h.dropUp hup hclient
  | takeUp hup _ hclient _ _ => exact (h.dropUp hup hclient).told _ _
  | missed hup _ hclient _ _ => exact (h.not_tuple hclient hup).elim
  | greeted hup hclient _ _ _ =>
    obtain ⟨hinvalid, ⟨-, up', hup', hhello⟩ | ⟨hconnected, -⟩⟩ := h
    · obtain rfl := (cons.inj (hup.symm.trans hup')).2
      refine ⟨fun hmem => ?_, .inr ⟨rfl, hhello⟩⟩
      rcases mem_append.mp hmem with hmem | hmem
      · exact hinvalid hmem
      · obtain ⟨t, -, ht⟩ := mem_map.mp hmem
        exact t.frame_ne_invalid ht
    · rw [hclient] at hconnected
      cases hconnected
  | reset hup hclient _ =>
    obtain ⟨-, ⟨hnone, -⟩ | ⟨-, hhello⟩⟩ := h
    · rw [hnone] at hclient
      cases hclient
    · rw [hup] at hhello
      exact absurd mem_cons_self hhello
  | sameDown hdown _ _ _ => exact h.dropDown hdown
  | takeDown hdown _ _ _ => exact (h.dropDown hdown).told _ _
  | answered hdown _ =>
    rw [Unbroken, hdown] at h
    exact absurd mem_cons_self h.1
  | expired hexpire _ => exact absurd hexpire hact

lemma Evolves.client (hlink : l.Evolves act i node node' l') (h : l.Unbroken) (hact : act ≠ .expire i)
    (hclient : l'.client = none) : l.client = none := by
  cases hlink with
  | stay _ | told _ _ _ | sameUp _ _ _ _ _ | takeUp _ _ _ _ _ | sameDown _ _ _ _ | takeDown _ _ _ _ | answered _ _ =>
    exact hclient
  | missed _ _ hnone _ _ | greeted _ hnone _ _ _ => exact hnone
  | reset hup hconnected _ =>
    obtain ⟨-, ⟨hnone, -⟩ | ⟨-, hhello⟩⟩ := h
    · exact hnone
    · rw [hup] at hhello
      exact absurd mem_cons_self hhello
  | expired hexpire _ => exact absurd hexpire hact

omit [DecidableEq N] in
lemma Begins.unbroken (h : l.Begins act node) : l.Unbroken := by
  obtain ⟨-, -, -⟩ := h
  refine ⟨nofun, .inl ⟨rfl, _, rfl, fun hmem => ?_⟩⟩
  obtain ⟨t, -, ht⟩ := mem_map.mp hmem
  exact t.frame_ne_hello ht

lemma frames_told {n : N} {t t0 : Tuple} (hsend0 : l.Joined n → Sendable t0) (hsend : Sendable t)
    (h : t.frame ∈ (l.told n t0).up ∨ t.frame ∈ (l.told n t0).down) :
    (t.frame ∈ l.up ∨ t.frame ∈ l.down) ∨ t = t0 := by
  rcases h with h | h
  · rcases mem_up_told.mp h with h | ⟨hsource, h⟩
    · exact .inl (.inl h)
    · exact .inr (hsend.frame_inj (hsend0 (.inl hsource)) h)
  · rcases mem_down_told.mp h with h | ⟨⟨hclient, htarget⟩, h⟩
    · exact .inl (.inr h)
    · exact .inr (hsend.frame_inj (hsend0 (.inr ⟨htarget, by rw [hclient]; exact nofun⟩)) h)

/-- A message with a tuple that was not on the way is about a tuple that a node stores, or that a node has which
greets a client. -/
lemma Evolves.frames (hlink : l.Evolves act i node node' l') {t : Tuple} (hsend : Sendable t)
    (h : t.frame ∈ l'.up ∨ t.frame ∈ l'.down) :
    (t.frame ∈ l.up ∨ t.frame ∈ l.down) ∨ (∃ n, ¬(node n).Holds t ∧ node' = storeAt node n t) ∨
      l.client = none ∧ node' = node ∧ (node l.target).Holds t := by
  cases hlink with
  | stay _ | expired _ _ => exact .inl h
  | told hholds hsend0 hnode =>
    refine (frames_told hsend0 hsend h).imp_right fun ht => ?_
    subst ht
    exact .inl ⟨_, hholds, hnode⟩
  | sameUp hup _ _ _ _ => exact .inl (h.imp_left fun hmem => by rw [hup]; exact mem_cons_of_mem _ hmem)
  | takeUp hup hsend0 _ hholds hnode =>
    rcases frames_told (fun _ => hsend0) hsend h with h | rfl
    · exact .inl (h.imp_left fun hmem => by rw [hup]; exact mem_cons_of_mem _ hmem)
    · exact .inr (.inl ⟨_, hholds, hnode⟩)
  | missed hup _ _ _ _ | reset hup _ _ =>
    rcases h with hmem | hmem
    · exact .inl (.inl (by rw [hup]; exact mem_cons_of_mem _ hmem))
    · rcases mem_append.mp hmem with hmem | hmem
      · exact .inl (.inr hmem)
      · exact absurd (mem_singleton.mp hmem) t.frame_ne_invalid
  | greeted hup hclient hperm hsend0 hnode =>
    rcases h with hmem | hmem
    · exact .inl (.inl (by rw [hup]; exact mem_cons_of_mem _ hmem))
    rcases mem_append.mp hmem with hmem | hmem
    · exact .inl (.inr hmem)
    · obtain ⟨t0, ht0, hframe⟩ := mem_map.mp hmem
      obtain rfl := (hsend0 t0 ht0).frame_inj hsend hframe
      exact .inr (.inr ⟨hclient, hnode, AList.mem_lookup_iff.mpr (hperm.subset ht0)⟩)
  | sameDown hdown _ _ _ => exact .inl (h.imp_right fun hmem => by rw [hdown]; exact mem_cons_of_mem _ hmem)
  | takeDown hdown hsend0 hholds hnode =>
    rcases frames_told (fun _ => hsend0) hsend h with h | rfl
    · exact .inl (h.imp_right fun hmem => by rw [hdown]; exact mem_cons_of_mem _ hmem)
    · exact .inr (.inl ⟨_, hholds, hnode⟩)
  | answered hdown _ =>
    rcases h with hmem | hmem
    · rcases mem_append.mp hmem with hmem | hmem
      · exact .inl (.inl hmem)
      · exact absurd (mem_singleton.mp hmem) t.frame_ne_hello
    · exact .inl (.inr (by rw [hdown]; exact mem_cons_of_mem _ hmem))

omit [DecidableEq N] in
lemma Begins.frames (h : l.Begins act node) {t : Tuple} (hsend : Sendable t)
    (hmem : t.frame ∈ l.up ∨ t.frame ∈ l.down) : (node l.source).Holds t := by
  obtain ⟨-, hperm, hsend0⟩ := h
  rcases hmem with hmem | hmem
  · rcases mem_cons.mp hmem with hmem | hmem
    · exact absurd hmem t.frame_ne_hello
    · obtain ⟨t0, ht0, hframe⟩ := mem_map.mp hmem
      obtain rfl := (hsend0 t0 ht0).frame_inj hsend hframe
      exact AList.mem_lookup_iff.mpr (hperm.subset ht0)
  · cases hmem

end GossipLink

namespace GossipNet

variable {net net' : GossipNet N} {act : GossipAct N}

/-- What holds of a network in which no client expires; `published` are the tuples that are published. -/
structure Gossips (published : Tuple → Prop) (net : GossipNet N) : Prop where
  synced : net.Synced
  unbroken : ∀ l ∈ net.links, l.Unbroken
  logs : ∀ n, (net.node n).delivered = (net.node n).stored ∧ (net.node n).forwarded = (net.node n).stored
  stored : ∀ n t, t ∈ (net.node n).stored → published t
  flight : ∀ l ∈ net.links, ∀ t, Sendable t → t.frame ∈ l.up ∨ t.frame ∈ l.down → published t

variable {published : Tuple → Prop}

omit [DecidableEq N] in
lemma Gossips.recovers (h : net.Gossips published) (act : GossipAct N) : net.Recovers act := by
  cases act with
  | deliverUp i walk =>
    intro l hl hclient t ht
    obtain ⟨-, ⟨-, up, hup, -⟩ | ⟨hconnected, -⟩⟩ := h.unbroken l (mem_of_getElem? hl)
    · rw [GossipLink.nextTuple, hup] at ht
      cases ht
    · rw [hclient] at hconnected
      cases hconnected
  | connect _ _ _ | publish _ _ | deliverDown _ | expire _ => trivial

lemma Gossips.step (h : net.Gossips published) (hplain : net.Plain act) (hexpire : ∀ i, act ≠ .expire i)
    (hpublished : ∀ n t, act = .publish n t → published t) :
    ∃ net', net.step act = .ok net' ∧ net.Stepped act net' ∧ net'.Gossips published := by
  obtain ⟨net', hstep, hstepped⟩ := h.synced.wired.step hplain
  have hsynced := hstepped.synced h.synced (h.recovers act)
  have hstored : ∀ n t, t ∈ (net'.node n).stored → published t := by
    intro n t ht
    rcases hstepped.node with hnode | ⟨m, t0, -, hcomes, hnode⟩
    · rw [hnode] at ht
      exact h.stored n t ht
    have ht0 : published t0 := by
      rcases hcomes with hact | ⟨hsend, l, hl, hframe⟩
      · exact hpublished m t0 hact
      · exact h.flight l hl t0 hsend hframe
    rw [hnode, stored_storeAt] at ht
    split at ht
    · rcases mem_append.mp ht with ht | ht
      · exact h.stored n t ht
      · rw [mem_singleton.mp ht]
        exact ht0
    · exact h.stored n t ht
  refine ⟨net', hstep, hstepped, hsynced, ?_, ?_, hstored, ?_⟩
  · exact hstepped.forall_links h.unbroken (fun i _ _ _ hl hlink => hlink.unbroken hl (hexpire i))
      fun _ _ hlink => hlink.unbroken
  · intro n
    rcases hstepped.node with hnode | ⟨m, t, -, -, hnode⟩
    · rw [hnode]
      exact h.logs n
    · rw [hnode]
      exact logs_storeAt (h.logs n)
  · refine hstepped.forall_links h.flight (fun i _ _ _ hl hlink t hsend ht => ?_) fun _ hnode hlink t hsend ht => ?_
    · rcases hlink.frames hsend ht with ht | ⟨n, -, hnode⟩ | ⟨-, -, hholds⟩
      · exact hl t hsend ht
      · refine hstored n t ?_
        rw [hnode, stored_storeAt, if_pos rfl]
        exact mem_append_right _ (mem_singleton_self t)
      · exact h.stored _ t (h.synced.logged _ t hholds)
    · exact h.stored _ t (h.synced.logged _ t (hlink.frames hsend ht))

/-- Every key that is published has one value. -/
def OneValue (published : Tuple → Prop) : Prop := ∀ t t', published t → published t' → t.1 = t'.1 → t = t'

/-- A node has what it has stored, and has stored it once. -/
structure Once (net : GossipNet N) : Prop where
  held : ∀ n t, t ∈ (net.node n).stored → (net.node n).Holds t
  nodup : ∀ n, (net.node n).stored.Nodup

lemma Stepped.once (hstep : net.Stepped act net') (h : net.Once) (hnet' : net'.Gossips published)
    (hone : OneValue published) : net'.Once := by
  rcases hstep.node with hnode | ⟨m, t, hholds, -, hnode⟩
  · exact ⟨hnode ▸ h.held, hnode ▸ h.nodup⟩
  have hpublished : published t := by
    refine hnet'.stored m t ?_
    rw [hnode, stored_storeAt, if_pos rfl]
    exact mem_append_right _ (mem_singleton_self t)
  refine ⟨fun n t' ht' => ?_, fun n => ?_⟩
  · have hpublished' := hnet'.stored n t' ht'
    rw [hnode, stored_storeAt] at ht'
    by_cases hk : t'.1 = t.1
    · obtain rfl := hone t' t hpublished' hpublished hk
      rw [hnode, GossipNode.Holds, lookup_storeAt_self]
      split
      · rfl
      · rename_i hn
        rw [if_neg hn] at ht'
        exact h.held n t' ht'
    · rw [hnode, GossipNode.Holds, lookup_storeAt_ne hk]
      split at ht'
      · rcases mem_append.mp ht' with ht' | ht'
        · exact h.held n t' ht'
        · exact absurd (congrArg Sigma.fst (mem_singleton.mp ht')) hk
      · exact h.held n t' ht'
  · rw [hnode, stored_storeAt]
    split
    · rename_i hn
      subst hn
      rw [← concat_eq_append]
      exact (h.nodup n).concat fun hmem => hholds (h.held n t hmem)
    · exact h.nodup n

/-! ### Agreement -/

/-- Nothing is on the way. -/
def Quiet (net : GossipNet N) : Prop := ∀ l ∈ net.links, l.up = [] ∧ l.down = []

/-- There is a link from one node to another. -/
def Linked (net : GossipNet N) (n m : N) : Prop := ∃ l ∈ net.links, l.source = n ∧ l.target = m

omit [DecidableEq N] in
lemma Gossips.agree (h : net.Gossips published) {l : GossipLink N} (hl : l ∈ net.links) (hup : l.up = [])
    (hdown : l.down = []) : net.Agree l.source l.target := by
  obtain ⟨-, ⟨-, up, hup', -⟩ | ⟨hclient, -⟩⟩ := h.unbroken l hl
  · rw [hup] at hup'
    cases hup'
  · exact h.synced.agree hl hclient hup hdown

instance (net : GossipNet N) : Decidable net.Quiet :=
  inferInstanceAs (Decidable (∀ l ∈ net.links, l.up = [] ∧ l.down = []))

instance (net : GossipNet N) (n m : N) : Decidable (net.Linked n m) :=
  inferInstanceAs (Decidable (∃ l ∈ net.links, l.source = n ∧ l.target = m))

end GossipNet

end Czmq
