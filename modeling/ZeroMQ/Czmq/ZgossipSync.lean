import ZeroMQ.Czmq.ZgossipSteps
import ZeroMQ.Foundation.Mirror

/-!
# The two ends of a gossip link

For every key a link mirrors the value at its source and the value at its target. A client that has expired is
told all tuples when it says hello again; what the source has announced in the meantime the target does not get.
`Recovers` says that this is only what the target has anyway: then the two nodes of a link have the same tuples when
nothing is on the way and the client is connected, and the target has stored every tuple that the source has had.
-/

namespace Czmq

open Foundation List

variable {N : Type} [DecidableEq N]

/-! ### What frames say of a key -/

/-- The value a frame has for a key. -/
def saidOf (k : CString) (frame : List UInt8) : Option CString :=
  match ZgossipMsg.decode frame with
  | some (.publish key value _) => if key = k then some value else none
  | _ => none

/-- The values some frames have for a key. -/
def said (k : CString) (frames : List (List UInt8)) : List CString := frames.filterMap (saidOf k)

section Said

variable {k : CString} {t : Tuple} {frames : List (List UInt8)}

lemma said_append (frames frames' : List (List UInt8)) :
    said k (frames ++ frames') = said k frames ++ said k frames' :=
  filterMap_append

lemma said_hello : said k (ZgossipMsg.encode .hello :: frames) = said k frames := filterMap_cons_none rfl

lemma said_invalid : said k (ZgossipMsg.encode .invalid :: frames) = said k frames := filterMap_cons_none rfl

lemma said_frame (h : Sendable t) :
    said k (t.frame :: frames) = if k = t.1 then t.2 :: said k frames else said k frames := by
  have hof : saidOf k t.frame = if t.1 = k then some t.2 else none := by
    rw [saidOf, h.decode]
  by_cases hk : k = t.1
  · rw [if_pos hk]
    exact filterMap_cons_some (hof.trans (if_pos hk.symm))
  · rw [if_neg hk]
    exact filterMap_cons_none (hof.trans (if_neg fun h => hk h.symm))

lemma said_snoc (h : Sendable t) :
    said k (frames ++ [t.frame]) = if k = t.1 then said k frames ++ [t.2] else said k frames := by
  rw [said_append, said_frame h]
  split
  · rfl
  · exact append_nil _

lemma said_tuples {tuples : List Tuple} (h : ∀ t ∈ tuples, Sendable t) (hkeys : tuples.NodupKeys) :
    said k (tuples.map Tuple.frame) = (tuples.dlookup k).toList := by
  induction tuples with
  | nil => rfl
  | cons t tuples ih =>
    have htail := ih (fun t' ht' => h t' (mem_cons_of_mem t ht')) (nodupKeys_of_nodupKeys_cons hkeys)
    rw [map_cons, said_frame (h t mem_cons_self), htail]
    obtain ⟨key, value⟩ := t
    by_cases hk : k = key
    · subst hk
      have hnone : tuples.dlookup k = none := dlookup_eq_none.mpr (notMem_keys_of_nodupKeys_cons hkeys)
      rw [if_pos rfl, hnone, dlookup_cons_eq]
      rfl
    · rw [if_neg hk, dlookup_cons_ne _ _ hk]

lemma said_walk {tuples : List Tuple} {table : AList fun _ : CString => CString} (h : ∀ t ∈ tuples, Sendable t)
    (hperm : tuples.Perm table.entries) : said k (tuples.map Tuple.frame) = (table.lookup k).toList := by
  have hkeys : tuples.NodupKeys := (perm_nodupKeys hperm).mpr table.nodupKeys
  rw [said_tuples h hkeys, perm_dlookup k hkeys hperm]
  rfl

end Said

namespace GossipLink

variable {l : GossipLink N} {n : N} {t : Tuple} {k : CString}

lemma said_up_told_self (h : l.Joined n → Sendable t) :
    said t.1 (l.told n t).up = if l.source = n then said t.1 l.up ++ [t.2] else said t.1 l.up := by
  change said t.1 (if l.source = n then l.up ++ [t.frame] else l.up) = _
  by_cases hsource : l.source = n
  · rw [if_pos hsource, if_pos hsource, said_snoc (h (.inl hsource)), if_pos rfl]
  · rw [if_neg hsource, if_neg hsource]

lemma said_up_told_ne (h : l.Joined n → Sendable t) (hk : k ≠ t.1) : said k (l.told n t).up = said k l.up := by
  change said k (if l.source = n then l.up ++ [t.frame] else l.up) = _
  by_cases hsource : l.source = n
  · rw [if_pos hsource, said_snoc (h (.inl hsource)), if_neg hk]
  · rw [if_neg hsource]

lemma said_down_told_self (h : l.Joined n → Sendable t) : said t.1 (l.told n t).down =
    if l.client = some .connected ∧ l.target = n then said t.1 l.down ++ [t.2] else said t.1 l.down := by
  change said t.1 (if l.client = some .connected ∧ l.target = n then l.down ++ [t.frame] else l.down) = _
  by_cases htarget : l.client = some .connected ∧ l.target = n
  · have hjoined : l.Joined n := .inr ⟨htarget.2, by rw [htarget.1]; exact nofun⟩
    rw [if_pos htarget, if_pos htarget, said_snoc (h hjoined), if_pos rfl]
  · rw [if_neg htarget, if_neg htarget]

lemma said_down_told_ne (h : l.Joined n → Sendable t) (hk : k ≠ t.1) :
    said k (l.told n t).down = said k l.down := by
  change said k (if l.client = some .connected ∧ l.target = n then l.down ++ [t.frame] else l.down) = _
  by_cases htarget : l.client = some .connected ∧ l.target = n
  · have hjoined : l.Joined n := .inr ⟨htarget.2, by rw [htarget.1]; exact nofun⟩
    rw [if_pos htarget, said_snoc (h hjoined), if_neg hk]
  · rw [if_neg htarget]

omit [DecidableEq N] in
lemma said_reject : said k l.reject.down = said k l.down := by
  change said k (l.down ++ [ZgossipMsg.encode .invalid]) = _
  rw [said_append, said_invalid]
  exact append_nil _

/-- The tuple the next message to the target announces. -/
def nextTuple (l : GossipLink N) : Option Tuple := (l.up.head?.bind ZgossipMsg.decode).bind ZgossipMsg.tuple

/-! ### Both ends -/

/-- For every key the link mirrors the values at its ends. -/
def Synced (node : N → GossipNode) (l : GossipLink N) : Prop := ∀ k,
  Mirrored (l.client = some .connected) (said k l.up) (said k l.down)
    ((node l.source).tuples.lookup k) ((node l.target).tuples.lookup k)

/-- The target has stored the tuple, or it will be told of it. -/
def Heard (node : N → GossipNode) (l : GossipLink N) (t : Tuple) : Prop :=
  t.2 ∈ said t.1 l.up ∨ t ∈ (node l.target).stored

section Steps

variable {node node' : N → GossipNode} {act : GossipAct N} {i : ℕ} {l' : GossipLink N}

lemma Synced.told (h : l.Synced node) (hsend : l.Joined n → Sendable t) :
    (l.told n t).Synced (storeAt node n t) := by
  intro k
  by_cases hk : k = t.1
  · subst hk
    rw [said_up_told_self hsend, said_down_told_self hsend, lookup_storeAt_self, lookup_storeAt_self]
    exact ((h t.1).tell_right (l.target = n) t.2).tell_left (l.source = n) t.2
  · rw [said_up_told_ne hsend hk, said_down_told_ne hsend hk, lookup_storeAt_ne hk, lookup_storeAt_ne hk]
    exact h k

lemma Synced.takeUp (h : l.Synced node) {up : List (List UInt8)} (hup : l.up = t.frame :: up) (hsend : Sendable t)
    (hclient : l.client = some .connected) :
    (({ l with up } : GossipLink N).told l.target t).Synced (storeAt node l.target t) := by
  intro k
  change Mirrored (l.client = some .connected) _ _ ((storeAt node l.target t l.source).tuples.lookup k)
    ((storeAt node l.target t l.target).tuples.lookup k)
  have hold := h k
  rw [hup, said_frame hsend] at hold
  by_cases hk : k = t.1
  · subst hk
    rw [said_up_told_self fun _ => hsend, said_down_told_self fun _ => hsend, lookup_storeAt_self,
      lookup_storeAt_self, if_pos (Eq.refl l.target)]
    rw [if_pos rfl] at hold
    have htold : (if l.client = some .connected ∧ l.target = l.target then said t.1 l.down ++ [t.2]
        else said t.1 l.down) = said t.1 l.down ++ [t.2] := if_pos ⟨hclient, rfl⟩
    have hnew := hold.take_right.tell_left (l.source = l.target) t.2
    rw [← htold] at hnew
    exact hnew
  · rw [said_up_told_ne (fun _ => hsend) hk, said_down_told_ne (fun _ => hsend) hk, lookup_storeAt_ne hk,
      lookup_storeAt_ne hk]
    rw [if_neg hk] at hold
    exact hold

variable {down up : List (List UInt8)}

lemma Synced.takeDown (h : l.Synced node) (hdown : l.down = t.frame :: down)
    (hsend : Sendable t) :
    (({ l with down } : GossipLink N).told l.source t).Synced (storeAt node l.source t) := by
  intro k
  change Mirrored (l.client = some .connected) _ _ ((storeAt node l.source t l.source).tuples.lookup k)
    ((storeAt node l.source t l.target).tuples.lookup k)
  have hold := h k
  rw [hdown, said_frame hsend] at hold
  by_cases hk : k = t.1
  · subst hk
    rw [said_up_told_self fun _ => hsend, said_down_told_self fun _ => hsend, lookup_storeAt_self,
      lookup_storeAt_self, if_pos (Eq.refl l.source), if_pos (Eq.refl l.source)]
    rw [if_pos rfl] at hold
    exact hold.take_left.tell_right (l.target = l.source) t.2
  · rw [said_up_told_ne (fun _ => hsend) hk, said_down_told_ne (fun _ => hsend) hk, lookup_storeAt_ne hk,
      lookup_storeAt_ne hk]
    rw [if_neg hk] at hold
    exact hold

omit [DecidableEq N] in
lemma Synced.sameUp (h : l.Synced node) (hup : l.up = t.frame :: up) (hsend : Sendable t)
    (hholds : (node l.target).Holds t) : ({ l with up } : GossipLink N).Synced node := by
  intro k
  have hold := h k
  rw [hup, said_frame hsend] at hold
  by_cases hk : k = t.1
  · subst hk
    rw [if_pos rfl] at hold
    exact hold.same_right hholds
  · rw [if_neg hk] at hold
    exact hold

omit [DecidableEq N] in
lemma Synced.sameDown (h : l.Synced node) (hdown : l.down = t.frame :: down)
    (hsend : Sendable t) (hholds : (node l.source).Holds t) : ({ l with down } : GossipLink N).Synced node := by
  intro k
  have hold := h k
  rw [hdown, said_frame hsend] at hold
  by_cases hk : k = t.1
  · subst hk
    rw [if_pos rfl] at hold
    exact hold.same_left hholds
  · rw [if_neg hk] at hold
    exact hold

omit [DecidableEq N] in
lemma Synced.congr (h : l.Synced node) (hsource : l'.source = l.source) (htarget : l'.target = l.target)
    (hclient : l'.client = l.client) (hup : ∀ k, said k l'.up = said k l.up)
    (hdown : ∀ k, said k l'.down = said k l.down) : l'.Synced node := by
  intro k
  rw [hsource, htarget, hclient, hup, hdown]
  exact h k

omit [DecidableEq N] in
lemma Synced.forget (h : l.Synced node) : ({ l with client := none } : GossipLink N).Synced node :=
  fun k => (h k).part nofun

omit [DecidableEq N] in
lemma Synced.reject (h : l.Synced node) : l.reject.Synced node :=
  h.forget.congr rfl rfl rfl (fun _ => rfl) fun _ => said_reject

omit [DecidableEq N] in
lemma Synced.greet (h : l.Synced node) {tuples : List Tuple} (hsend : ∀ t ∈ tuples, Sendable t)
    (hperm : tuples.Perm (node l.target).tuples.entries) : ({ l with
      down := l.down ++ tuples.map Tuple.frame
      client := some .connected } : GossipLink N).Synced node := by
  intro k
  rw [said_append, said_walk hsend hperm]
  exact (h k).join

omit [DecidableEq N] in
lemma Synced.hello (h : l.Synced node) (hup : l.up = ZgossipMsg.encode .hello :: up) :
    ({ l with up } : GossipLink N).Synced node :=
  h.congr rfl rfl rfl (fun k => by rw [hup, said_hello]) fun _ => rfl

lemma Evolves.synced (hlink : l.Evolves act i node node' l') (h : l.Synced node)
    (hrecovers : ∀ t up walk, act = .deliverUp i walk → l.up = Tuple.frame t :: up → Sendable t → l.client = none →
      (node l.target).Holds t) : l'.Synced node' := by
  cases hlink with
  | stay hnode => exact hnode ▸ h
  | told _ hsend hnode => exact hnode ▸ h.told hsend
  | sameUp hup hsend _ hholds hnode => exact hnode ▸ h.sameUp hup hsend hholds
  | takeUp hup hsend hclient _ hnode => exact hnode ▸ h.takeUp hup hsend hclient
  | missed hup hsend hclient hact hnode =>
    have hholds := hrecovers _ _ _ hact hup hsend hclient
    exact hnode ▸ (h.sameUp hup hsend hholds).reject
  | greeted hup _ hperm hsend hnode => exact hnode ▸ (h.hello hup).greet hsend hperm
  | reset hup _ hnode => exact hnode ▸ (h.hello hup).reject
  | sameDown hdown hsend hholds hnode => exact hnode ▸ h.sameDown hdown hsend hholds
  | takeDown hdown hsend _ hnode => exact hnode ▸ h.takeDown hdown hsend
  | answered hdown hnode =>
    refine hnode ▸ h.congr rfl rfl rfl (fun k => ?_) fun k => ?_
    · change said k (l.up ++ [ZgossipMsg.encode .hello]) = _
      rw [said_append, said_hello]
      exact append_nil _
    · rw [hdown, said_invalid]
  | expired _ hnode => exact hnode ▸ h.forget

omit [DecidableEq N] in
lemma said_begins {source : N} {tuples : List Tuple} (hperm : tuples.Perm (node source).tuples.entries)
    (hsend : ∀ t ∈ tuples, Sendable t) :
    said k (ZgossipMsg.encode .hello :: tuples.map Tuple.frame) = ((node source).tuples.lookup k).toList := by
  rw [said_hello, said_walk hsend hperm]

omit [DecidableEq N] in
lemma Begins.synced (h : l.Begins act node) : l.Synced node := by
  obtain ⟨-, hperm, hsend⟩ := h
  intro k
  rw [said_begins hperm hsend]
  exact .ofLeft nofun _ _

/-! ### What the target has been told -/

lemma Heard.told {t' : Tuple} (h : l.Heard node t') : (l.told n t).Heard (storeAt node n t) t' := by
  rcases h with hup | hstored
  · refine .inl ?_
    change t'.2 ∈ said t'.1 (if l.source = n then l.up ++ [t.frame] else l.up)
    split
    · rw [said_append]
      exact mem_append_left _ hup
    · exact hup
  · refine .inr ?_
    rw [stored_storeAt]
    split
    · exact mem_append_left _ hstored
    · exact hstored

omit [DecidableEq N] in
lemma Heard.drop {t' : Tuple} (h : l.Heard node t') (hup : l.up = t.frame :: up)
    (hsend : Sendable t) : t' = t ∨ ({ l with up } : GossipLink N).Heard node t' := by
  rw [Heard, hup, said_frame hsend] at h
  by_cases hk : t'.1 = t.1
  · rw [if_pos hk] at h
    rcases h with h | hstored
    · rcases mem_cons.mp h with hvalue | h
      · exact .inl (Sigma.ext hk (heq_of_eq hvalue))
      · exact .inr (.inl h)
    · exact .inr (.inr hstored)
  · rw [if_neg hk] at h
    exact .inr h

lemma Evolves.heard (hlink : l.Evolves act i node node' l') {t' : Tuple} (h : l.Heard node t')
    (hlogged : ∀ t, (node l.target).Holds t → t ∈ (node l.target).stored)
    (hrecovers : ∀ t up walk, act = .deliverUp i walk → l.up = Tuple.frame t :: up → Sendable t → l.client = none →
      (node l.target).Holds t) : l'.Heard node' t' := by
  cases hlink with
  | stay hnode | sameDown _ _ _ hnode | expired _ hnode => exact hnode ▸ h
  | told _ _ hnode => exact hnode ▸ h.told
  | sameUp hup hsend _ hholds hnode =>
    rcases h.drop hup hsend with rfl | h
    · exact hnode ▸ .inr (hlogged t' hholds)
    · exact hnode ▸ h
  | @takeUp t up hup hsend _ _ hnode =>
    rcases h.drop hup hsend with rfl | h
    · refine .inr ?_
      change t' ∈ (node' l.target).stored
      rw [hnode, stored_storeAt, if_pos rfl]
      exact mem_append_right _ (mem_singleton_self t')
    · exact hnode ▸ h.told
  | missed hup hsend hclient hact hnode =>
    rcases h.drop hup hsend with rfl | h
    · exact hnode ▸ .inr (hlogged t' (hrecovers t' _ _ hact hup hsend hclient))
    · exact hnode ▸ h
  | greeted hup _ _ _ hnode | reset hup _ hnode =>
    rw [Heard, hup, said_hello] at h
    exact hnode ▸ h
  | takeDown _ _ _ hnode => exact hnode ▸ Heard.told (l := { l with down := _ }) h
  | answered _ hnode =>
    refine hnode ▸ h.imp_left fun hup => ?_
    rw [said_append]
    exact mem_append_left _ hup

lemma Evolves.source (hlink : l.Evolves act i node node' l') : l'.source = l.source := by
  cases hlink <;> rfl

lemma Evolves.target (hlink : l.Evolves act i node node' l') : l'.target = l.target := by
  cases hlink <;> rfl

lemma heard_told (hsend : l.Joined n → Sendable t) (hsource : l.source = n) : (l.told n t).Heard node t := by
  refine .inl ?_
  rw [said_up_told_self hsend, if_pos hsource]
  exact mem_append_right _ (mem_singleton_self _)

lemma Evolves.hears (hlink : l.Evolves act i node node' l')
    (h : ∀ t, (node l.source).Holds t → l.Heard node t)
    (hlogged : ∀ t, (node l.target).Holds t → t ∈ (node l.target).stored)
    (hrecovers : ∀ t up walk, act = .deliverUp i walk → l.up = Tuple.frame t :: up → Sendable t → l.client = none →
      (node l.target).Holds t) (t' : Tuple) (hholds : (node' l'.source).Holds t') : l'.Heard node' t' := by
  rw [hlink.source] at hholds
  by_cases hold : (node l.source).Holds t'
  · exact hlink.heard (h t' hold) hlogged hrecovers
  cases hlink with
  | told _ hsend hnode =>
    subst hnode
    rcases holds_storeAt hholds with h | ⟨hsource, rfl⟩
    · exact absurd h hold
    · exact heard_told hsend hsource
  | takeUp _ hsend _ _ hnode =>
    subst hnode
    rcases holds_storeAt hholds with h | ⟨hsource, rfl⟩
    · exact absurd h hold
    · exact heard_told (l := { l with up := _ }) (fun _ => hsend) hsource
  | takeDown _ hsend _ hnode =>
    subst hnode
    rcases holds_storeAt hholds with h | ⟨hsource, rfl⟩
    · exact absurd h hold
    · exact heard_told (l := { l with down := _ }) (fun _ => hsend) hsource
  | stay hnode | sameUp _ _ _ _ hnode | missed _ _ _ _ hnode | greeted _ _ _ _ hnode | reset _ _ hnode
  | sameDown _ _ _ hnode | answered _ hnode | expired _ hnode => exact absurd (hnode ▸ hholds) hold

omit [DecidableEq N] in
lemma Begins.hears (h : l.Begins act node) (t : Tuple) (hholds : (node l.source).Holds t) : l.Heard node t := by
  obtain ⟨-, hperm, hsend⟩ := h
  refine .inl ?_
  rw [said_begins hperm hsend, hholds]
  exact mem_singleton_self _

end Steps

end GossipLink

/-! ### Networks -/

namespace GossipNet

variable {net net' : GossipNet N} {act : GossipAct N}

/-- The links of a network are in step. -/
structure Synced (net : GossipNet N) : Prop where
  wired : net.Wired
  logged : ∀ n t, (net.node n).Holds t → t ∈ (net.node n).stored
  synced : ∀ l ∈ net.links, l.Synced net.node
  heard : ∀ l ∈ net.links, ∀ t, (net.node l.source).Holds t → l.Heard net.node t

/-- A tuple that reaches a client that is not known is what the node has. -/
def Recovers (net : GossipNet N) : GossipAct N → Prop
  | .deliverUp i _ => ∀ l, net.links[i]? = some l → l.client = none → ∀ t, l.nextTuple = some t →
      (net.node l.target).Holds t
  | _ => True

omit [DecidableEq N] in
lemma Recovers.holds (h : net.Recovers act) {i : ℕ} {l : GossipLink N} (hl : net.links[i]? = some l) (t : Tuple)
    (up : List (List UInt8)) (walk : Walk) (hact : act = .deliverUp i walk) (hup : l.up = Tuple.frame t :: up)
    (hsend : Sendable t) (hclient : l.client = none) : (net.node l.target).Holds t := by
  subst hact
  refine h l hl hclient t ?_
  rw [GossipLink.nextTuple, hup, head?_cons, Option.bind_some, hsend.decode]
  rfl

lemma Stepped.synced (hstep : net.Stepped act net') (h : net.Synced) (hrecovers : net.Recovers act) :
    net'.Synced where
  wired := hstep.wired h.wired
  logged := by
    intro n t hholds
    rcases hstep.node with hnode | ⟨m, t', -, -, hnode⟩
    · rw [hnode] at hholds ⊢
      exact h.logged n t hholds
    rw [hnode] at hholds ⊢
    rw [stored_storeAt]
    rcases holds_storeAt hholds with hholds | ⟨hn, rfl⟩
    · split
      · exact mem_append_left _ (h.logged n t hholds)
      · exact h.logged n t hholds
    · rw [if_pos hn]
      exact mem_append_right _ (mem_singleton_self t)
  synced := by
    intro l' hl'
    obtain ⟨i, hi⟩ := mem_iff_getElem?.mp hl'
    rcases hstep.links i l' hi with ⟨l, hl, hlink⟩ | ⟨-, hnode, hbegins⟩
    · exact hlink.synced (h.synced l (mem_of_getElem? hl)) (hrecovers.holds hl)
    · rw [hnode]
      exact hbegins.synced
  heard := by
    intro l' hl'
    obtain ⟨i, hi⟩ := mem_iff_getElem?.mp hl'
    rcases hstep.links i l' hi with ⟨l, hl, hlink⟩ | ⟨-, hnode, hbegins⟩
    · exact hlink.hears (h.heard l (mem_of_getElem? hl)) (h.logged _) (hrecovers.holds hl)
    · rw [hnode]
      exact hbegins.hears

/-- Two nodes have the same tuples. -/
def Agree (net : GossipNet N) (n m : N) : Prop := ∀ k, (net.node n).tuples.lookup k = (net.node m).tuples.lookup k

omit [DecidableEq N] in
lemma Synced.agree (h : net.Synced) {l : GossipLink N} (hl : l ∈ net.links) (hclient : l.client = some .connected)
    (hup : l.up = []) (hdown : l.down = []) : net.Agree l.source l.target := by
  intro k
  have hmirrored := h.synced l hl k
  rw [hup, hdown] at hmirrored
  exact hmirrored.agree hclient rfl rfl

end GossipNet

end Czmq
