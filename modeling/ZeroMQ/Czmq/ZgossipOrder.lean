import ZeroMQ.Czmq.ZgossipAgreement

/-!
# Updates in a gossip network

A node takes over whatever differs from what it has, and it announces a tuple also to the node it has it from. So
a value that comes back may meet a newer one, and replace it. The protocol is for data that change slowly: when a
new value is published only while no older one is on the way, no node goes back to an older value.
-/

namespace Czmq

open Foundation List

variable {N : Type} [DecidableEq N]

/-! ### Values of a key -/

/-- The value a tuple has for a key. -/
def Tuple.valueOf (k : CString) (t : Tuple) : Option CString := if t.1 = k then some t.2 else none

/-- The values a node has stored for a key. -/
def GossipNode.storedValues (node : GossipNode) (k : CString) : List CString :=
  node.stored.filterMap (Tuple.valueOf k)

/-- The value that is published for a key. -/
def GossipAct.valueOf (k : CString) : GossipAct N → Option CString
  | .publish _ t => t.valueOf k
  | .connect _ _ _ | .deliverUp _ _ | .deliverDown _ | .expire _ => none

/-- The values that are published for a key. -/
def publishedValues (k : CString) (acts : List (GossipAct N)) : List CString := acts.filterMap (GossipAct.valueOf k)

section Values

variable {node : N → GossipNode} {n m : N} {t : Tuple} {k : CString}

lemma storedValues_storeAt : (storeAt node n t m).storedValues k =
    if m = n then (node m).storedValues k ++ (t.valueOf k).toList else (node m).storedValues k := by
  rw [GossipNode.storedValues, stored_storeAt]
  split
  · rw [filterMap_append]
    cases h : t.valueOf k with
    | none => rw [filterMap_cons_none h]; rfl
    | some v => rw [filterMap_cons_some h]; rfl
  · rfl

omit [DecidableEq N] in
lemma publishedValues_cons (act : GossipAct N) (acts : List (GossipAct N)) :
    publishedValues k (act :: acts) = publishedValues k [act] ++ publishedValues k acts := by
  rw [publishedValues, ← singleton_append, filterMap_append]
  rfl

end Values

namespace GossipNet

variable {net net' : GossipNet N} {act : GossipAct N} {k : CString} {publisher : N}

/-! ### When a key changes slowly -/

/-- No message on the way announces the key. -/
def Silent (net : GossipNet N) (k : CString) : Prop := ∀ l ∈ net.links, said k l.up = [] ∧ said k l.down = []

/-- The node has no value for the key but the publisher's. -/
def Current (net : GossipNet N) (k : CString) (publisher n : N) : Prop :=
  ∀ v, (net.node n).tuples.lookup k = some v → (net.node publisher).tuples.lookup k = some v

/-- A new value is published only while nothing on the way announces the key, and while no node that has not been
greeted has an older value; and a link is made only between nodes that have no value but the publisher's. -/
def Calm (k : CString) (publisher : N) (net : GossipNet N) : GossipAct N → Prop
  | .connect source target _ => net.Current k publisher source ∧ net.Current k publisher target
  | .publish n t => t.1 = k → ¬(net.node n).Holds t →
      net.Silent k ∧ ∀ l ∈ net.links, l.client = none → (net.node l.target).tuples.lookup k = none
  | .deliverUp _ _ | .deliverDown _ | .expire _ => True

/-- The last value that was published is the only one that spreads. -/
structure Orderly (k : CString) (publisher : N) (net : GossipNet N) : Prop where
  gossips : net.Gossips fun _ => True
  flight : ∀ l ∈ net.links, ∀ t, Sendable t → t.1 = k → t.frame ∈ l.up ∨ t.frame ∈ l.down →
    (net.node publisher).Holds t
  /-- A node that a client has not been greeted by has no value but the publisher's. -/
  pending : ∀ l ∈ net.links, l.client = none → net.Current k publisher l.target

/-- `values` are the values that have been published: a node has stored some of them in this order, and if it has
not the publisher's value, then not the last of them. -/
def Follows (k : CString) (publisher : N) (net : GossipNet N) (values : List CString) : Prop :=
  ∃ before, (before ++ ((net.node publisher).tuples.lookup k).toList).Sublist values ∧
    (∀ n, ((net.node n).storedValues k).Sublist (before ++ ((net.node publisher).tuples.lookup k).toList)) ∧
      ∀ n, (net.node n).tuples.lookup k ≠ (net.node publisher).tuples.lookup k →
        ((net.node n).storedValues k).Sublist before

/-- What a step does to the values of the key. -/
inductive Shift (k : CString) (publisher : N) (net : GossipNet N) (act : GossipAct N) (net' : GossipNet N) : Prop
  /-- No node stores a value. -/
  | same : (∀ n, (net'.node n).tuples.lookup k = (net.node n).tuples.lookup k) →
      (∀ n, (net'.node n).storedValues k = (net.node n).storedValues k) → Shift k publisher net act net'
  /-- A new value is published. -/
  | fresh {t : Tuple} : t.1 = k → act = .publish publisher t → ¬(net.node publisher).Holds t → net.Silent k →
      (∀ l ∈ net.links, l.client = none → (net.node l.target).tuples.lookup k = none) →
      net'.node = storeAt net.node publisher t → Shift k publisher net act net'
  /-- Another node takes over the publisher's value. -/
  | spread {n : N} {t : Tuple} : t.1 = k → n ≠ publisher → (net.node publisher).Holds t → ¬(net.node n).Holds t →
      net'.node = storeAt net.node n t → Shift k publisher net act net'

lemma Orderly.shift (h : net.Orderly k publisher) (hstep : net.Stepped act net') (hcalm : net.Calm k publisher act)
    (hsingle : ∀ n t, act = .publish n t → t.1 = k → n = publisher) : Shift k publisher net act net' := by
  rcases hstep.node with hnode | ⟨n, t, hholds, hcomes, hnode⟩
  · exact .same (fun n => by rw [hnode]) fun n => by rw [hnode]
  by_cases hk : t.1 = k
  · rcases hcomes with hact | ⟨hsend, l, hl, hframe⟩
    · obtain rfl := hsingle n t hact hk
      rw [hact] at hcalm
      obtain ⟨hsilent, hpending⟩ := hcalm hk hholds
      exact .fresh hk hact hholds hsilent hpending hnode
    · have hpublisher := h.flight l hl t hsend hk hframe
      have hn : n ≠ publisher := by
        rintro rfl
        exact hholds hpublisher
      exact .spread hk hn hpublisher hholds hnode
  · refine .same (fun m => ?_) fun m => ?_
    · rw [hnode, lookup_storeAt_ne fun h => hk h.symm]
    · rw [hnode, storedValues_storeAt, Tuple.valueOf, if_neg hk]
      split
      · exact append_nil _
      · rfl

lemma Shift.keeps (h : Shift k publisher net act net') {t : Tuple} (ht : t.1 = k)
    (hholds : (net.node publisher).Holds t) : (net'.node publisher).Holds t ∨
      net.Silent k ∧ ∀ l ∈ net.links, l.client = none → (net.node l.target).tuples.lookup k = none := by
  cases h with
  | same hlookup _ =>
    refine .inl ?_
    rw [GossipNode.Holds, ht, hlookup, ← ht]
    exact hholds
  | fresh _ _ _ hsilent hpending _ => exact .inr ⟨hsilent, hpending⟩
  | spread _ hn _ _ hnode =>
    rw [hnode, storeAt_of_ne hn.symm]
    exact .inl hholds

lemma Shift.current (h : Shift k publisher net act net') {n : N} {t : Tuple} (ht : t.1 = k)
    (hholds : (net'.node n).Holds t) : (net.node n).Holds t ∨ (net'.node publisher).Holds t := by
  cases h with
  | same hlookup _ =>
    rw [GossipNode.Holds, ht, hlookup, ← ht] at hholds
    exact .inl hholds
  | fresh _ _ _ _ _ hnode =>
    rw [hnode] at hholds ⊢
    rcases holds_storeAt hholds with h | ⟨-, rfl⟩
    · exact .inl h
    · exact .inr holds_storeAt_self
  | spread _ hn hpublisher _ hnode =>
    rw [hnode] at hholds ⊢
    rcases holds_storeAt hholds with h | ⟨-, rfl⟩
    · exact .inl h
    · rw [storeAt_of_ne hn.symm]
      exact .inr hpublisher

omit [DecidableEq N] in
lemma Silent.not_frame (h : net.Silent k) {l : GossipLink N} (hl : l ∈ net.links) {t : Tuple} (hsend : Sendable t)
    (ht : t.1 = k) : ¬(t.frame ∈ l.up ∨ t.frame ∈ l.down) := by
  have hsaid : ∀ {frames : List (List UInt8)}, t.frame ∈ frames → said k frames ≠ [] := by
    intro frames hmem hnil
    have hvalue : t.2 ∈ said k frames := by
      refine mem_filterMap.mpr ⟨t.frame, hmem, ?_⟩
      rw [saidOf, hsend.decode]
      exact if_pos ht
    rw [hnil] at hvalue
    cases hvalue
  rintro (hmem | hmem)
  · exact hsaid hmem (h l hl).1
  · exact hsaid hmem (h l hl).2

lemma Orderly.step (h : net.Orderly k publisher) (hplain : net.Plain act) (hexpire : ∀ i, act ≠ .expire i)
    (hcalm : net.Calm k publisher act) (hsingle : ∀ n t, act = .publish n t → t.1 = k → n = publisher) :
    ∃ net', net.step act = .ok net' ∧ Shift k publisher net act net' ∧ net'.Orderly k publisher := by
  obtain ⟨net', hstep, hstepped, hgossips⟩ := h.gossips.step hplain hexpire fun _ _ _ => trivial
  have hshift := h.shift hstepped hcalm hsingle
  refine ⟨net', hstep, hshift, hgossips, ?_, ?_⟩
  · refine hstepped.forall_links h.flight (fun i l l' hmem hl hlink t hsend ht hframe => ?_)
      fun l' hnode hlink t hsend ht hframe => ?_
    · rcases hlink.frames hsend hframe with hframe | ⟨n, hnot, hnode⟩ | ⟨hclient, hnode, hholds⟩
      · exact (hshift.keeps ht (hl t hsend ht hframe)).resolve_right fun hsilent =>
          hsilent.1.not_frame hmem hsend ht hframe
      · refine (hshift.current ht (n := n) ?_).resolve_left hnot
        rw [hnode]
        exact holds_storeAt_self
      · rw [hnode]
        rw [GossipNode.Holds, ht] at hholds ⊢
        exact h.pending l hmem hclient t.2 hholds
    · have hholds := hlink.frames hsend hframe
      obtain ⟨hact, -, -⟩ := hlink
      rw [hact] at hcalm
      rw [hnode]
      rw [GossipNode.Holds, ht] at hholds ⊢
      exact hcalm.1 t.2 hholds
  · refine hstepped.forall_links h.pending (fun i l l' hmem hl hlink hclient v hv => ?_)
      fun l' hnode hlink _ v hv => ?_
    · have hnone := hlink.client (h.gossips.unbroken l hmem) (hexpire i) hclient
      rw [hlink.target] at hv
      rcases hshift.current (t := ⟨k, v⟩) rfl hv with hold | hnew
      · rcases hshift.keeps (t := ⟨k, v⟩) rfl (hl hnone v hold) with hkeeps | ⟨-, hpending⟩
        · exact hkeeps
        · rw [GossipNode.Holds, hpending l hmem hnone] at hold
          cases hold
      · exact hnew
    · obtain ⟨hact, -, -⟩ := hlink
      rw [hact] at hcalm
      rw [hnode] at hv ⊢
      exact hcalm.2 v hv

lemma Follows.step {values : List CString} (h : Follows k publisher net values)
    (hshift : Shift k publisher net act net') : Follows k publisher net' (values ++ publishedValues k [act]) := by
  obtain ⟨before, hvalues, hall, hother⟩ := h
  cases hshift with
  | same hlookup hstored =>
    refine ⟨before, ?_, fun n => ?_, fun n hne => ?_⟩
    · rw [hlookup]
      exact hvalues.trans (sublist_append_left _ _)
    · rw [hlookup, hstored]
      exact hall n
    · rw [hlookup, hlookup] at hne
      rw [hstored]
      exact hother n hne
  | @fresh t ht hact _ _ _ hnode =>
    have hvalue : t.valueOf k = some t.2 := if_pos ht
    have hnew : (net'.node publisher).tuples.lookup k = some t.2 := by
      rw [hnode, ← ht]
      exact holds_storeAt_self
    have hpublished : publishedValues k [act] = [t.2] := by
      rw [hact]
      exact filterMap_cons_some hvalue
    refine ⟨before ++ ((net.node publisher).tuples.lookup k).toList, ?_, fun n => ?_, fun n hne => ?_⟩
    · rw [hnew, hpublished]
      exact hvalues.append (.refl _)
    · rw [hnew, hnode, storedValues_storeAt, hvalue]
      split
      · exact (hall n).append (.refl _)
      · exact (hall n).trans (sublist_append_left _ _)
    · have hn : n ≠ publisher := fun hn => hne (by rw [hn])
      rw [hnode, storeAt_of_ne hn]
      exact hall n
  | @spread m t ht hm hpublisher hnot hnode =>
    have hvalue : t.valueOf k = some t.2 := if_pos ht
    have hsame : (net'.node publisher).tuples.lookup k = (net.node publisher).tuples.lookup k := by
      rw [hnode, storeAt_of_ne hm.symm]
    have hlast : (net.node publisher).tuples.lookup k = some t.2 := by
      rw [← ht]
      exact hpublisher
    refine ⟨before, ?_, fun n => ?_, fun n hne => ?_⟩
    · rw [hsame]
      exact hvalues.trans (sublist_append_left _ _)
    · rw [hsame, hnode, storedValues_storeAt]
      split
      · rename_i hn
        subst hn
        have hdiffers : (net.node n).tuples.lookup k ≠ (net.node publisher).tuples.lookup k := fun heq =>
          hnot (by rw [GossipNode.Holds, ht, heq, hlast])
        rw [hvalue, hlast]
        exact (hother n hdiffers).append (.refl _)
      · exact hall n
    · have hn : n ≠ m := by
        rintro rfl
        refine hne ?_
        rw [hsame, hlast, hnode, ← ht]
        exact holds_storeAt_self
      rw [hsame] at hne
      rw [hnode, storeAt_of_ne hn] at hne ⊢
      exact hother n hne

lemma Orderly.run (acts : List (GossipAct N)) (h : net.Orderly k publisher) {values : List CString}
    (hfollows : Follows k publisher net values) (hexpire : ∀ i, .expire i ∉ acts)
    (hsingle : ∀ n t, .publish n t ∈ acts → t.1 = k → n = publisher)
    (hmeets : StepsMeet GossipNet.step (fun net act => net.Plain act ∧ net.Calm k publisher act) net acts) :
    ∃ net', runSteps GossipNet.step net acts = .ok net' ∧
      Follows k publisher net' (values ++ publishedValues k acts) := by
  induction acts generalizing net values with
  | nil => exact ⟨net, rfl, by rw [publishedValues, filterMap_nil, append_nil]; exact hfollows⟩
  | cons act acts ih =>
    obtain ⟨⟨hplain, hcalm⟩, hrest⟩ := hmeets
    obtain ⟨net1, hstep, hshift, horderly⟩ := h.step hplain
      (fun i hi => hexpire i (hi ▸ mem_cons_self)) hcalm
      fun n t hact => hsingle n t (hact ▸ mem_cons_self)
    obtain ⟨net', hrun, hfollows'⟩ := ih horderly (hfollows.step hshift)
      (fun i hi => hexpire i (mem_cons_of_mem act hi))
      (fun n t ht => hsingle n t (mem_cons_of_mem act ht)) (hrest net1 hstep)
    refine ⟨net', by rw [runSteps_cons_ok hstep, hrun], ?_⟩
    rw [publishedValues_cons, ← append_assoc]
    exact hfollows'

instance (net : GossipNet N) (k : CString) (publisher n : N) : Decidable (net.Current k publisher n) :=
  decidable_of_iff (∀ v ∈ (net.node n).tuples.lookup k, (net.node publisher).tuples.lookup k = some v) Iff.rfl

instance (net : GossipNet N) (k : CString) (publisher : N) (act : GossipAct N) :
    Decidable (net.Calm k publisher act) :=
  match act with
  | .connect source target _ =>
    inferInstanceAs (Decidable (net.Current k publisher source ∧ net.Current k publisher target))
  | .publish n t => inferInstanceAs (Decidable (t.1 = k → ¬(net.node n).Holds t →
      (∀ l ∈ net.links, said k l.up = [] ∧ said k l.down = []) ∧
        ∀ l ∈ net.links, l.client = none → (net.node l.target).tuples.lookup k = none))
  | .deliverUp _ _ | .deliverDown _ | .expire _ => isTrue trivial

end GossipNet

end Czmq
