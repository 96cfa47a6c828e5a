import ZeroMQ.Foundation.Replica
import ZeroMQ.Pattern.Xpub
import ZeroMQ.Pattern.Xsub

/-!
# Subscriptions reach the publishers

A subscriber sends its subscriptions to any number of publishers. It sends every subscription, but a
cancellation only if it was the last one for its prefix. A new pipe gets all subscriptions there are,
and so does one that hiccuped, of which all that was queued is lost.

Here the pipes are queues without a limit. If the publisher knew nothing of a hiccup it would keep a
subscription whose cancellation was lost. But a pipe hiccups when its connection is lost, and after
that the publisher knows the subscriber by a new pipe (`renew`), and removes the old one sooner or later.
-/

namespace Zmq

open Foundation List Nat

/-- A publisher, and what is on its way to it from the subscriber. -/
structure SyncPeer where
  subscriptions : Mtrie ℕ
  /-- The pipe by which the publisher knows the subscriber. -/
  pipe : ℕ
  /-- Messages in the pipe, oldest first. -/
  queue : List (List UInt8)

/-- A subscriber and its publishers. -/
structure SyncSystem where
  subscriptions : Trie
  peers : List SyncPeer

/-- A step of the system. -/
inductive SyncAct
  /-- A new pipe is attached, to a new publisher. -/
  | attach
  /-- The application sends a message. -/
  | send (body : List UInt8)
  /-- A pipe hiccups. -/
  | hiccup (peer : ℕ)
  /-- A publisher processes a message. -/
  | process (peer : ℕ)
  /-- A publisher removes the pipe of a connection that was lost. -/
  | close (peer pipe : ℕ)

namespace SyncSystem

/-- No pipes, no subscriptions. -/
def new : SyncSystem := ⟨Node.new, []⟩

/-- All subscriptions, as messages. -/
def replay (t : Trie) : Except TrieFault (List (List UInt8)) :=
  t.apply.map fun keys => keys.map fun key => (Xsub.subscription key).body

/-- A message is put into all pipes. -/
def sendToAll (s : SyncSystem) (body : List UInt8) : List SyncPeer :=
  s.peers.map fun peer => { peer with queue := peer.queue ++ [body] }

/-- One step. With `renew` a pipe that hiccups is another one for the publisher afterwards, and the
publisher can remove the old ones. -/
def step (renew : Bool) (s : SyncSystem) : SyncAct → Except TrieFault SyncSystem
  | .attach =>
    match replay s.subscriptions with
    | .error e => .error e
    | .ok queue => .ok { s with peers := s.peers ++ [⟨Node.new, 0, queue⟩] }
  | .send body =>
    match Xsub.forward s.subscriptions body with
    | .error e => .error e
    | .ok (false, t) => .ok { s with subscriptions := t }
    | .ok (true, t) => .ok ⟨t, s.sendToAll body⟩
  | .hiccup i =>
    match s.peers[i]?, replay s.subscriptions with
    | none, _ => .ok s
    | some _, .error e => .error e
    | some peer, .ok queue => .ok { s with peers := s.peers.set i { peer with
        pipe := if renew then peer.pipe + 1 else peer.pipe
        queue := queue } }
  | .process i =>
    match s.peers[i]? with
    | none => .ok s
    | some peer =>
      match peer.queue with
      | [] => .ok s
      | body :: queue =>
        match Xpub.subscribe peer.subscriptions peer.pipe body with
        | .error e => .error e
        | .ok (_, t) => .ok { s with peers := s.peers.set i { peer with
            subscriptions := t
            queue := queue } }
  | .close i p =>
    match s.peers[i]? with
    | none => .ok s
    | some peer =>
      if renew ∧ p < peer.pipe then
        match peer.subscriptions.rmPipe p with
        | .error e => .error e
        | .ok (_, t) => .ok { s with peers := s.peers.set i { peer with subscriptions := t } }
      else .ok s

/-- A sequence of steps. -/
def run (renew : Bool) (s : SyncSystem) (acts : List SyncAct) : Except TrieFault SyncSystem :=
  runSteps (step renew) s acts

/-- A publisher that has nothing left to process knows the subscriptions: its trie has the pipe at a
prefix exactly if the reference count of the prefix is positive. -/
def Synchronised (s : SyncSystem) : Prop :=
  ∀ peer ∈ s.peers, peer.queue = [] → ∀ key,
    peer.pipe ∈ (Node.get key peer.subscriptions).getD ∅ ↔ 0 < (Node.get key s.subscriptions).toNat

/-- The prefix a message subscribes to. -/
def subscribed : List UInt8 → Option (List UInt8)
  | 1 :: key => some key
  | _ => none

/-- No prefix is subscribed to so often that its reference count wraps round. -/
def Fits (s : SyncSystem) : SyncAct → Prop
  | .send body => ∀ key ∈ subscribed body, (Node.get key s.subscriptions).toNat + 1 < 2 ^ 32
  | _ => True

instance (s : SyncSystem) (a : SyncAct) : Decidable (s.Fits a) :=
  match a with
  | .send _ => inferInstanceAs (Decidable (∀ key ∈ _, _ < _))
  | .attach | .hiccup _ | .process _ | .close _ _ => inferInstanceAs (Decidable True)

end SyncSystem

/-! ### What is on its way -/

/-- A message changes what the pipe is subscribed to. -/
def subscribeTo (T : Set (List UInt8)) : List UInt8 → Set (List UInt8)
  | 0 :: key => T \ {key}
  | 1 :: key => insert key T
  | _ => T

/-- Only what is there is cancelled. -/
def Cancels (T : Set (List UInt8)) : List UInt8 → Prop
  | 0 :: key => key ∈ T
  | _ => True

@[simp] lemma subscribeTo_cancel (T : Set (List UInt8)) (key : List UInt8) :
    subscribeTo T (0 :: key) = T \ {key} := rfl

@[simp] lemma subscribeTo_subscribe (T : Set (List UInt8)) (key : List UInt8) :
    subscribeTo T (1 :: key) = insert key T := rfl

lemma subscribeTo_of_other {data : List UInt8} (h0 : ∀ key, data ≠ 0 :: key)
    (h1 : ∀ key, data ≠ 1 :: key) (T : Set (List UInt8)) : subscribeTo T data = T := by
  unfold subscribeTo
  split
  · exact absurd rfl (h0 _)
  · exact absurd rfl (h1 _)
  · rfl

lemma cancels_of_other {data : List UInt8} (h0 : ∀ key, data ≠ 0 :: key) (T : Set (List UInt8)) :
    Cancels T data := by
  unfold Cancels
  split
  · exact absurd rfl (h0 _)
  · trivial

/-- The messages that are on their way make the first set of subscriptions the second one. -/
abbrev OnTheWay (T : Set (List UInt8)) (queue : List (List UInt8)) (T' : Set (List UInt8)) : Prop :=
  Follows subscribeTo Cancels T queue T'

lemma onTheWay_replay (keys : List (List UInt8)) :
    OnTheWay ∅ (keys.map fun key => (Xsub.subscription key).body) { key | key ∈ keys } := by
  have hvalid : ∀ u ∈ keys.map (fun key => (Xsub.subscription key).body), ∀ T, Cancels T u := by
    intro u hu T
    obtain ⟨key, -, rfl⟩ := mem_map.1 hu
    trivial
  have hfold : ∀ (ks : List (List UInt8)) T,
      (ks.map fun key => (Xsub.subscription key).body).foldl subscribeTo T = T ∪ { k | k ∈ ks } := by
    intro ks
    induction ks with
    | nil => simp
    | cons key ks ih =>
      intro T
      rw [map_cons, foldl_cons, ih]
      ext k
      simp only [Xsub.subscription, subscribeTo, Set.mem_union, Set.mem_insert_iff,
        Set.mem_ofPred_eq, mem_cons]
      tauto
  have hfollows : Follows subscribeTo Cancels ∅ _ _ := Follows.of_forall hvalid ∅
  rw [hfold, Set.empty_union] at hfollows
  exact hfollows

/-! ### The invariant -/

/-- The publisher will have the subscriptions when all messages are processed. -/
structure PeerInv (T : Set (List UInt8)) (peer : SyncPeer) (R : Subscribed) : Prop where
  trie : Mtrie.Represents peer.subscriptions R
  le_pipe : ∀ x ∈ R, x.2 ≤ peer.pipe
  queue : OnTheWay { key | (key, peer.pipe) ∈ R } peer.queue T

/-- The trie of the subscriber stores the subscriptions, and all publishers will have them. -/
structure SyncInv (s : SyncSystem) (S : Multiset (List UInt8)) : Prop where
  trie : Trie.Represents s.subscriptions S
  peers : ∀ peer ∈ s.peers, ∃ R, PeerInv { key | key ∈ S } peer R

namespace PeerInv

variable {T : Set (List UInt8)} {peer : SyncPeer} {R : Subscribed}

lemma enqueue (h : PeerInv T peer R) {body : List UInt8} (hbody : Cancels T body) :
    PeerInv (subscribeTo T body) { peer with queue := peer.queue ++ [body] } R :=
  ⟨h.trie, h.le_pipe, h.queue.snoc hbody⟩

lemma process (h : PeerInv T peer R) {body : List UInt8} {queue : List (List UInt8)}
    (hqueue : peer.queue = body :: queue) :
    ∃ b t, Xpub.subscribe peer.subscriptions peer.pipe body = .ok (b, t) ∧
      PeerInv T { peer with subscriptions := t, queue := queue } (R.apply peer.pipe body) := by
  obtain ⟨hvalid, hrest⟩ : Cancels { key | (key, peer.pipe) ∈ R } body ∧
      OnTheWay (subscribeTo { key | (key, peer.pipe) ∈ R } body) queue T := by
    have := h.queue
    rwa [hqueue] at this
  obtain ⟨key, rfl⟩ | ⟨key, rfl⟩ | ⟨h0, h1⟩ := subscription_cases body
  · obtain ⟨t, hrm, ht⟩ := h.trie.rm (show (key, peer.pipe) ∈ R from hvalid)
    refine ⟨_, t, hrm, ht, fun x hx => h.le_pipe x (Finset.mem_of_mem_erase hx), ?_⟩
    convert hrest using 2
    ext k
    simp [Subscribed.apply, and_comm]
  · obtain ⟨t, hadd, ht⟩ := h.trie.add key peer.pipe
    refine ⟨_, t, hadd, ht, fun x hx => ?_, ?_⟩
    · rcases Finset.mem_insert.1 hx with rfl | hx
      · exact le_rfl
      · exact h.le_pipe x hx
    · convert hrest using 2
      ext k
      simp [Subscribed.apply]
  · rw [Subscribed.apply_of_other h0 h1]
    rw [subscribeTo_of_other h0 h1] at hrest
    exact ⟨true, peer.subscriptions, Xpub.subscribe_of_other h0 h1 _ _, h.trie, h.le_pipe, hrest⟩

lemma renew (h : PeerInv T peer R) {queue : List (List UInt8)} (hqueue : OnTheWay ∅ queue T) :
    PeerInv T { peer with pipe := peer.pipe + 1, queue := queue } R := by
  refine ⟨h.trie, fun x hx => le_succ_of_le (h.le_pipe x hx), ?_⟩
  have hnone : { key | (key, peer.pipe + 1) ∈ R } = (∅ : Set (List UInt8)) := by
    rw [Set.eq_empty_iff_forall_notMem]
    intro key hkey
    exact absurd (h.le_pipe _ hkey) (not_succ_le_self _)
  simp only [hnone]
  exact hqueue

lemma close (h : PeerInv T peer R) {p : ℕ} (hp : p < peer.pipe) :
    ∃ calls t, peer.subscriptions.rmPipe p = .ok (calls, t) ∧
      PeerInv T { peer with subscriptions := t } (R.filter fun x => x.2 ≠ p) := by
  obtain ⟨t, calls, hrm, -, ht⟩ := h.trie.rmPipe p
  refine ⟨calls, t, hrm, ht, fun x hx => h.le_pipe x (Finset.mem_filter.1 hx).1, ?_⟩
  have hsame : { key | (key, peer.pipe) ∈ R.filter fun x => x.2 ≠ p } =
      { key | (key, peer.pipe) ∈ R } := by
    ext key
    simp [ne_of_gt hp]
  rw [hsame]
  exact h.queue

end PeerInv

namespace SyncInv

variable {s : SyncSystem} {S : Multiset (List UInt8)}

lemma new : SyncInv SyncSystem.new 0 := ⟨Trie.Represents.new, by simp [SyncSystem.new]⟩

lemma replay (h : SyncInv s S) :
    ∃ queue, SyncSystem.replay s.subscriptions = .ok queue ∧ OnTheWay ∅ queue { key | key ∈ S } := by
  obtain ⟨keys, happly, hkeys⟩ := h.trie.apply
  refine ⟨_, by rw [SyncSystem.replay, happly]; rfl, ?_⟩
  have hset : { key | key ∈ S } = { key | key ∈ keys } := by
    ext key
    rw [Set.mem_ofPred_eq, Set.mem_ofPred_eq, ← Multiset.mem_coe, hkeys, Multiset.mem_dedup]
  rw [hset]
  exact onTheWay_replay keys

lemma set (h : SyncInv s S) {i : ℕ} {peer : SyncPeer} {R : Subscribed}
    (hpeer : PeerInv { key | key ∈ S } peer R) : SyncInv { s with peers := s.peers.set i peer } S := by
  refine ⟨h.trie, fun q hq => ?_⟩
  rcases mem_or_eq_of_mem_set hq with hq | rfl
  · exact h.peers q hq
  · exact ⟨R, hpeer⟩

lemma forward (h : SyncInv s S) {t : Trie} {S' : Multiset (List UInt8)} {body : List UInt8}
    (ht : Trie.Represents t S') (hbody : Cancels { key | key ∈ S } body)
    (hset : { key | key ∈ S' } = subscribeTo { key | key ∈ S } body) :
    SyncInv ⟨t, s.sendToAll body⟩ S' := by
  refine ⟨ht, fun q hq => ?_⟩
  obtain ⟨peer, hpeer, rfl⟩ := mem_map.1 hq
  obtain ⟨R, hR⟩ := h.peers peer hpeer
  rw [hset]
  exact ⟨R, hR.enqueue hbody⟩

lemma send (h : SyncInv s S) (body : List UInt8) (hfits : s.Fits (.send body)) :
    ∃ t S', s.step true (.send body) = .ok t ∧ SyncInv t S' := by
  obtain ⟨key, rfl⟩ | ⟨key, rfl⟩ | ⟨h0, h1⟩ := subscription_cases body
  · obtain ⟨t, hrm, ht⟩ := h.trie.rm key
    by_cases hone : S.count key = 1
    · refine ⟨⟨t, s.sendToAll (0 :: key)⟩, S.erase key, ?_, h.forward ht ?_ ?_⟩
      · simp only [SyncSystem.step, Xsub.forward, hrm, hone, decide_true]
      · exact Multiset.count_pos.1 (by rw [hone]; exact one_pos)
      · ext k
        by_cases hk : k = key
        · subst hk
          have hgone : k ∉ S.erase k := by
            rw [← Multiset.count_eq_zero, Multiset.count_erase_self, hone]
          simp [hgone]
        · simp [hk, Multiset.mem_erase_of_ne hk]
    · refine ⟨{ s with subscriptions := t }, S.erase key, ?_, ht, ?_⟩
      · simp only [SyncSystem.step, Xsub.forward, hrm, hone, decide_false]
      · have hset : { k | k ∈ S.erase key } = { k | k ∈ S } := by
          ext k
          rw [Set.mem_ofPred_eq, Set.mem_ofPred_eq]
          by_cases hk : k = key
          · subst hk
            rw [← Multiset.count_pos, ← Multiset.count_pos, Multiset.count_erase_self]
            omega
          · exact Multiset.mem_erase_of_ne hk
        rw [hset]
        exact h.peers
  · have hcount : S.count key + 1 < 2 ^ 32 := by
      rw [← h.trie.count]
      exact hfits key rfl
    obtain ⟨t, hadd, ht⟩ := h.trie.add hcount
    refine ⟨⟨t, s.sendToAll (1 :: key)⟩, key ::ₘ S, ?_, h.forward ht trivial ?_⟩
    · simp only [SyncSystem.step, Xsub.forward, hadd]
      rfl
    · ext k
      simp
  · refine ⟨⟨s.subscriptions, s.sendToAll body⟩, S, ?_, h.forward h.trie (cancels_of_other h0 _) ?_⟩
    · have hforward : Xsub.forward s.subscriptions body = .ok (true, s.subscriptions) := by
        unfold Xsub.forward
        split
        · exact absurd rfl (h1 _)
        · exact absurd rfl (h0 _)
        · rfl
      simp only [SyncSystem.step, hforward]
    · rw [subscribeTo_of_other h0 h1]

lemma step (h : SyncInv s S) (a : SyncAct) (hfits : s.Fits a) :
    ∃ t S', s.step true a = .ok t ∧ SyncInv t S' := by
  cases a with
  | attach =>
    obtain ⟨queue, hreplay, hway⟩ := h.replay
    refine ⟨{ s with peers := s.peers ++ [⟨Node.new, 0, queue⟩] }, S, ?_, h.trie, fun q hq => ?_⟩
    · simp only [SyncSystem.step, hreplay]
    rcases mem_append.1 hq with hq | hq
    · exact h.peers q hq
    · rw [mem_singleton.1 hq]
      exact ⟨∅, Mtrie.Represents.new, by simp, by simpa using hway⟩
  | send body => exact h.send body hfits
  | hiccup i =>
    obtain ⟨queue, hreplay, hway⟩ := h.replay
    cases hi : s.peers[i]? with
    | none => exact ⟨s, S, by simp only [SyncSystem.step, hi], h⟩
    | some peer =>
      obtain ⟨R, hR⟩ := h.peers peer (mem_of_getElem? hi)
      exact ⟨_, S, by simp only [SyncSystem.step, hi, hreplay]; rfl, h.set (i := i) (hR.renew hway)⟩
  | process i =>
    cases hi : s.peers[i]? with
    | none => exact ⟨s, S, by simp only [SyncSystem.step, hi], h⟩
    | some peer =>
      obtain ⟨R, hR⟩ := h.peers peer (mem_of_getElem? hi)
      cases hqueue : peer.queue with
      | nil => exact ⟨s, S, by simp only [SyncSystem.step, hi, hqueue], h⟩
      | cons body queue =>
        obtain ⟨b, t, hsub, ht⟩ := hR.process hqueue
        exact ⟨_, S, by simp only [SyncSystem.step, hi, hqueue, hsub], h.set (i := i) ht⟩
  | close i p =>
    cases hi : s.peers[i]? with
    | none => exact ⟨s, S, by simp only [SyncSystem.step, hi], h⟩
    | some peer =>
      obtain ⟨R, hR⟩ := h.peers peer (mem_of_getElem? hi)
      by_cases hp : p < peer.pipe
      · obtain ⟨calls, t, hrm, ht⟩ := hR.close hp
        exact ⟨_, S, by simp only [SyncSystem.step, hi, hp, and_self, if_true, hrm], h.set (i := i) ht⟩
      · exact ⟨s, S, by simp only [SyncSystem.step, hi, hp, and_false, if_false], h⟩

lemma synchronised (h : SyncInv s S) : s.Synchronised := by
  intro peer hpeer hempty key
  obtain ⟨R, hR⟩ := h.peers peer hpeer
  have hsame : { key | (key, peer.pipe) ∈ R } = { key | key ∈ S } := by
    have := hR.queue
    rwa [hempty] at this
  rw [← hR.trie.mem, h.trie.count, Multiset.count_pos]
  exact Set.ext_iff.1 hsame key

end SyncInv

/-- **Subscriptions reach the publishers.** Let the publisher know the subscriber by a new pipe after a
hiccup. Then in every run in which no reference count wraps round no assertion fails, and a publisher
that has processed all messages has the pipe at exactly the prefixes the subscriber is subscribed to. -/
theorem sub_synchronised (acts : List SyncAct)
    (hfits : StepsMeet (SyncSystem.step true) SyncSystem.Fits SyncSystem.new acts) :
    ∃ s, SyncSystem.new.run true acts = .ok s ∧ s.Synchronised := by
  obtain ⟨s, hrun, S, hs⟩ := runSteps_invariant (I := fun s => ∃ S, SyncInv s S)
    (fun s a ⟨S, h⟩ hf => by
      obtain ⟨t, S', hstep, ht⟩ := h.step a hf
      exact ⟨t, hstep, S', ht⟩) ⟨0, SyncInv.new⟩ hfits
  exact ⟨s, hrun, hs.synchronised⟩

/-- A publisher processes a subscription, and the cancellation is lost with the connection. -/
theorem sub_synchronised_reconnected :
    ∃ s, SyncSystem.new.run true [.attach, .send [1, 97], .send [1, 97], .send [1, 98], .process 0,
        .send [0, 97], .send [0, 97], .hiccup 0, .attach, .process 0, .process 1, .close 0 0] =
        .ok s ∧ s.Synchronised :=
  sub_synchronised _ (by decide +kernel)

/-- If the publisher goes on with the same pipe, it keeps a subscription whose cancellation was lost. -/
theorem sub_not_synchronised :
    ∃ s, SyncSystem.new.run false [.attach, .send [1, 97], .process 0, .send [0, 97], .hiccup 0] =
        .ok s ∧ ¬s.Synchronised := by
  refine okAnd.exists_imp (P := fun s => ∃ peer ∈ s.peers, peer.queue = [] ∧
    peer.pipe ∈ (Node.get [97] peer.subscriptions).getD ∅ ∧
      ¬0 < (Node.get [97] s.subscriptions).toNat) (by decide +kernel) ?_
  rintro s - ⟨peer, hpeer, hempty, hmem, hzero⟩ h
  exact hzero ((h peer hpeer hempty [97]).1 hmem)

end Zmq
