import Mathlib.Data.List.Nodup
import ZeroMQ.Thread.Ctx

/-!
# The slots and the endpoints of a context

Every step of a context keeps its slots and its endpoints in order, whatever else it does. Each thread id there is for
sockets is either that of one socket or free, so that no two sockets share one. A socket that is bound is still there,
and no connection waits for an address that is bound. The last is so because a bind and the connections that wait for
it are one step here. That a socket is still there while a connection it has made waits depends on its counter
`sent_seqnum`, which has 32 bits only, and is left out.
-/

namespace Zmq

open Function List Nat

variable {A : Type}

/-! ### Slots -/

/-- Every thread id there is for sockets is that of one socket or free, and the array of mailboxes agrees. -/
structure CtxSlots.Valid (s : CtxSlots) : Prop where
  partition : s.sockets.map s.tid ++ s.emptySlots ~ s.socketTids
  owner : ∀ sid ∈ s.sockets, s.slots (s.tid sid) = some (.socket sid)
  free : ∀ tid ∈ s.emptySlots, s.slots tid = none
  known : ∀ sid ∈ s.sockets, sid ≤ s.maxSocketId
  asleep : s.starting = true → s.sockets = []

namespace CtxSlots.Valid

variable {s s' : CtxSlots} {sid slot : ℕ} {rest : List ℕ}

section

variable (h : s.Valid)

include h

lemma nodup : (s.sockets.map s.tid ++ s.emptySlots).Nodup :=
  h.partition.nodup_iff.mpr nodup_range'

lemma nodup_tids : (s.sockets.map s.tid).Nodup :=
  (nodup_append.mp h.nodup).1

lemma nodup_sockets : s.sockets.Nodup :=
  List.Nodup.of_map s.tid h.nodup_tids

lemma tid_notMem_emptySlots (hsid : sid ∈ s.sockets) : s.tid sid ∉ s.emptySlots := by
  intro hmem
  exact (nodup_append.mp h.nodup).2.2 _ (mem_map_of_mem hsid) _ hmem rfl

lemma succ_notMem : s.maxSocketId + 1 ∉ s.sockets := by
  intro hmem
  have := h.known _ hmem
  omega

lemma emptySlots_eq_nil_iff :
    s.emptySlots = [] ↔ ∀ tid ∈ s.socketTids, ∃ sid ∈ s.sockets, s.tid sid = tid := by
  constructor
  · intro hnil tid htid
    have hmem := h.partition.mem_iff.mpr htid
    rw [hnil, append_nil] at hmem
    exact mem_map.mp hmem
  · intro hfull
    rw [eq_nil_iff_forall_not_mem]
    intro tid hfree
    obtain ⟨sid, hsid, htid⟩ := hfull tid (h.partition.mem_iff.mp (mem_append_right _ hfree))
    exact h.tid_notMem_emptySlots hsid (htid ▸ hfree)

lemma start (hstarting : s.starting = true) {maxSockets ioThreadCount : ℤ}
    (hok : s.start maxSockets ioThreadCount = .ok s') : s'.Valid := by
  have hnone := h.asleep hstarting
  unfold CtxSlots.start at hok
  split at hok
  next =>
    rw [← Except.ok.inj hok]
    constructor
    · simp [hnone, socketTids]
    · simp [hnone]
    · intro tid htid
      have hle := (mem_range'_1.mp htid).1
      simp only
      rw [if_neg (by omega), if_neg (by omega), if_neg (by omega)]
    · simp [hnone]
    · exact fun _ => hnone
  next => cases hok

lemma take (hstarting : s.starting = false) (hempty : s.emptySlots = slot :: rest) :
    (s.take slot rest (s.maxSocketId + 1)).Valid := by
  have hfresh := h.succ_notMem
  have hmap : s.sockets.map (update s.tid (s.maxSocketId + 1) slot) = s.sockets.map s.tid := by
    refine map_congr_left fun sid hsid => update_of_ne ?_ _ _
    exact fun heq => hfresh (heq ▸ hsid)
  have hne : ∀ sid ∈ s.sockets, sid ≠ s.maxSocketId + 1 := fun sid hsid heq => hfresh (heq ▸ hsid)
  constructor
  · change (s.sockets ++ [s.maxSocketId + 1]).map (update s.tid _ slot) ++ rest ~ s.socketTids
    rw [map_append, hmap, map_singleton, update_self, append_assoc, singleton_append,
      ← hempty]
    exact h.partition
  · intro sid hsid
    change update s.slots slot _ (update s.tid _ slot sid) = _
    rcases mem_append.mp hsid with hsid | hsid
    · have htid : s.tid sid ≠ slot := by
        intro heq
        refine h.tid_notMem_emptySlots hsid ?_
        rw [hempty, heq]
        exact mem_cons_self
      rw [update_of_ne (hne sid hsid), update_of_ne htid]
      exact h.owner sid hsid
    · rw [mem_singleton.mp hsid, update_self, update_self]
  · intro tid htid
    have hnodup := (nodup_append.mp h.nodup).2.1
    rw [hempty, nodup_cons] at hnodup
    change update s.slots slot _ tid = none
    have hne : tid ≠ slot := by
      rintro rfl
      exact hnodup.1 htid
    rw [update_of_ne hne]
    exact h.free tid (hempty ▸ mem_cons_of_mem _ htid)
  · intro sid hsid
    rcases mem_append.mp hsid with hsid | hsid
    · exact le_succ_of_le (h.known sid hsid)
    · exact (mem_singleton.mp hsid).le
  · intro hstart
    exact absurd (hstarting.symm.trans hstart) (by decide)

lemma skip : { s with maxSocketId := s.maxSocketId + 1 }.Valid :=
  ⟨h.partition, h.owner, h.free, fun sid hsid => le_succ_of_le (h.known sid hsid), h.asleep⟩

lemma release (hsid : sid ∈ s.sockets) : (s.release sid).Valid := by
  have hperm := perm_cons_erase hsid
  constructor
  · change (s.sockets.erase sid).map s.tid ++ s.tid sid :: s.emptySlots ~ s.socketTids
    calc (s.sockets.erase sid).map s.tid ++ s.tid sid :: s.emptySlots
        ~ s.tid sid :: ((s.sockets.erase sid).map s.tid ++ s.emptySlots) := perm_middle
      _ = (sid :: s.sockets.erase sid).map s.tid ++ s.emptySlots := rfl
      _ ~ s.sockets.map s.tid ++ s.emptySlots := (hperm.symm.map s.tid).append_right _
      _ ~ s.socketTids := h.partition
  · intro sid' hsid'
    obtain ⟨hne, hmem⟩ := h.nodup_sockets.mem_erase_iff.mp hsid'
    have htid : s.tid sid' ≠ s.tid sid := by
      intro heq
      exact hne (inj_on_of_nodup_map h.nodup_tids hmem hsid heq)
    change update s.slots (s.tid sid) none (s.tid sid') = _
    rw [update_of_ne htid]
    exact h.owner sid' hmem
  · intro tid htid
    change update s.slots (s.tid sid) none tid = none
    rcases mem_cons.mp htid with rfl | htid
    · exact update_self _ _ _
    · have hne : tid ≠ s.tid sid := fun heq => h.tid_notMem_emptySlots hsid (heq ▸ htid)
      rw [update_of_ne hne]
      exact h.free tid htid
  · exact fun sid' hsid' => h.known sid' (mem_of_mem_erase hsid')
  · intro hstarting
    change s.sockets.erase sid = []
    rw [h.asleep hstarting]
    exact erase_nil _

end

end CtxSlots.Valid

/-! ### Endpoints -/

/-- The endpoints belong to sockets of the context that have not been reaped, and no connection waits for one of them. -/
structure CtxInproc.Valid [DecidableEq A] (i : CtxInproc A) (sockets : List ℕ) : Prop where
  bound : ∀ e ∈ i.endpoints, e.2 ∈ sockets ∧ (i.socket e.2).reaped = false
  settled : ∀ p ∈ i.pendingConnections, i.endpoints.lookup p.1 = none
  reaped : ∀ sid ∈ sockets, (i.socket sid).reaped = true → (i.socket sid).closed = true

namespace CtxInproc

variable {i : CtxInproc A} {sid peer : ℕ} {addr : A}

@[simp] lemma modify_endpoints (i : CtxInproc A) (sid : ℕ) (f : CtxSocket → CtxSocket) :
    (i.modify sid f).endpoints = i.endpoints := rfl

@[simp] lemma modify_pendingConnections (i : CtxInproc A) (sid : ℕ) (f : CtxSocket → CtxSocket) :
    (i.modify sid f).pendingConnections = i.pendingConnections := rfl

lemma modify_socket (i : CtxInproc A) (sid sid' : ℕ) (f : CtxSocket → CtxSocket) :
    (i.modify sid f).socket sid' = if sid' = sid then f (i.socket sid') else i.socket sid' := by
  split
  next h =>
    rw [h]
    exact update_self _ _ _
  next h => exact update_of_ne h _ _

lemma close_stopped (i : CtxInproc A) (sid sid' : ℕ) : ((i.close sid).socket sid').stopped = (i.socket sid').stopped := by
  unfold close
  rw [modify_socket]
  split <;> rfl

lemma close_of_ne (i : CtxInproc A) {sid sid' : ℕ} (h : sid' ≠ sid) : (i.close sid).socket sid' = i.socket sid' := by
  unfold close
  rw [modify_socket, if_neg h]

lemma connectInprocConnectSide_eq (i : CtxInproc A) (peer : ℕ) : i.connectInprocConnectSide peer =
    i.modify peer fun s => s.incSeqnum.send := by
  simp [connectInprocConnectSide, modify]

/-- A connection that has waited is made: only the counters of the two sockets change. -/
lemma connectInprocBindSide_socket (i : CtxInproc A) (bindSocket connectSocket sid : ℕ) :
    ∃ sent processed inFlight, (i.connectInprocBindSide bindSocket connectSocket).socket sid =
      { i.socket sid with sentSeqnum := sent, processedSeqnum := processed, inFlight := inFlight } := by
  simp only [connectInprocBindSide, modify_socket]
  split_ifs <;> exact ⟨_, _, _, rfl⟩

/-- Only the counters of a socket change while connections that have waited are made. -/
lemma socket_foldl (l : List (A × ℕ)) (i : CtxInproc A) (bindSocket : ℕ) :
    (l.foldl (fun i p => i.connectInprocBindSide bindSocket p.2) i).endpoints = i.endpoints ∧
    (l.foldl (fun i p => i.connectInprocBindSide bindSocket p.2) i).pendingConnections = i.pendingConnections ∧
    ∀ sid, ∃ sent processed inFlight,
      (l.foldl (fun i p => i.connectInprocBindSide bindSocket p.2) i).socket sid =
        { i.socket sid with sentSeqnum := sent, processedSeqnum := processed, inFlight := inFlight } := by
  induction l generalizing i with
  | nil => exact ⟨rfl, rfl, fun sid => ⟨_, _, _, rfl⟩⟩
  | cons p l ih =>
    obtain ⟨hend, hpend, hsocket⟩ := ih (i.connectInprocBindSide bindSocket p.2)
    refine ⟨hend, hpend, fun sid => ?_⟩
    obtain ⟨sent, processed, inFlight, hlast⟩ := hsocket sid
    obtain ⟨_, _, _, hfirst⟩ := i.connectInprocBindSide_socket bindSocket p.2 sid
    rw [foldl_cons, hlast, hfirst]
    exact ⟨sent, processed, inFlight, rfl⟩

/-! #### The order of the endpoints -/

section Valid

variable [DecidableEq A] {sockets : List ℕ} {f : CtxSocket → CtxSocket}

lemma lookup_filter_eq_none {endpoints : List (A × ℕ)} (h : endpoints.lookup addr = none) (q : A × ℕ → Bool) :
    (endpoints.filter q).lookup addr = none := by
  rw [lookup_eq_none_iff] at h ⊢
  exact fun e he => h e (mem_of_mem_filter he)

section

variable (h : i.Valid sockets)

include h

lemma Valid.reaped_eq_false (hsid : sid ∈ sockets) (hclosed : (i.socket sid).closed = false) :
    (i.socket sid).reaped = false := by
  by_contra hreaped
  have := h.reaped sid hsid (eq_true_of_ne_false hreaped)
  exact absurd (hclosed.symm.trans this) (by decide)

lemma Valid.modify
    (hreaped : (f (i.socket sid)).reaped = true → (i.socket sid).reaped = false → ∀ e ∈ i.endpoints, e.2 ≠ sid)
    (hclosed : sid ∈ sockets → (f (i.socket sid)).reaped = true → (f (i.socket sid)).closed = true) :
    (i.modify sid f).Valid sockets := by
  constructor
  · intro e he
    obtain ⟨hmem, hbound⟩ := h.bound e he
    refine ⟨hmem, ?_⟩
    rw [modify_socket]
    split
    next heq =>
      by_contra hne
      rw [heq] at hbound hne
      exact hreaped (eq_true_of_ne_false hne) hbound e he heq
    next => exact hbound
  · exact h.settled
  · intro sid' hsid'
    rw [modify_socket]
    split
    next heq =>
      rw [heq] at hsid' ⊢
      exact hclosed hsid'
    next => exact h.reaped sid' hsid'

lemma Valid.processCommands (sid : ℕ) : (i.processCommands sid).Valid sockets :=
  h.modify (fun hr hnot => absurd (hnot.symm.trans hr) (by decide)) (h.reaped sid)

lemma Valid.close (sid : ℕ) : (i.close sid).Valid sockets :=
  h.modify (fun hr hnot => absurd (hnot.symm.trans hr) (by decide)) fun _ _ => rfl

lemma Valid.connectInprocConnectSide (peer : ℕ) :
    (i.connectInprocConnectSide peer).Valid sockets := by
  rw [connectInprocConnectSide_eq]
  exact h.modify (fun hr hnot => absurd (hnot.symm.trans hr) (by decide)) (h.reaped peer)

lemma Valid.filter (q : A × ℕ → Bool) :
    { i with endpoints := i.endpoints.filter q }.Valid sockets where
  bound e he := h.bound e (mem_of_mem_filter he)
  settled p hp := lookup_filter_eq_none (h.settled p hp) q
  reaped := h.reaped

lemma Valid.unregisterEndpoint (addr : A) (sid : ℕ) :
    (i.unregisterEndpoint addr sid).1.Valid sockets := by
  unfold CtxInproc.unregisterEndpoint
  split
  · exact h.filter _
  · exact h

lemma Valid.startReaping (hclosed : (i.socket sid).closed = true) :
    (i.startReaping sid).Valid sockets := by
  refine (h.filter _).modify (fun _ _ e he => ?_) fun _ _ => hclosed
  exact of_decide_eq_true (mem_filter.mp he).2

lemma Valid.pendConnection : (i.pendConnection addr sid).Valid sockets := by
  unfold CtxInproc.pendConnection
  split
  next hnone =>
    constructor
    · intro e he
      obtain ⟨hmem, hbound⟩ := h.bound e he
      refine ⟨hmem, ?_⟩
      simp only [modify_socket]
      split <;> exact hbound
    · intro p hp
      rcases mem_append.mp hp with hp | hp
      · exact h.settled p hp
      · rw [mem_singleton.mp hp]
        exact hnone
    · intro sid' hsid'
      simp only [modify_socket]
      split <;> exact h.reaped sid' hsid'
  next peer _ => exact h.connectInprocConnectSide peer

lemma Valid.connectPending (hsid : sid ∈ sockets) (hreaped : (i.socket sid).reaped = false)
    (addr : A) : ({ i with endpoints := (addr, sid) :: i.endpoints }.connectPending addr sid).Valid sockets := by
  obtain ⟨hend, hpend, hsocket⟩ := socket_foldl (i.pendingConnections.filter fun p => p.1 = addr)
    { i with endpoints := (addr, sid) :: i.endpoints } sid
  unfold CtxInproc.connectPending
  constructor
  · simp only [hend]
    intro e he
    obtain ⟨_, _, _, hn⟩ := hsocket e.2
    rw [hn]
    rcases mem_cons.mp he with rfl | he
    · exact ⟨hsid, hreaped⟩
    · exact h.bound e he
  · simp only [hend, hpend]
    intro p hp
    obtain ⟨hp, hne⟩ := mem_filter.mp hp
    rw [lookup_cons, beq_eq_false_iff_ne.mpr (of_decide_eq_true hne)]
    exact h.settled p hp
  · intro sid' hsid'
    obtain ⟨_, _, _, hn⟩ := hsocket sid'
    simp only [hn]
    exact h.reaped sid' hsid'

lemma Valid.bind (hsid : sid ∈ sockets) (hclosed : (i.socket sid).closed = false) (addr : A)
    (interrupted : Bool) : (i.bind sid addr interrupted).1.Valid sockets := by
  unfold CtxInproc.bind
  split
  · exact h
  split
  · exact h
  have hcommands := h.processCommands sid
  dsimp only
  split
  · exact hcommands
  refine hcommands.connectPending hsid ?_ addr
  unfold CtxInproc.processCommands
  rw [modify_socket, if_pos rfl]
  exact h.reaped_eq_false hsid hclosed

lemma Valid.connect (sid : ℕ) (addr : A) (interrupted : Bool) :
    (i.connect sid addr interrupted).1.Valid sockets := by
  unfold CtxInproc.connect
  split
  · exact h
  split
  · exact h
  have hcommands := h.processCommands sid
  dsimp only
  split
  · exact hcommands.connectInprocConnectSide _
  · exact hcommands.pendConnection

lemma Valid.create (hsid : sid ∉ sockets) (type : SocketType) :
    { i with socket := update i.socket sid (.new type) }.Valid (sockets ++ [sid]) := by
  have hold : ∀ sid' ∈ sockets, update i.socket sid (.new type) sid' = i.socket sid' := by
    intro sid' hsid'
    refine update_of_ne ?_ _ _
    rintro rfl
    exact hsid hsid'
  constructor
  · intro e he
    obtain ⟨hmem, hbound⟩ := h.bound e he
    refine ⟨mem_append_left _ hmem, ?_⟩
    simp only [hold _ hmem]
    exact hbound
  · exact h.settled
  · intro sid' hsid'
    rcases mem_append.mp hsid' with hsid' | hsid'
    · simp only [hold sid' hsid']
      exact h.reaped sid' hsid'
    · rw [mem_singleton.mp hsid']
      simp only [update_self]
      exact fun hr => (by cases hr)

lemma Valid.destroy (hreaped : (i.socket sid).reaped = true) : i.Valid (sockets.erase sid) where
  bound e he := by
    obtain ⟨hmem, hbound⟩ := h.bound e he
    refine ⟨(mem_erase_of_ne ?_).mpr hmem, hbound⟩
    intro heq
    rw [heq] at hbound
    exact absurd (hbound.symm.trans hreaped) (by decide)
  settled := h.settled
  reaped sid' hsid' := h.reaped sid' (mem_of_mem_erase hsid')

end

end Valid

/-! #### What the operations leave alone -/

/-- No socket has been closed or stopped. -/
def Keeps (i i' : CtxInproc A) : Prop :=
  ∀ sid, (i'.socket sid).closed = (i.socket sid).closed ∧ (i'.socket sid).stopped = (i.socket sid).stopped

namespace Keeps

variable {i' i'' : CtxInproc A}

lemma refl (i : CtxInproc A) : i.Keeps i := fun _ => ⟨rfl, rfl⟩

lemma trans (h : i.Keeps i') (h' : i'.Keeps i'') : i.Keeps i'' :=
  fun sid => ⟨(h' sid).1.trans (h sid).1, (h' sid).2.trans (h sid).2⟩

lemma modify (i : CtxInproc A) (sid : ℕ) {f : CtxSocket → CtxSocket}
    (hf : ∀ t, (f t).closed = t.closed ∧ (f t).stopped = t.stopped) : i.Keeps (i.modify sid f) := by
  intro sid'
  rw [modify_socket]
  split
  · exact hf _
  · exact ⟨rfl, rfl⟩

lemma processCommands (i : CtxInproc A) (sid : ℕ) : i.Keeps (i.processCommands sid) :=
  modify i sid fun _ => ⟨rfl, rfl⟩

lemma startReaping (i : CtxInproc A) (sid : ℕ) : i.Keeps (i.startReaping sid) :=
  modify (i.unregisterEndpoints sid) sid fun _ => ⟨rfl, rfl⟩

lemma connectInprocConnectSide (i : CtxInproc A) (peer : ℕ) : i.Keeps (i.connectInprocConnectSide peer) := by
  rw [connectInprocConnectSide_eq]
  exact modify i peer fun _ => ⟨rfl, rfl⟩

variable [DecidableEq A]

lemma unregisterEndpoint (i : CtxInproc A) (addr : A) (sid : ℕ) : i.Keeps (i.unregisterEndpoint addr sid).1 := by
  unfold CtxInproc.unregisterEndpoint
  split <;> exact refl i

lemma pendConnection (i : CtxInproc A) (addr : A) (sid : ℕ) : i.Keeps (i.pendConnection addr sid) := by
  unfold CtxInproc.pendConnection
  split
  · exact modify i sid fun _ => ⟨rfl, rfl⟩
  · exact connectInprocConnectSide i _

lemma connectPending (i : CtxInproc A) (addr : A) (sid : ℕ) : i.Keeps (i.connectPending addr sid) := by
  intro sid'
  obtain ⟨_, _, _, hn⟩ := (socket_foldl (i.pendingConnections.filter fun p => p.1 = addr) i sid).2.2 sid'
  unfold CtxInproc.connectPending
  simp only [hn, and_self]

lemma bind (i : CtxInproc A) (sid : ℕ) (addr : A) (interrupted : Bool) :
    i.Keeps (i.bind sid addr interrupted).1 := by
  unfold CtxInproc.bind
  split
  · exact refl i
  split
  · exact refl i
  have hcommands := processCommands i sid
  dsimp only
  split
  · exact hcommands
  · exact hcommands.trans (connectPending { i.processCommands sid with endpoints := _ } addr sid)

lemma connect (i : CtxInproc A) (sid : ℕ) (addr : A) (interrupted : Bool) :
    i.Keeps (i.connect sid addr interrupted).1 := by
  unfold CtxInproc.connect
  split
  · exact refl i
  split
  · exact refl i
  have hcommands := processCommands i sid
  dsimp only
  split
  · exact hcommands.trans (connectInprocConnectSide _ _)
  · exact hcommands.trans (pendConnection _ addr sid)

end Keeps

/-! #### Connections that wait -/

section Pending

variable [DecidableEq A]

lemma connectPending_pendingConnections (i : CtxInproc A) (addr : A) (sid : ℕ) :
    (i.connectPending addr sid).pendingConnections = i.pendingConnections.filter fun p => p.1 ≠ addr := by
  obtain ⟨-, hpend, -⟩ := socket_foldl (i.pendingConnections.filter fun p => p.1 = addr) i sid
  unfold CtxInproc.connectPending
  simp only [hpend]

lemma mem_of_mem_bind {interrupted : Bool} {p : A × ℕ}
    (hp : p ∈ (i.bind sid addr interrupted).1.pendingConnections) : p ∈ i.pendingConnections := by
  unfold CtxInproc.bind at hp
  split at hp
  · exact hp
  split at hp
  · exact hp
  dsimp only at hp
  split at hp
  · exact hp
  · rw [connectPending_pendingConnections] at hp
    exact mem_of_mem_filter hp

lemma lookup_bind_ne_none (hstopped : (i.socket sid).stopped = false) (addr : A) :
    (i.bind sid addr false).1.endpoints.lookup addr ≠ none := by
  unfold CtxInproc.bind
  simp only [hstopped, Bool.false_eq_true, if_false]
  split
  next hsome =>
    rw [hsome]
    exact Option.some_ne_none _
  obtain ⟨hend, -, -⟩ := socket_foldl ((i.processCommands sid).pendingConnections.filter fun p => p.1 = addr)
    { i.processCommands sid with endpoints := (addr, sid) :: (i.processCommands sid).endpoints } sid
  unfold CtxInproc.connectPending
  simp only [hend, lookup_cons, beq_self_eq_true]
  exact Option.some_ne_none _

lemma Valid.fst_ne_of_mem_bind {sockets : List ℕ} (h : i.Valid sockets) (hsid : sid ∈ sockets)
    (hclosed : (i.socket sid).closed = false) (hstopped : (i.socket sid).stopped = false) {p : A × ℕ}
    (hp : p ∈ (i.bind sid addr false).1.pendingConnections) : p.1 ≠ addr := by
  rintro rfl
  exact lookup_bind_ne_none hstopped p.1 ((h.bind hsid hclosed p.1 false).settled p hp)

lemma mem_of_mem_connect {interrupted : Bool} {p : A × ℕ}
    (hp : p ∈ (i.connect sid addr interrupted).1.pendingConnections) : p ∈ i.pendingConnections ∨
      ((i.socket sid).stopped = false ∧ i.endpoints.lookup addr = none ∧ p.1 = addr) := by
  unfold CtxInproc.connect at hp
  split at hp
  next => exact .inl hp
  next hstopped =>
    split at hp
    · exact .inl hp
    dsimp only at hp
    split at hp
    next =>
      rw [connectInprocConnectSide_eq] at hp
      exact .inl hp
    next hnone =>
      rw [CtxInproc.pendConnection, hnone] at hp
      rcases mem_append.mp hp with hp | hp
      · exact .inl hp
      · rw [mem_singleton.mp hp]
        exact .inr ⟨eq_false_of_ne_true hstopped, hnone, rfl⟩

end Pending

end CtxInproc

end Zmq
