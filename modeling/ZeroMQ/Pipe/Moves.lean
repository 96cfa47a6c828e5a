import ZeroMQ.Pipe.Handshake

/-!
# The moves of a pipe end

`Link.Move s t e` lists everything that can happen at the near end of a pair: each constructor is
one way through an operation of `pipe_t`, with the tests that lead there, the new pair `t` and the
event `e` the owner is told. `ShutdownInv.exists_move` shows that in a pair that satisfies the
shutdown invariant every act succeeds and is one of these moves; the invariants of the later files
are proved move by move.
-/

namespace Zmq

namespace Link

/-- The lock-free pipe the near end reads. -/
def inQueue (s : Link) : Upipe Msg := (s.upipes s.near.pipe.inpipe).queue

/-- Replace the contents of the inbound pipe, and the credential the end has seen last. -/
def setInQueue (s : Link) (credential : List UInt8) (u : Upipe Msg) : Link :=
  (s.modifyPipe fun p => { p with credential := credential }).store s.near.pipe.inpipe u

/-- The oldest command in flight to the near end is taken. -/
def popInbox (s : Link) (cs : List Command) : Link :=
  { s with near := { s.near with inbox := cs } }

/-- What `terminate` does in every state. -/
def markTerminate (s : Link) (delay : Bool) : Link :=
  { s with near := { s.near with terminateCalled := true } }.modifyPipe
    fun p => { p with delay := delay }

/-- The outbound flow through pipe `i` is stopped by a delimiter. -/
def closeOut (s : Link) (i : ℕ) : Link :=
  let t := (s.store i (closeOutbound (s.upipes i).queue)).modifyPipe
    fun p => { p with outActive := false }
  if (s.upipes i).queue.asleep then t.send .activateRead else t

/-- The near end is deallocated together with its inbound pipe. -/
def release (s : Link) : Link :=
  let t := (s.store s.near.pipe.inpipe { s.inQueue with flushed := [], asleep := true }).free
    s.near.pipe.inpipe
  { t with near := { t.near with frees := t.near.frees + 1 } }

/-- `process_activate_read` wakes the reader. -/
def wakes (p : Pipe) : Bool :=
  !p.inActive && (p.state = .active || p.state = .waitingForDelimiter)

/-- `process_activate_write` lets the writer go on. -/
def unblocks (p : Pipe) : Bool := !p.outActive && p.state = .active

/-- Everything that can change at the near end: one constructor for each way through an
operation. -/
inductive Move (s : Link) : EndAct → Link → Option SinkEvent → Prop
  /-- The inbound pipe has only credentials left, and the reader goes to sleep. -/
  | readEmpty {a : EndAct} (credential : List UInt8) (ha : a = .checkRead ∨ a = .read)
      (hcan : canRead s.near.pipe = true) (hfl : ∀ m ∈ s.inQueue.flushed, m.isCredential = true) :
      Move s a (s.setInQueue credential
        { s.inQueue with flushed := [], asleep := true }).deactivateIn none
  /-- The delimiter is read before the request of the peer. -/
  | readDelimiter {a : EndAct} (credential : List UInt8) (creds : List Msg) (m : Msg)
      (ms : List Msg) (ha : a = .checkRead ∨ a = .read) (hcan : canRead s.near.pipe = true)
      (hfl : s.inQueue.flushed = creds ++ m :: ms) (hcreds : ∀ m ∈ creds, m.isCredential = true)
      (hm : m.isDelimiter = true) (hst : s.near.pipe.state = .active) :
      Move s a ((s.setInQueue credential { s.inQueue with flushed := ms }).modifyPipe
        fun p => { p with state := .delimiterReceived }) none
  /-- The delimiter is read after the request of the peer. -/
  | readLastDelimiter {a : EndAct} (credential : List UInt8) (creds : List Msg) (m : Msg)
      (ms : List Msg) (ha : a = .checkRead ∨ a = .read) (hcan : canRead s.near.pipe = true)
      (hfl : s.inQueue.flushed = creds ++ m :: ms) (hcreds : ∀ m ∈ creds, m.isCredential = true)
      (hm : m.isDelimiter = true) (hst : s.near.pipe.state = .waitingForDelimiter) :
      Move s a ((s.setInQueue credential { s.inQueue with flushed := ms }).ackAndEnter
        .termAckSent) none
  | readFrame (credential : List UInt8) (creds : List Msg) (m : Msg) (ms : List Msg)
      (hcan : canRead s.near.pipe = true) (hfl : s.inQueue.flushed = creds ++ m :: ms)
      (hcreds : ∀ m ∈ creds, m.isCredential = true) (hm : m.isDelimiter = false)
      (hcred : m.isCredential = false) :
      Move s .read ((s.setInQueue credential { s.inQueue with flushed := ms }).countRead m) none
  /-- The high watermark is reached. -/
  | fill {a : EndAct} (ha : a = .checkWrite ∨ ∃ flags body, a = .write flags body)
      (hout : s.near.pipe.outActive = true) (hst : s.near.pipe.state = .active)
      (hfull : full s.near.pipe = true) :
      Move s a (s.modifyPipe fun p => { p with outActive := false }) none
  | writeFrame (i : ℕ) (flags : MsgFlags) (body : List UInt8) (hout : s.near.pipe.outActive = true)
      (hst : s.near.pipe.state = .active) (hfull : full s.near.pipe = false)
      (hi : s.near.pipe.outpipe = some i) :
      Move s (.write flags body) ((s.store i ((s.upipes i).queue.write ⟨.data, flags, body⟩
        flags.more)).countWrite ⟨.data, flags, body⟩) none
  | rollback (i : ℕ) (hi : s.near.pipe.outpipe = some i) :
      Move s .rollback (s.store i { (s.upipes i).queue with incomplete := [] }) none
  /-- The outbound pipe is flushed and the reader woken if it sleeps. -/
  | flush (i : ℕ) (hi : s.near.pipe.outpipe = some i) :
      Move s .flush (if (s.upipes i).queue.flush.1 then s.store i (s.upipes i).queue.flush.2
        else (s.store i (s.upipes i).queue.flush.2).send .activateRead) none
  /-- `terminate` when the end is terminating already. -/
  | terminateAgain (delay : Bool) (hst : s.near.pipe.state = .termReqSent1 ∨
      s.near.pipe.state = .termReqSent2 ∨ s.near.pipe.state = .termAckSent) :
      Move s (.terminate delay) (s.markTerminate delay) none
  /-- `terminate` sends the request to the peer. -/
  | terminate (delay : Bool) (i : ℕ) (hi : s.near.pipe.outpipe = some i)
      (hst : s.near.pipe.state = .active ∨ s.near.pipe.state = .delimiterReceived) :
      Move s (.terminate delay) (((s.markTerminate delay).sendPipeTerm.modifyPipe
        fun p => { p with state := .termReqSent1 }).closeOut i) none
  /-- `terminate` with pending messages that will still be read. -/
  | terminateWaiting (i : ℕ) (hi : s.near.pipe.outpipe = some i)
      (hst : s.near.pipe.state = .waitingForDelimiter) :
      Move s (.terminate true) ((s.markTerminate true).closeOut i) none
  /-- `terminate` with pending messages that will be dropped. -/
  | terminateNow (hst : s.near.pipe.state = .waitingForDelimiter) :
      Move s (.terminate false) (((s.markTerminate false).ackAndEnter .termAckSent).modifyPipe
        fun p => { p with outActive := false }) none
  | setNodelay : Move s .setNodelay s.setNodelay none
  | hiccup (hst : s.near.pipe.state = .active) : Move s .hiccup s.hiccup none
  | activateRead (cs : List Command) (hin : s.near.inbox = .activateRead :: cs) :
      Move s .deliver
        ((s.popInbox cs).modifyPipe fun p => { p with inActive := wakes p || p.inActive })
        (if wakes s.near.pipe then some .readActivated else none)
  | activateWrite (cs : List Command) (n : ℕ) (hin : s.near.inbox = .activateWrite n :: cs) :
      Move s .deliver ((s.popInbox cs).modifyPipe fun p => { p with
          peersMsgsRead := n, outActive := unblocks p || p.outActive })
        (if unblocks s.near.pipe then some .writeActivated else none)
  /-- The peer has hiccuped. -/
  | plug (cs : List Command) (i j : ℕ) (hin : s.near.inbox = .hiccup (some j) :: cs)
      (hi : s.near.pipe.outpipe = some i) :
      Move s .deliver ((((s.popInbox cs).store i { (s.upipes i).queue.flush.2 with
          flushed := [], asleep := true }).free i).modifyPipe
            fun p => { p with outpipe := some j, outActive := true })
        (if s.near.pipe.state = .active then some .hiccuped else none)
  /-- The request of the peer arrives and pending messages will still be read. -/
  | pipeTermWait (cs : List Command) (hin : s.near.inbox = .pipeTerm :: cs)
      (hst : s.near.pipe.state = .active) (hdelay : s.near.pipe.delay = true) :
      Move s .deliver
        ((s.popInbox cs).modifyPipe fun p => { p with state := .waitingForDelimiter }) none
  /-- The request of the peer arrives and is acknowledged. -/
  | pipeTermAck (cs : List Command) (hin : s.near.inbox = .pipeTerm :: cs)
      (hst : (s.near.pipe.state = .active ∧ s.near.pipe.delay = false) ∨
        s.near.pipe.state = .delimiterReceived) :
      Move s .deliver ((s.popInbox cs).ackAndEnter .termAckSent) none
  /-- The requests of both ends cross. -/
  | pipeTermCross (cs : List Command) (hin : s.near.inbox = .pipeTerm :: cs)
      (hst : s.near.pipe.state = .termReqSent1) :
      Move s .deliver ((s.popInbox cs).ackAndEnter .termReqSent2) none
  /-- The acknowledgement arrives and is answered. -/
  | ackAnswer (cs : List Command) (hin : s.near.inbox = .pipeTermAck :: cs)
      (hst : s.near.pipe.state = .termReqSent1) :
      Move s .deliver (((s.popInbox cs).modifyPipe
        fun p => { p with outpipe := none }).sendPipeTermAck.release) (some .pipeTerminated)
  /-- The last acknowledgement arrives. -/
  | ackLast (cs : List Command) (hin : s.near.inbox = .pipeTermAck :: cs)
      (hst : s.near.pipe.state = .termAckSent ∨ s.near.pipe.state = .termReqSent2) :
      Move s .deliver (s.popInbox cs).release (some .pipeTerminated)

variable {s : Link}

/-! ### Every act is a move -/

lemma skipCredentials_spec (c : List UInt8) (ms : List Msg) :
    ∃ creds, ms = creds ++ (skipCredentials c ms).2 ∧ ∀ m ∈ creds, m.isCredential = true := by
  induction ms generalizing c with
  | nil => exact ⟨[], rfl, by simp⟩
  | cons m ms ih =>
    rw [skipCredentials]
    split
    next hm =>
      obtain ⟨creds, heq, hall⟩ := ih m.body
      refine ⟨m :: creds, by rw [List.cons_append, ← heq], ?_⟩
      intro x hx
      rcases List.mem_cons.mp hx with rfl | hx
      · exact hm
      · exact hall x hx
    next => exact ⟨[], rfl, by simp⟩

lemma skipCredentials_head {c : List UInt8} {l ms : List Msg} {m : Msg}
    (h : (skipCredentials c l).2 = m :: ms) : m.isCredential = false := by
  induction l generalizing c with
  | nil => simp [skipCredentials] at h
  | cons f l ih =>
    rw [skipCredentials] at h
    split at h
    next => exact ih h
    next hf =>
      obtain ⟨rfl, -⟩ := List.cons.inj h
      simpa using hf

lemma store_self (s : Link) (i : ℕ) : s.store i (s.upipes i).queue = s := by
  simp [store, Function.update_eq_self]

lemma processDelimiter_cases (hcan : canRead s.near.pipe = true) :
    (s.near.pipe.state = .active ∧ s.processDelimiter =
      .ok (s.modifyPipe fun p => { p with state := .delimiterReceived })) ∨
    (s.near.pipe.state = .waitingForDelimiter ∧
      s.processDelimiter = .ok (s.ackAndEnter .termAckSent)) := by
  unfold processDelimiter
  have hst : s.near.pipe.state = .active ∨ s.near.pipe.state = .waitingForDelimiter := by
    simp [canRead] at hcan
    exact hcan.2
  rcases hst with hst | hst
  · exact .inl ⟨hst, by rw [hst]⟩
  · exact .inr ⟨hst, by rw [hst]⟩

lemma processActivateRead_eq (hsink : s.near.pipe.sink = true) :
    s.processActivateRead =
      .ok (s.modifyPipe fun p => { p with inActive := wakes p || p.inActive },
        if wakes s.near.pipe then some .readActivated else none) := by
  have hiff : (!s.near.pipe.inActive ∧
      (s.near.pipe.state = .active ∨ s.near.pipe.state = .waitingForDelimiter)) ↔
      wakes s.near.pipe = true := by
    simp [wakes]
  unfold processActivateRead
  simp only [hiff]
  cases hw : wakes s.near.pipe with
  | true => simp [notify, modifyPipe, hw, hsink]
  | false =>
    simp only [modifyPipe, hw, Bool.false_or]
    rfl

lemma processActivateWrite_eq (n : ℕ) (hsink : s.near.pipe.sink = true) :
    s.processActivateWrite n =
      .ok (s.modifyPipe fun p => { p with
          peersMsgsRead := n, outActive := unblocks p || p.outActive },
        if unblocks s.near.pipe then some .writeActivated else none) := by
  have hiff : (!s.near.pipe.outActive ∧ s.near.pipe.state = .active) ↔
      unblocks s.near.pipe = true := by
    simp [unblocks]
  unfold processActivateWrite
  simp only [modifyPipe_near, hiff]
  cases hw : unblocks s.near.pipe with
  | true => simp [notify, modifyPipe, hw, hsink]
  | false =>
    simp only [modifyPipe, hw, Bool.false_or]
    rfl

lemma deallocate_of_live (hlive : (s.upipes s.near.pipe.inpipe).frees = 0) :
    s.deallocate = .ok s.release := by
  simp only [deallocate, load_of_live hlive, bind, Except.bind]
  rfl

lemma step_near_of_act {a : EndAct} {t : Link} {e : Option SinkEvent}
    (h : s.act a = .ok (t, e)) : s.step (.near, a) = .ok t := by
  rw [step, h]
  rfl

lemma step_far_of_act {a : EndAct} {t : Link} {e : Option SinkEvent}
    (h : s.swap.act a = .ok (t, e)) : s.step (.far, a) = .ok t.swap := by
  rw [step, h]
  rfl

/-- A call of the owner returns, and is a move unless it changes nothing. -/
def Succeeds (s : Link) (a : EndAct) (r : Except PipeFault Link) : Prop :=
  ∃ t, r = .ok t ∧ (t = s ∨ s.Move a t none)

lemma checkRead_succeeds (hlive : (s.upipes s.near.pipe.inpipe).frees = 0) :
    s.Succeeds .checkRead (s.checkRead.map Prod.snd) := by
  obtain ⟨-, heq⟩ | ⟨hcan, hfl, heq⟩ | ⟨hcan, m, ms, hfl, hm, heq⟩ | ⟨-, m, ms, hfl, -, heq⟩ :=
    checkRead_cases hlive
  · exact ⟨s, by rw [heq]; rfl, .inl rfl⟩
  · exact ⟨_, by rw [heq]; rfl, .inr (.readEmpty s.near.pipe.credential (.inl rfl) hcan
      (by rw [inQueue, hfl]; simp))⟩
  · obtain ⟨hst, hd⟩ | ⟨hst, hd⟩ := processDelimiter_cases
      (s := s.store s.near.pipe.inpipe { s.inQueue with flushed := ms }) hcan
    · exact ⟨_, by rw [heq]; erw [hd]; rfl, .inr (.readDelimiter s.near.pipe.credential [] m ms
        (.inl rfl) hcan hfl (by simp) hm hst)⟩
    · exact ⟨_, by rw [heq]; erw [hd]; rfl, .inr (.readLastDelimiter s.near.pipe.credential [] m
        ms (.inl rfl) hcan hfl (by simp) hm hst)⟩
  · exact ⟨_, by rw [heq, store_self]; rfl, .inl rfl⟩

lemma read_succeeds (hlive : (s.upipes s.near.pipe.inpipe).frees = 0) :
    s.Succeeds .read (s.read.map Prod.snd) := by
  obtain ⟨creds, hsplit, hcreds⟩ := skipCredentials_spec s.near.pipe.credential s.inQueue.flushed
  obtain ⟨-, heq⟩ | ⟨hcan, hfl, heq⟩ | ⟨hcan, m, ms, hfl, hm, heq⟩ | ⟨hcan, m, ms, hfl, hm, heq⟩ :=
    read_cases hlive
  · exact ⟨s, by rw [heq]; rfl, .inl rfl⟩
  · refine ⟨_, by rw [heq]; rfl, .inr (.readEmpty _ (.inr rfl) hcan ?_)⟩
    intro m hm
    change (skipCredentials s.near.pipe.credential s.inQueue.flushed).2 = [] at hfl
    rw [hfl, List.append_nil] at hsplit
    exact hcreds m (hsplit ▸ hm)
  · have hfl' : s.inQueue.flushed = creds ++ m :: ms := hsplit.trans (congrArg _ hfl)
    obtain ⟨hst, hd⟩ | ⟨hst, hd⟩ := processDelimiter_cases
      (s := s.setInQueue (skipCredentials s.near.pipe.credential s.inQueue.flushed).1
        { s.inQueue with flushed := ms }) hcan
    · exact ⟨_, by rw [heq]; erw [hd]; rfl, .inr (.readDelimiter _ creds m ms (.inr rfl) hcan
        hfl' hcreds hm hst)⟩
    · exact ⟨_, by rw [heq]; erw [hd]; rfl, .inr (.readLastDelimiter _ creds m ms (.inr rfl)
        hcan hfl' hcreds hm hst)⟩
  · have hfl' : s.inQueue.flushed = creds ++ m :: ms := hsplit.trans (congrArg _ hfl)
    exact ⟨_, by rw [heq]; rfl, .inr (.readFrame _ creds m ms hcan hfl' hcreds hm
      (skipCredentials_head hfl))⟩

lemma checkWrite_succeeds : s.Succeeds .checkWrite (.ok s.checkWrite.2) := by
  obtain ⟨-, heq⟩ | ⟨hout, hst, hfull, heq⟩ | ⟨-, -, -, heq⟩ := s.checkWrite_cases
  · exact ⟨s, by rw [heq], .inl rfl⟩
  · exact ⟨_, by rw [heq], .inr (.fill (.inl rfl) hout hst hfull)⟩
  · exact ⟨s, by rw [heq], .inl rfl⟩

lemma write_succeeds (flags : MsgFlags) (body : List UInt8)
    (hout : s.near.pipe.state = .active →
      ∃ i, s.near.pipe.outpipe = some i ∧ (s.upipes i).frees = 0) :
    s.Succeeds (.write flags body) ((s.write ⟨.data, flags, body⟩).map Prod.snd) := by
  obtain ⟨-, heq⟩ | ⟨ho, hst, hfull, heq⟩ | ⟨ho, hst, hfull, heq⟩ := s.checkWrite_cases
  · exact ⟨s, by rw [write_of_not_checkWrite _ heq]; rfl, .inl rfl⟩
  · exact ⟨_, by rw [write_of_not_checkWrite _ heq]; rfl,
      .inr (.fill (.inr ⟨flags, body, rfl⟩) ho hst hfull)⟩
  · obtain ⟨i, hi, hlive⟩ := hout hst
    exact ⟨_, by rw [write_of_checkWrite _ heq hi hlive]; rfl,
      .inr (.writeFrame i flags body ho hst hfull hi)⟩

end Link

namespace ShutdownInv

variable {s : Link}

open Link

lemma rollback_succeeds (h : ShutdownInv s) : s.Succeeds .rollback s.rollback := by
  cases hi : s.near.pipe.outpipe with
  | none => exact ⟨s, rollback_of_none hi, .inl rfl⟩
  | some i =>
    exact ⟨_, rollback_of_live hi (h.outpipe_live hi) (h.more i), .inr (.rollback i hi)⟩

lemma flush_succeeds (h : ShutdownInv s) : s.Succeeds .flush s.flush := by
  cases hi : s.near.pipe.outpipe with
  | none => exact ⟨s, flush_of_none hi, .inl rfl⟩
  | some i =>
    by_cases hst : s.near.pipe.state = .termAckSent
    · exact ⟨s, if_pos hst, .inl rfl⟩
    · exact ⟨_, flush_of_live hst hi (h.outpipe_live hi), .inr (.flush i hi)⟩

lemma exists_live_outpipe (h : ShutdownInv s) (halive : s.near.frees = 0)
    (hst : s.near.pipe.state.acks = 0) :
    ∃ i, s.near.pipe.outpipe = some i ∧ (s.upipes i).frees = 0 := by
  obtain ⟨i, hi⟩ := h.exists_outpipe ((h.near.acks_eq halive).trans hst)
  exact ⟨i, hi, h.outpipe_live hi⟩

lemma terminate_of_asked {delay : Bool} (hst : s.near.pipe.state = .termReqSent1 ∨
    s.near.pipe.state = .termReqSent2 ∨ s.near.pipe.state = .termAckSent) :
    s.terminate delay = .ok (s.markTerminate delay) := by
  rcases hst with hst | hst | hst <;> simp [terminate, markTerminate, hst]

lemma terminate_of_asking {delay : Bool} (hst : s.near.pipe.state = .active ∨
    s.near.pipe.state = .delimiterReceived) :
    s.terminate delay = ((s.markTerminate delay).sendPipeTerm.modifyPipe
      fun p => { p with state := .termReqSent1 }).stopOutbound := by
  rcases hst with hst | hst <;> simp [terminate, markTerminate, hst]

lemma terminate_of_waiting {delay : Bool} (hst : s.near.pipe.state = .waitingForDelimiter) :
    s.terminate delay = if !delay then ((s.markTerminate delay).ackAndEnter .termAckSent).stopOutbound
      else (s.markTerminate delay).stopOutbound := by
  simp [terminate, markTerminate, hst]

lemma terminate_succeeds (h : ShutdownInv s) (halive : s.near.frees = 0) (delay : Bool) :
    s.Succeeds (.terminate delay) (s.terminate delay) := by
  have hout := h.exists_live_outpipe halive
  cases hst : s.near.pipe.state with
  | active =>
    obtain ⟨i, hi, hlive⟩ := hout (by rw [hst]; rfl)
    rw [terminate_of_asking (.inl hst)]
    exact ⟨_, stopOutbound_of_live (i := i) (by simp) hi hlive (h.more i),
      .inr (.terminate delay i hi (.inl hst))⟩
  | delimiterReceived =>
    obtain ⟨i, hi, hlive⟩ := hout (by rw [hst]; rfl)
    rw [terminate_of_asking (.inr hst)]
    exact ⟨_, stopOutbound_of_live (i := i) (by simp) hi hlive (h.more i),
      .inr (.terminate delay i hi (.inr hst))⟩
  | waitingForDelimiter =>
    obtain ⟨i, hi, hlive⟩ := hout (by rw [hst]; rfl)
    rw [terminate_of_waiting hst]
    cases delay with
    | false =>
      have hnone : ((s.markTerminate false).ackAndEnter .termAckSent).near.pipe.outpipe = none := rfl
      exact ⟨_, stopOutbound_of_none hnone, .inr (.terminateNow hst)⟩
    | true =>
      have hst' : s.near.pipe.state ≠ .termAckSent := by rw [hst]; decide
      exact ⟨_, stopOutbound_of_live (i := i) hst' hi hlive (h.more i),
        .inr (.terminateWaiting i hi hst)⟩
  | termAckSent =>
    rw [terminate_of_asked (.inr (.inr hst))]
    exact ⟨_, rfl, .inr (.terminateAgain delay (.inr (.inr hst)))⟩
  | termReqSent1 =>
    rw [terminate_of_asked (.inl hst)]
    exact ⟨_, rfl, .inr (.terminateAgain delay (.inl hst))⟩
  | termReqSent2 =>
    rw [terminate_of_asked (.inr (.inl hst))]
    exact ⟨_, rfl, .inr (.terminateAgain delay (.inr (.inl hst)))⟩

lemma hiccup_succeeds : s.Succeeds .hiccup (.ok s.hiccup) := by
  by_cases hst : s.near.pipe.state = .active
  · exact ⟨_, rfl, .inr (.hiccup hst)⟩
  · refine ⟨s, ?_, .inl rfl⟩
    rw [Link.hiccup, if_pos hst]

lemma call_succeeds (h : ShutdownInv s) (halive : s.near.frees = 0) {a : EndAct}
    (ha : a ≠ .deliver) :
    ∃ t, s.act a = .ok (t, none) ∧ (t = s ∨ s.Move a t none) := by
  have hcall : ∀ {r : Except PipeFault Link}, s.Succeeds a r →
      ∃ t, s.call r = .ok (t, none) ∧ (t = s ∨ s.Move a t none) := by
    rintro r ⟨t, rfl, ht⟩
    exact ⟨t, by rw [Link.call, if_pos halive]; rfl, ht⟩
  have hin := h.inpipe_live halive
  cases a with
  | deliver => exact absurd rfl ha
  | terminate delay => exact hcall (h.terminate_succeeds halive delay)
  | setNodelay => exact hcall ⟨_, rfl, .inr .setNodelay⟩
  | checkRead => exact hcall (checkRead_succeeds hin)
  | read => exact hcall (read_succeeds hin)
  | checkWrite => exact hcall checkWrite_succeeds
  | write flags body =>
    exact hcall (write_succeeds flags body
      fun hst => h.exists_live_outpipe halive (by rw [hst]; rfl))
  | rollback => exact hcall h.rollback_succeeds
  | flush => exact hcall h.flush_succeeds
  | hiccup => exact hcall hiccup_succeeds

lemma deliver_succeeds (h : ShutdownInv s) (halive : s.near.frees = 0) {c : Command}
    {cs : List Command} (hin : s.near.inbox = c :: cs) :
    ∃ t e, s.act .deliver = .ok (t, e) ∧ s.Move .deliver t e := by
  have hdel : s.act .deliver = (s.popInbox cs).processCommand c := by
    simp only [act, deliver, hin]
    rw [if_pos halive]
    rfl
  have hsink := h.near.sink
  rw [hdel]
  cases c with
  | activateRead =>
    exact ⟨_, _, processActivateRead_eq (s := s.popInbox cs) hsink, .activateRead cs hin⟩
  | activateWrite n =>
    exact ⟨_, _, processActivateWrite_eq (s := s.popInbox cs) n hsink, .activateWrite cs n hin⟩
  | hiccup p =>
    obtain ⟨-, ⟨j, rfl⟩, i, hi⟩ := h.of_hiccup hin
    have hload : (s.popInbox cs).load i = _ := load_of_live (h.outpipe_live hi)
    refine ⟨_, _, ?_, .plug cs i j hin hi⟩
    have hi' : (s.popInbox cs).near.pipe.outpipe = some i := hi
    simp only [processCommand, processHiccup, hi', hload, bind, Except.bind]
    by_cases hst : s.near.pipe.state = .active
    · simp [popInbox, notify, hst, hsink]
    · simp [popInbox, hst]
      rfl
  | pipeTerm =>
    obtain ⟨-, hgot, -, -⟩ := h.got_of_term hin
    have hpop : (s.popInbox cs).near.pipe = s.near.pipe := rfl
    simp only [processCommand, processPipeTerm, hpop]
    cases hst : s.near.pipe.state with
    | active =>
      cases hdelay : s.near.pipe.delay with
      | false => exact ⟨_, _, rfl, .pipeTermAck cs hin (.inl ⟨hst, hdelay⟩)⟩
      | true => exact ⟨_, _, rfl, .pipeTermWait cs hin hst hdelay⟩
    | delimiterReceived => exact ⟨_, _, rfl, .pipeTermAck cs hin (.inr hst)⟩
    | termReqSent1 => exact ⟨_, _, rfl, .pipeTermCross cs hin hst⟩
    | waitingForDelimiter | termAckSent | termReqSent2 => simp [hst, PipeState.got] at hgot
  | pipeTermAck =>
    obtain ⟨-, -, -, hst⟩ := h.of_ack hin
    have hpop : (s.popInbox cs).near.pipe = s.near.pipe := rfl
    have hlive := h.inpipe_live halive
    rcases hst with hst | hst
    · refine ⟨_, _, ?_, .ackAnswer cs hin hst⟩
      have hd := deallocate_of_live (s := ((s.popInbox cs).modifyPipe
        fun p => { p with outpipe := none }).sendPipeTermAck) hlive
      simp only [processCommand, processPipeTermAck, hpop, hsink, hst, bind, Except.bind, pure,
        Except.pure, Bool.not_true, Bool.false_eq_true, ↓reduceIte, hd]
    · refine ⟨_, _, ?_, .ackLast cs hin hst⟩
      have hd := deallocate_of_live (s := s.popInbox cs) hlive
      rcases hst with hst | hst <;>
        simp only [processCommand, processPipeTermAck, hpop, hsink, hst, bind, Except.bind, pure,
          Except.pure, Bool.not_true, Bool.false_eq_true, ↓reduceIte, hd]

lemma act_dead (h : ShutdownInv s) (hdead : s.near.frees ≠ 0) (a : EndAct) :
    s.act a = .ok (s, none) := by
  have hin := (h.near.dead hdead).2.2.1
  cases a with
  | deliver => simp [act, deliver, hin]
  | _ => simp [act, Link.call, hdead]

/-- **Progress.** Every act succeeds, and is a move unless it changes nothing. -/
theorem exists_move (h : ShutdownInv s) (a : EndAct) :
    ∃ t e, s.act a = .ok (t, e) ∧ ((t = s ∧ e = none) ∨ (s.near.frees = 0 ∧ s.Move a t e)) := by
  by_cases halive : s.near.frees = 0
  swap
  · exact ⟨s, none, h.act_dead halive a, .inl ⟨rfl, rfl⟩⟩
  by_cases ha : a = .deliver
  · subst ha
    cases hin : s.near.inbox with
    | nil => exact ⟨s, none, by simp [act, deliver, hin], .inl ⟨rfl, rfl⟩⟩
    | cons c cs =>
      obtain ⟨t, e, hact, hmove⟩ := h.deliver_succeeds halive hin
      exact ⟨t, e, hact, .inr ⟨halive, hmove⟩⟩
  · obtain ⟨t, hact, rfl | hmove⟩ := h.call_succeeds halive ha
    · exact ⟨_, none, hact, .inl ⟨rfl, rfl⟩⟩
    · exact ⟨t, none, hact, .inr ⟨halive, hmove⟩⟩

/-! ### Every move keeps the invariant -/

section

variable (h : ShutdownInv s)

include h

lemma setInQueue (credential : List UInt8) (ms : List Msg) (b : Bool) :
    ShutdownInv (s.setInQueue credential { s.inQueue with flushed := ms, asleep := b }) :=
  (h.modifyData rfl rfl rfl rfl).store _ (h.more _)

lemma countWrite (m : Msg) : ShutdownInv (s.countWrite m) := by
  rw [countWrite_eq]
  exact h.modifyData rfl rfl rfl rfl

lemma countRead (ha : s.near.pipeTermAcks = 0) (m : Msg) :
    ShutdownInv (s.countRead m) := by
  have hcount : ShutdownInv (s.modifyPipe
      fun p => { p with msgsRead := s.near.pipe.msgsRead + counted m }) :=
    h.modifyData rfl rfl rfl rfl
  rw [countRead_eq]
  simp only
  split
  · exact hcount.sendActivate (.inr ⟨_, rfl⟩) ha
  · exact hcount

lemma closeOut (i : ℕ) (ha : s.near.pipeTermAcks = 0) :
    ShutdownInv (s.closeOut i) := by
  have hstore : ShutdownInv ((s.store i (closeOutbound (s.upipes i).queue)).modifyPipe
      fun p => { p with outActive := false }) :=
    (h.store i (by simp [closeOutbound])).modifyData rfl rfl rfl rfl
  unfold Link.closeOut
  split
  · exact hstore.sendActivate (.inl rfl) ha
  · exact hstore

/-- **Preservation.** Every move keeps the shutdown invariant. -/
theorem move (halive : s.near.frees = 0) {a : EndAct} {t : Link}
    {e : Option SinkEvent} (hmove : s.Move a t e) : ShutdownInv t := by
  have hacks : s.near.pipe.state.acks = 0 → s.near.pipeTermAcks = 0 :=
    fun hst => (h.near.acks_eq halive).trans hst
  cases hmove with
  | readEmpty credential ha hcan hfl =>
    exact (h.setInQueue credential [] true).modifyData rfl rfl rfl rfl
  | readDelimiter credential creds m ms ha hcan hfl hcreds hm hst =>
    refine (h.setInQueue credential ms s.inQueue.asleep).modifyPipe (b := s.near.terminateCalled)
      rfl rfl rfl ?_ ?_ ?_
    · exact (congrArg PipeState.terms hst).symm
    · exact (congrArg PipeState.acks hst).symm
    · exact (congrArg PipeState.got hst).symm
  | readLastDelimiter credential creds m ms ha hcan hfl hcreds hm hst =>
    have hterms : PipeState.terms .termAckSent = s.near.pipe.state.terms := by rw [hst]; rfl
    exact (h.setInQueue credential ms s.inQueue.asleep).ackAndEnter
      (.inr ⟨halive, rfl, congrArg PipeState.got hst⟩) (hacks (by rw [hst]; rfl)) hterms rfl
  | readFrame credential creds m ms hcan hfl hcreds hm =>
    refine (h.setInQueue credential ms s.inQueue.asleep).countRead (hacks ?_) m
    simp only [canRead, Bool.and_eq_true, Bool.or_eq_true, decide_eq_true_eq] at hcan
    rcases hcan.2 with hst | hst <;> rw [hst] <;> rfl
  | fill ha hout hst hfull | setNodelay => exact h.modifyData rfl rfl rfl rfl
  | writeFrame i flags body hout hst hfull hi =>
    refine (h.store i ?_).countWrite _
    have hmore := h.more i
    simp only [Upipe.write]
    split
    next hf => simp [hmore, Msg.more, hf]
    next => rfl
  | rollback i hi => exact h.store i rfl
  | flush i hi =>
    have hstore : ShutdownInv (s.store i (s.upipes i).queue.flush.2) := by
      refine h.store i ?_
      have hmore := h.more i
      unfold Upipe.flush
      split <;> exact hmore
    split
    · exact hstore
    · exact hstore.sendActivate (.inl rfl) (h.acks_of_outpipe hi)
  | terminateAgain delay hst => exact h.modifyPipe rfl rfl rfl rfl rfl rfl
  | terminate delay i hi hst =>
    exact (h.sendPipeTerm halive hst).closeOut i (h.acks_of_outpipe hi)
  | terminateWaiting i hi hst =>
    exact ShutdownInv.closeOut (h.modifyPipe rfl rfl rfl rfl rfl rfl) i (h.acks_of_outpipe hi)
  | terminateNow hst =>
    have hmark : ShutdownInv (s.markTerminate false) := h.modifyPipe rfl rfl rfl rfl rfl rfl
    refine ShutdownInv.modifyData (hmark.ackAndEnter (.inr ⟨halive, rfl, ?_⟩)
      (hacks (by rw [hst]; rfl)) ?_ rfl) rfl rfl rfl rfl
    · exact congrArg PipeState.got hst
    · exact (congrArg PipeState.terms hst).symm
  | hiccup hst => exact h.hiccup halive
  | activateRead cs hin =>
    exact ShutdownInv.modifyData (h.popActivate hin (.inl rfl)) rfl rfl rfl rfl
  | activateWrite cs n hin =>
    exact ShutdownInv.modifyData (h.popActivate hin (.inr ⟨n, rfl⟩)) rfl rfl rfl rfl
  | plug cs i j hin hi =>
    refine h.plugOutpipe hin hi ?_
    have hmore := h.more i
    unfold Upipe.flush
    split <;> exact hmore
  | pipeTermWait cs hin hst hdelay => exact h.waitForDelimiter hin hst
  | pipeTermAck cs hin hst =>
    rcases hst with ⟨hst, -⟩ | hst
    · exact h.ackAndEnter (.inl hin) (hacks (by rw [hst]; rfl)) (by rw [hst]; rfl) rfl
    · exact h.ackAndEnter (.inl hin) (hacks (by rw [hst]; rfl)) (by rw [hst]; rfl) rfl
  | pipeTermCross cs hin hst =>
    exact h.ackAndEnter (.inl hin) (hacks (by rw [hst]; rfl)) (by rw [hst]; rfl) rfl
  | ackAnswer cs hin hst =>
    obtain ⟨-, rfl, hfa, -⟩ := h.of_ack hin
    have ha := hacks (by rw [hst]; rfl)
    refine h.deallocate (c := [.pipeTermAck]) halive hfa ⟨?_, rfl, h.near.sink, rfl, rfl, ?_⟩ rfl
      rfl rfl (.inr ⟨rfl, ha, by simp [hin, hiccups]⟩) (h.more _)
    · exact congrArg (· + 1) halive
    · exact congrArg (· + 1) ha
  | ackLast cs hin hst =>
    obtain ⟨-, rfl, hfa, -⟩ := h.of_ack hin
    have ha : s.near.pipeTermAcks = 1 := by
      rw [h.near.acks_eq halive]
      rcases hst with hst | hst <;> rw [hst] <;> rfl
    refine h.deallocate (c := []) halive hfa ⟨?_, rfl, h.near.sink, h.near.outpipe_iff.mpr ha, rfl,
      ha⟩ (by simp [release, popInbox]) rfl rfl (.inl ⟨rfl, ha⟩) (h.more _)
    exact congrArg (· + 1) halive

lemma act (a : EndAct) : ∃ t e, s.act a = .ok (t, e) ∧ ShutdownInv t := by
  obtain ⟨t, e, hact, ⟨rfl, -⟩ | ⟨halive, hmove⟩⟩ := h.exists_move a
  · exact ⟨_, e, hact, h⟩
  · exact ⟨t, e, hact, h.move halive hmove⟩

lemma step (x : Side × EndAct) : ∃ t, s.step x = .ok t ∧ ShutdownInv t := by
  obtain ⟨side, a⟩ := x
  cases side with
  | near =>
    obtain ⟨t, e, hact, ht⟩ := h.act a
    exact ⟨t, step_near_of_act hact, ht⟩
  | far =>
    obtain ⟨t, e, hact, ht⟩ := h.swap.act a
    exact ⟨t.swap, step_far_of_act hact, ht.swap⟩

end

end ShutdownInv

end Zmq
