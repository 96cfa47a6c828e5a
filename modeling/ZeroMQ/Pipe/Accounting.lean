import ZeroMQ.Pipe.Outbound

/-!
# The accounts of a pipe

The writer counts what it writes and the reader counts what it reads, each by its own test of the flags.
`pending` is the number of messages in a pipe that the reader will count. The accounts are right as long
as the writer's count is the reader's count and what is pending between them.

They are not right in every run. The reader takes a credential out of the pipe without counting it,
although the writer has counted it, and the messages in a pipe that a hiccup throws away have been counted
by the writer only. `Link.Miscounts` names the steps at which this happens.
-/

namespace Zmq

open Foundation List Nat

namespace Link

/-! ### What is pending -/

/-- What the reader will add to `msgs_read` for a frame. -/
def countable (m : Msg) : ℕ := if m.isCredential || m.isDelimiter then 0 else counted m

/-- The number of messages in a pipe that the reader will count. -/
def pending (u : Upipe Msg) : ℕ := (u.items.map countable).sum

lemma countable_of_more {m : Msg} (h : m.more = true) : countable m = 0 := by
  simp [countable, counted, h]

lemma countable_credential {m : Msg} (h : m.isCredential = true) : countable m = 0 := by
  simp [countable, h]

lemma countable_delimiter {m : Msg} (h : m.isDelimiter = true) : countable m = 0 := by
  simp [countable, h]

lemma countable_of_counted {m : Msg} (h : counted m = 0) : countable m = 0 := by
  simp [countable, h]

lemma sum_countable_eq_zero {ms : List Msg} (h : ∀ m ∈ ms, countable m = 0) :
    (ms.map countable).sum = 0 := by
  induction ms with
  | nil => rfl
  | cons m ms ih =>
    rw [map_cons, sum_cons, h m mem_cons_self,
      ih fun x hx => h x (mem_cons_of_mem m hx)]

lemma sum_incomplete {ms : List Msg} (h : ms.all Msg.more = true) : (ms.map countable).sum = 0 :=
  sum_countable_eq_zero fun m hm => countable_of_more (all_eq_true.1 h m hm)

@[simp] lemma pending_empty : pending Upipe.empty = 0 := rfl

lemma pending_write (u : Upipe Msg) (m : Msg) (b : Bool) :
    pending (u.write m b) = pending u + countable m := by
  simp [pending, Upipe.items_write]

lemma pending_flush (u : Upipe Msg) : pending u.flush.2 = pending u := by
  rw [pending, Upipe.items_flush, pending]

lemma pending_rollback {u : Upipe Msg} (h : u.incomplete.all Msg.more = true) :
    pending { u with incomplete := [] } = pending u := by
  simp [pending, Upipe.items, sum_incomplete h]

lemma pending_closeOutbound {u : Upipe Msg} (h : u.incomplete.all Msg.more = true) :
    pending (closeOutbound u) = pending u := by
  have hdelimiter : countable Msg.initDelimiter = 0 := rfl
  simp [pending, Upipe.items, closeOutbound, sum_incomplete h, hdelimiter]

lemma pending_flushed {u : Upipe Msg} (front ms : List Msg) (h : u.flushed = front ++ ms) (b : Bool) :
    pending u = (front.map countable).sum + pending { u with flushed := ms, asleep := b } := by
  simp [pending, Upipe.items, h]

/-! ### Wrong counts -/

/-- The steps at which the accounts go wrong: a credential is written that the writer counts; a message is
written to a pipe that the reader has given up; the reader gives up a pipe with messages in it. -/
def Miscounts (s : Link) : EndAct → Prop
  | .write flags body => Outbound.Writable s.near.pipe ∧ counted ⟨.data, flags, body⟩ ≠ 0 ∧
      (flags.credential = true ∨ s.near.pipe.outpipe ≠ some s.far.pipe.inpipe)
  | .hiccup => s.near.pipe.state = .active ∧ pending s.inQueue ≠ 0
  | _ => False

instance (p : Pipe) : Decidable (Outbound.Writable p) :=
  inferInstanceAs (Decidable (_ ∧ _ ∧ _))

instance (s : Link) (a : EndAct) : Decidable (s.Miscounts a) :=
  match a with
  | .write _ _ => inferInstanceAs (Decidable (_ ∧ _ ∧ _))
  | .hiccup => inferInstanceAs (Decidable (_ ∧ _))
  | .terminate _ | .setNodelay | .checkRead | .read | .checkWrite | .rollback | .flush | .deliver =>
    inferInstanceAs (Decidable False)

/-- A step that is none of these. -/
def CountsRight (s : Link) : Side × EndAct → Prop
  | (.near, a) => ¬s.Miscounts a
  | (.far, a) => ¬s.swap.Miscounts a

instance (s : Link) (x : Side × EndAct) : Decidable (s.CountsRight x) :=
  match x with
  | (.near, _) => inferInstanceAs (Decidable (¬_))
  | (.far, _) => inferInstanceAs (Decidable (¬_))

variable {s t : Link} {a : EndAct} {e : Option SinkEvent}

lemma plug_ne (h : ShutdownInv s) (hfar : s.far.frees = 0) {cs : List Command} {i j : ℕ}
    (hin : s.near.inbox = .hiccup (some j) :: cs) (hi : s.near.pipe.outpipe = some i) :
    s.far.pipe.inpipe ≠ i := by
  have hroute : route s.near s.far = i :: j :: hiccups cs := by
    simp [route, hi, hin, hiccups]
  have hlast := h.far_last hfar
  have hnodup := (nodup_append.mp h.nodup).1
  rw [hroute] at hlast hnodup
  rw [getLast?_cons_cons] at hlast
  rintro rfl
  exact (nodup_cons.1 hnodup).1 (mem_of_getLast? hlast)

/-- **A move of the writer** changes its count by what it puts into the pipe. -/
theorem Move.pending_writer (h : ShutdownInv s) (halive : s.near.frees = 0) (hfar : s.far.frees = 0)
    (hgood : ¬s.Miscounts a) (hmove : s.Move a t e) :
    t.near.pipe.msgsWritten + pending (s.upipes s.far.pipe.inpipe).queue =
      s.near.pipe.msgsWritten + pending (t.upipes s.far.pipe.inpipe).queue := by
  have hne := h.inpipe_ne_inpipe halive hfar
  -- The near end stores something that counts the same in a pipe.
  have hstore : ∀ {i : ℕ} {u : Upipe Msg}, pending u = pending (s.upipes i).queue →
      pending ((s.store i u).upipes s.far.pipe.inpipe).queue =
        pending (s.upipes s.far.pipe.inpipe).queue := by
    intro i u hu
    by_cases hi : s.far.pipe.inpipe = i
    · rw [hi, store_queue_self, hu]
    · rw [store_queue_of_ne s hi]
  have hin : ∀ c u, (s.setInQueue c u).upipes s.far.pipe.inpipe = s.upipes s.far.pipe.inpipe := by
    intro c u
    rw [setInQueue, store_queue_of_ne _ hne, modifyPipe_upipes]
  have hrelease : ∀ (r : Link) (u : Upipe Msg), r.upipes = s.upipes →
      (((r.store s.near.pipe.inpipe u).free s.near.pipe.inpipe).upipes s.far.pipe.inpipe).queue =
        (s.upipes s.far.pipe.inpipe).queue := by
    intro r u hr
    rw [free_queue, store_queue_of_ne r hne, hr]
  cases hmove with
  | readFrame credential creds m ms hcan hfl hcreds hm hcred =>
    rw [countRead_near, countRead_upipes, hin]
    rfl
  | readEmpty credential ha hcan hfl =>
    simp only [deactivateIn, modifyPipe_upipes, hin]
    rfl
  | readDelimiter credential creds m ms ha hcan hfl hcreds hm hst =>
    rw [modifyPipe_upipes, hin]
    rfl
  | readLastDelimiter credential creds m ms ha hcan hfl hcreds hm hst =>
    simp only [ackAndEnter, sendPipeTermAck, send_upipes, modifyPipe_upipes, hin]
    rfl
  | writeFrame i flags body ho hst hfull hi =>
    rw [countWrite_eq]
    simp only [modifyPipe_upipes, modifyPipe_near, store_near]
    by_cases hcount : counted ⟨.data, flags, body⟩ = 0
    · rw [hstore (by rw [pending_write, countable_of_counted hcount, add_zero]), hcount, add_zero]
    have hright : flags.credential = false ∧ s.near.pipe.outpipe = some s.far.pipe.inpipe := by
      by_contra hcon
      refine hgood ⟨⟨ho, hst, hfull⟩, hcount, ?_⟩
      by_cases hcred : flags.credential = true
      · exact .inl hcred
      · exact .inr fun hout => hcon ⟨by simpa using hcred, hout⟩
    obtain rfl : i = s.far.pipe.inpipe := Option.some.inj (hi.symm.trans hright.2)
    have hcountable : countable ⟨.data, flags, body⟩ = counted ⟨.data, flags, body⟩ := by
      simp [countable, Msg.isCredential, Msg.isDelimiter, hright.1]
    rw [store_queue_self, pending_write, hcountable]
    omega
  | rollback i hi => rw [hstore (pending_rollback (h.more i)), store_near]
  | flush i hi =>
    have hpending := hstore (i := i) (pending_flush (s.upipes i).queue)
    split
    · rw [hpending, store_near]
    · rw [send_upipes, hpending]
      rfl
  | terminate delay i hi hst | terminateWaiting i hi hst =>
    rw [closeOut_near, closeOut_queue]
    exact congrArg _ (hstore (pending_closeOutbound (h.more i))).symm
  | hiccup hst =>
    have hlt := h.inpipe_lt_fresh hfar
    simp only [Link.hiccup, hst, ne_eq, not_true_eq_false, ↓reduceIte, send_upipes, modifyPipe_upipes]
    rw [Function.update_of_ne hlt.ne]
    rfl
  | plug cs i j hin hi =>
    have hi' : s.far.pipe.inpipe ≠ i := plug_ne h hfar hin hi
    simp only [modifyPipe_upipes, free_queue]
    rw [store_queue_of_ne _ hi']
    rfl
  | ackAnswer cs hin hst | ackLast cs hin hst => exact congrArg (_ + pending ·) (hrelease _ _ rfl).symm
  | _ => rfl

/-- **A move of the reader** changes its count by what it takes out of the pipe. -/
theorem Move.pending_reader (h : ShutdownInv s) (halive : s.near.frees = 0) (hgood : ¬s.Miscounts a)
    (hmove : s.Move a t e) (ht : t.near.frees = 0) :
    t.near.pipe.msgsRead + pending t.inQueue = s.near.pipe.msgsRead + pending s.inQueue := by
  -- The near end does not write to the pipe it reads.
  have hstore : ∀ {i : ℕ}, s.near.pipe.outpipe = some i → ∀ u : Upipe Msg,
      (s.store i u).upipes s.near.pipe.inpipe = s.upipes s.near.pipe.inpipe := by
    intro i hi u
    exact store_queue_of_ne s (h.ne_inpipe halive hi) u
  have hcreds : ∀ {ms : List Msg}, (∀ m ∈ ms, m.isCredential = true) → (ms.map countable).sum = 0 :=
    fun hms => sum_countable_eq_zero fun m hm => countable_credential (hms m hm)
  have hread : ∀ {creds ms : List Msg} {m : Msg}, s.inQueue.flushed = creds ++ m :: ms →
      (∀ c ∈ creds, c.isCredential = true) →
      pending s.inQueue = countable m + pending { s.inQueue with flushed := ms } := by
    intro creds ms m hfl hcr
    have hsplit := pending_flushed (u := s.inQueue) (creds ++ [m]) ms (by simpa using hfl) s.inQueue.asleep
    rw [map_append, sum_append_nat, hcreds hcr] at hsplit
    simpa using hsplit
  cases hmove with
  | readEmpty credential ha hcan hfl =>
    have hsplit := pending_flushed s.inQueue.flushed [] (append_nil s.inQueue.flushed).symm true
    rw [hcreds hfl, zero_add] at hsplit
    rw [hsplit]
    simp [inQueue, deactivateIn, setInQueue]
  | readDelimiter credential creds m ms ha hcan hfl hcr hm hst =>
    rw [hread hfl hcr, countable_delimiter hm, zero_add]
    simp [inQueue, setInQueue]
  | readLastDelimiter credential creds m ms ha hcan hfl hcr hm hst =>
    rw [hread hfl hcr, countable_delimiter hm, zero_add]
    simp [inQueue, setInQueue, ackAndEnter, sendPipeTermAck]
  | readFrame credential creds m ms hcan hfl hcr hm hcred =>
    have hcountable : countable m = counted m := by simp [countable, hcred, hm]
    have hqueue : ∀ u, ((s.setInQueue credential u).countRead m).inQueue = u := by
      intro u
      rw [inQueue, countRead_upipes, countRead_near]
      simp [setInQueue]
    rw [hread hfl hcr, hcountable, hqueue, countRead_near]
    exact add_assoc _ _ _
  | writeFrame i flags body ho hst hfull hi =>
    rw [countWrite_eq]
    simp only [inQueue, modifyPipe_upipes, modifyPipe_near, store_near, hstore hi]
  | rollback i hi => simp only [inQueue, store_near, hstore hi]
  | flush i hi =>
    split
    · simp only [inQueue, store_near, hstore hi]
    · simp only [inQueue, send_near, send_upipes, store_near, hstore hi]
  | terminate delay i hi hst | terminateWaiting i hi hst =>
    simp only [inQueue, closeOut_near, closeOut_queue]
    exact congrArg (_ + pending ·.queue) (hstore hi _)
  | hiccup hst =>
    have hzero : pending s.inQueue = 0 := by
      by_contra hne
      exact hgood ⟨hst, hne⟩
    rw [hzero]
    simp [inQueue, Link.hiccup, hst]
  | plug cs i j hin hi =>
    simp only [inQueue, modifyPipe_upipes, modifyPipe_near, free_near, free_queue, store_near, popInbox_near]
    rw [store_queue_of_ne _ (h.ne_inpipe halive hi)]
    rfl
  | ackAnswer cs hin hst | ackLast cs hin hst => exact absurd ht (succ_ne_zero _)
  | _ => rfl

/-! ### The accounts -/

/-- How many messages the writer may still send. -/
def credit (p : Pipe) : ℤ := p.hwm - (p.msgsWritten - p.peersMsgsRead)

/-- The accounts of the messages from the near end to the far end are right: the writer has counted what
the reader has counted and what is pending. So the writer, if it has a high watermark, may send as many
messages as are missing to it, less those that have been read and not been reported. -/
structure AccountsRight (s : Link) : Prop where
  balance : s.near.pipe.msgsWritten = s.far.pipe.msgsRead + pending s.swap.inQueue
  reported : s.near.pipe.peersMsgsRead ≤ s.far.pipe.msgsRead
  credit_eq : credit s.near.pipe = s.near.pipe.hwm -
    (pending s.swap.inQueue + (s.far.pipe.msgsRead - s.near.pipe.peersMsgsRead : ℕ))
  credit_nonneg : 0 < s.near.pipe.hwm → 0 ≤ credit s.near.pipe
  full_iff : 0 < s.near.pipe.hwm → (full s.near.pipe = true ↔ credit s.near.pipe = 0)

end Link

/-- The invariant of one direction. -/
structure AccountInv (s : Link) : Prop where
  ahead : Ahead s
  balance : s.far.frees = 0 →
    s.near.pipe.msgsWritten = s.far.pipe.msgsRead + Link.pending s.swap.inQueue

namespace AccountInv

variable {s t : Link} {a : EndAct} {e : Option SinkEvent}

open Link

lemma pipepair (hwm0 hwm1 : ℤ) : AccountInv (Link.pipepair hwm0 hwm1) :=
  ⟨Ahead.pipepair hwm0 hwm1, fun _ => rfl⟩

lemma pipepair_swap (hwm0 hwm1 : ℤ) : AccountInv (Link.pipepair hwm0 hwm1).swap := by
  have h := pipepair hwm1 hwm0
  exact ⟨⟨h.ahead.reports, h.ahead.credit⟩, fun _ => rfl⟩

lemma accountsRight (h : AccountInv s) (hfar : s.far.frees = 0) : s.AccountsRight := by
  have hbalance := h.balance hfar
  have hreported : s.near.pipe.peersMsgsRead ≤ s.far.pipe.msgsRead :=
    h.ahead.reports.le_now _ mem_cons_self
  have hcredit := h.ahead.credit
  refine ⟨hbalance, hreported, ?_, fun hpos => ?_, fun hpos => ?_⟩
  · unfold credit
    omega
  · have := hcredit hpos
    unfold credit
    omega
  · simp only [full, credit, decide_eq_true_eq]
    omega

lemma near (h : AccountInv s) (hs : ShutdownInv s) (halive : s.near.frees = 0) (hgood : ¬s.Miscounts a)
    (hmove : s.Move a t e) : AccountInv t := by
  obtain ⟨cs, hfar⟩ := hmove.far_eq
  refine ⟨h.ahead.near hmove, fun ht => ?_⟩
  have hs' : s.far.frees = 0 := by rwa [hfar] at ht
  have hpending := hmove.pending_writer hs halive hs' hgood
  have hbalance := h.balance hs'
  have hqueue : t.swap.inQueue = (t.upipes s.far.pipe.inpipe).queue := by
    simp only [inQueue, swap_near, swap_upipes, hfar]
  have hqueue' : s.swap.inQueue = (s.upipes s.far.pipe.inpipe).queue := rfl
  rw [hqueue, hfar]
  rw [hqueue'] at hbalance
  simp only
  omega

lemma far (h : AccountInv s) (hs : ShutdownInv s) (halive : s.far.frees = 0) (hgood : ¬s.swap.Miscounts a)
    (hmove : s.swap.Move a t e) : AccountInv t.swap := by
  obtain ⟨cs, hfar⟩ := hmove.far_eq
  refine ⟨h.ahead.far hmove, fun ht => ?_⟩
  have hpending := hmove.pending_reader hs.swap halive hgood ht
  have hbalance := h.balance halive
  have hwritten : t.swap.near.pipe.msgsWritten = s.near.pipe.msgsWritten := by
    rw [swap_near, hfar]
    rfl
  have hread : t.swap.far.pipe.msgsRead = t.near.pipe.msgsRead := rfl
  have hqueue : t.swap.swap.inQueue = t.inQueue := rfl
  have hread' : s.swap.near.pipe.msgsRead = s.far.pipe.msgsRead := rfl
  rw [hwritten, hread, hqueue]
  omega

/-- **A step that counts right keeps both accounts.** -/
theorem step (hs : ShutdownInv s) (hn : AccountInv s) (hf : AccountInv s.swap) {x : Side × EndAct}
    (hgood : s.CountsRight x) :
    ∃ t, s.step x = .ok t ∧ ShutdownInv t ∧ AccountInv t ∧ AccountInv t.swap := by
  obtain ⟨side, a⟩ := x
  cases side with
  | near =>
    obtain ⟨t, e, hact, ⟨rfl, -⟩ | ⟨halive, hmove⟩⟩ := hs.exists_move a
    · exact ⟨_, step_near_of_act hact, hs, hn, hf⟩
    · exact ⟨t, step_near_of_act hact, hs.move halive hmove, hn.near hs halive hgood hmove,
        hf.far hs.swap halive hgood hmove⟩
  | far =>
    obtain ⟨t, e, hact, ⟨rfl, -⟩ | ⟨halive, hmove⟩⟩ := hs.swap.exists_move a
    · exact ⟨s, step_far_of_act hact, hs, hn, hf⟩
    · exact ⟨t.swap, step_far_of_act hact, (hs.swap.move halive hmove).swap, hn.far hs halive hgood hmove,
        hf.near hs.swap halive hgood hmove⟩

end AccountInv

/-- **Exact accounts.** In every run of a new pair in which every step counts right, the accounts of both
directions are right at the end, as long as the reader exists. -/
theorem credit_accounts_exact (hwm0 hwm1 : ℤ) (acts : List (Side × EndAct))
    (hgood : StepsMeet Link.step Link.CountsRight (Link.pipepair hwm0 hwm1) acts) :
    ∃ s, (Link.pipepair hwm0 hwm1).run acts = .ok s ∧
      (s.far.frees = 0 → s.AccountsRight) ∧ (s.near.frees = 0 → s.swap.AccountsRight) := by
  obtain ⟨s, hrun, -, hn, hf⟩ := runSteps_invariant
    (I := fun s => ShutdownInv s ∧ AccountInv s ∧ AccountInv s.swap)
    (fun s x h hx => AccountInv.step h.1 h.2.1 h.2.2 hx)
    ⟨ShutdownInv.pipepair hwm0 hwm1, AccountInv.pipepair hwm0 hwm1, AccountInv.pipepair_swap hwm0 hwm1⟩ hgood
  exact ⟨s, hrun, hn.accountsRight, hf.accountsRight⟩

/-- A message, a reconnection when it has been read, and another message. -/
theorem credit_accounts_exact_after_hiccup :
    ∃ s, (Link.pipepair 1 1).run [(.near, .write .none [1]), (.near, .flush), (.far, .read),
        (.near, .deliver), (.far, .hiccup), (.near, .deliver), (.near, .write .none [2])] = .ok s ∧
      (s.far.frees = 0 → s.AccountsRight) ∧ (s.near.frees = 0 → s.swap.AccountsRight) :=
  credit_accounts_exact 1 1 _ (by decide)

/-- A credential is counted by the writer and not by the reader; and a message that a hiccup throws away
has been counted by the writer, so that the pipe is full for ever with nothing in it. -/
theorem credit_accounts_wrong :
    (∃ s, (Link.pipepair 1 1).run [(.near, .write { MsgFlags.none with credential := true } [1]),
        (.near, .flush), (.far, .read), (.near, .deliver)] = .ok s ∧
      s.near.pipe.msgsWritten = 1 ∧ s.far.pipe.msgsRead = 0 ∧ Link.pending s.swap.inQueue = 0 ∧
      s.near.inbox = [] ∧ Link.full s.near.pipe = true) ∧
    (∃ s, (Link.pipepair 1 1).run [(.near, .write .none [1]), (.near, .flush), (.far, .hiccup),
        (.near, .deliver)] = .ok s ∧
      s.near.pipe.msgsWritten = 1 ∧ s.far.pipe.msgsRead = 0 ∧ Link.pending s.swap.inQueue = 0 ∧
      s.near.inbox = [] ∧ Link.full s.near.pipe = true) := by
  refine ⟨⟨_, rfl, ?_⟩, ⟨_, rfl, ?_⟩⟩ <;> decide

end Zmq
