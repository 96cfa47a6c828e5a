import ZeroMQ.Pipe.Moves

/-!
# Safety and progress of the shutdown

Whatever the two owners call and in whatever order the commands arrive, the handshake is safe: no
assertion fails, nothing is sent or deallocated twice, and no command reaches an end that is gone.

It does not always finish. An end that waits for the delimiter of its peer finds it only in the pipe
it reads now, and a hiccup replaces that pipe: if the hiccup and the request of the peer cross, the
delimiter is in the pipe that is thrown away. `Link.LosesDelimiter` names the two steps at which
this happens. In every run without them the delimiter stays where it will be read, and a pair at
rest is a pair that is gone.
-/

namespace Zmq

open Foundation List

/-- **Safety of the shutdown.** Every run of a new pair succeeds: no assertion fails, no command
reaches a deallocated end and no deallocated pipe is accessed. An end sends at most one request and
at most one acknowledgement, and every end and every lock-free pipe is deallocated at most once. -/
theorem shutdown_safe (hwm0 hwm1 : ℤ) (acts : List (Side × EndAct)) :
    ∃ s, (Link.pipepair hwm0 hwm1).run acts = .ok s ∧
      (s.near.pipeTerms ≤ 1 ∧ s.near.pipeTermAcks ≤ 1 ∧ s.near.frees ≤ 1) ∧
      (s.far.pipeTerms ≤ 1 ∧ s.far.pipeTermAcks ≤ 1 ∧ s.far.frees ≤ 1) ∧
      ∀ i, (s.upipes i).frees ≤ 1 := by
  have hmeet : StepsMeet Link.step (fun _ _ => True) (Link.pipepair hwm0 hwm1) acts :=
    stepsMeet_of_forall (fun _ _ _ => trivial) _
  obtain ⟨s, hrun, hs⟩ := runSteps_invariant (I := ShutdownInv) (fun s x h _ => h.step x)
    (ShutdownInv.pipepair hwm0 hwm1) hmeet
  exact ⟨s, hrun, ⟨hs.near.terms_le, hs.near.acks_le, hs.near.frees_le⟩,
    ⟨hs.far.terms_le, hs.far.acks_le, hs.far.frees_le⟩, hs.frees_le⟩

/-! ### What a move leaves alone -/

namespace Link

variable {s t : Link} {a : EndAct} {e : Option SinkEvent}

@[simp] lemma popInbox_near (s : Link) (cs : List Command) :
    (s.popInbox cs).near = { s.near with inbox := cs } := rfl

@[simp] lemma popInbox_far (s : Link) (cs : List Command) : (s.popInbox cs).far = s.far := rfl

lemma countRead_far (s : Link) (m : Msg) :
    ∃ cs, (s.countRead m).far = { s.far with inbox := s.far.inbox ++ cs } := by
  rw [countRead_eq]
  simp only
  split
  · exact ⟨_, rfl⟩
  · exact ⟨[], by simp⟩

lemma closeOut_far (s : Link) (i : ℕ) : ∃ cs, (s.closeOut i).far = { s.far with inbox := s.far.inbox ++ cs } := by
  unfold closeOut
  split
  · exact ⟨_, rfl⟩
  · exact ⟨[], by simp⟩

lemma Move.far_eq (hmove : s.Move a t e) : ∃ cs, t.far = { s.far with inbox := s.far.inbox ++ cs } := by
  cases hmove with
  | readFrame credential creds m ms hcan hfl hcreds hm => exact countRead_far _ m
  | writeFrame i flags body hout hst hfull hi =>
    refine ⟨[], ?_⟩
    rw [countWrite_eq]
    simp
  | flush i hi =>
    split
    · exact ⟨[], by simp⟩
    · exact ⟨_, rfl⟩
  | terminate delay i hi hst =>
    obtain ⟨cs, hcs⟩ := closeOut_far (((s.markTerminate delay).sendPipeTerm.modifyPipe
        fun p => { p with state := .termReqSent1 })) i
    refine ⟨.pipeTerm :: cs, ?_⟩
    rw [hcs]
    simp [sendPipeTerm, markTerminate]
  | terminateWaiting i hi hst => exact closeOut_far _ i
  | hiccup hst =>
    refine ⟨[.hiccup (some s.fresh)], ?_⟩
    simp [Link.hiccup, hst]
  | readLastDelimiter | terminateNow | pipeTermAck | pipeTermCross | ackAnswer => exact ⟨[.pipeTermAck], rfl⟩
  | _ => exact ⟨[], by simp [setInQueue, deactivateIn, markTerminate, Link.setNodelay, release]⟩

lemma closeOut_queue (s : Link) (i : ℕ) :
    (s.closeOut i).upipes = (s.store i (closeOutbound (s.upipes i).queue)).upipes := by
  unfold closeOut
  split <;> rfl

end Link

namespace ShutdownInv

variable {s t : Link} {a : EndAct} {e : Option SinkEvent}

open Link

lemma ne_inpipe (h : ShutdownInv s) (halive : s.near.frees = 0) {i : ℕ}
    (hi : s.near.pipe.outpipe = some i) : s.near.pipe.inpipe ≠ i := by
  have hmem : i ∈ route s.near s.far := by simp [route, hi]
  have hlast := mem_of_getLast? (h.near_last halive)
  exact fun heq => (nodup_append.mp h.nodup).2.2 i hmem _ hlast heq.symm

lemma inpipe_ne_inpipe (h : ShutdownInv s) (hn : s.near.frees = 0) (hf : s.far.frees = 0) :
    s.far.pipe.inpipe ≠ s.near.pipe.inpipe := by
  have h1 := mem_of_getLast? (h.near_last hn)
  have h2 := mem_of_getLast? (h.far_last hf)
  exact (nodup_append.mp h.nodup).2.2 _ h2 _ h1

lemma inpipe_lt_fresh (h : ShutdownInv s) (hf : s.far.frees = 0) : s.far.pipe.inpipe < s.fresh :=
  (h.live _ (mem_append_left _ (mem_of_getLast? (h.far_last hf)))).2

lemma far_flushed (h : ShutdownInv s) (halive : s.near.frees = 0) (hf : s.far.frees = 0)
    (hmove : s.Move a t e) :
    (s.upipes s.far.pipe.inpipe).queue.flushed <+: (t.upipes s.far.pipe.inpipe).queue.flushed := by
  have hne := h.inpipe_ne_inpipe halive hf
  -- writing to the outbound pipe, whether or not the peer reads it
  have hstore : ∀ (i : ℕ) (u : Upipe Msg), (s.upipes i).queue.flushed <+: u.flushed →
      (s.upipes s.far.pipe.inpipe).queue.flushed <+: ((s.store i u).upipes s.far.pipe.inpipe).queue.flushed := by
    intro i u hu
    by_cases hi : s.far.pipe.inpipe = i
    · rw [hi, store_queue_self]
      exact hu
    · rw [store_queue_of_ne s hi]
  have hin : ∀ c u, (s.upipes s.far.pipe.inpipe).queue.flushed <+:
      ((s.setInQueue c u).upipes s.far.pipe.inpipe).queue.flushed := by
    intro c u
    rw [Link.setInQueue, store_queue_of_ne _ hne]
    exact prefix_rfl
  have hclose : ∀ i, (s.upipes i).queue.flushed <+: (closeOutbound (s.upipes i).queue).flushed := by
    intro i
    rw [closeOutbound, append_assoc]
    exact prefix_append _ _
  have hrelease : ∀ u, (s.upipes s.far.pipe.inpipe).queue.flushed <+:
      (((s.store s.near.pipe.inpipe u).free s.near.pipe.inpipe).upipes s.far.pipe.inpipe).queue.flushed := by
    intro u
    rw [free_queue, store_queue_of_ne s hne]
  cases hmove with
  | readEmpty credential ha hcan hfl | readDelimiter credential creds m ms ha hcan hfl hcreds hm hst
  | readLastDelimiter credential creds m ms ha hcan hfl hcreds hm hst => exact hin _ _
  | readFrame credential creds m ms hcan hfl hcreds hm =>
    rw [countRead_eq]
    simp only
    split <;> exact hin _ _
  | writeFrame i flags body hout hst hfull hi =>
    rw [countWrite_eq]
    refine hstore i _ ?_
    unfold Upipe.write
    split <;> exact prefix_rfl
  | rollback i hi => exact hstore i _ prefix_rfl
  | flush i hi =>
    have hfl : (s.upipes i).queue.flushed <+: (s.upipes i).queue.flush.2.flushed := by
      unfold Upipe.flush
      split
      · exact prefix_rfl
      · exact prefix_append _ _
    split <;> exact hstore i _ hfl
  | terminate delay i hi hst | terminateWaiting i hi hst =>
    rw [closeOut_queue]
    exact hstore i _ (hclose i)
  | hiccup hst =>
    have hlt := h.inpipe_lt_fresh hf
    simp only [Link.hiccup, hst, ne_eq, not_true_eq_false, ↓reduceIte, send_upipes, modifyPipe_upipes]
    rw [Function.update_of_ne (by omega)]
  | plug cs i j hin hi =>
    have hr : route s.near s.far = i :: j :: hiccups cs := by simp [route, hi, hin, hiccups]
    have hlast := h.far_last hf
    have hnd := h.nodup
    rw [hr] at hnd hlast
    rw [getLast?_cons_cons] at hlast
    have hni : s.far.pipe.inpipe ≠ i := fun heq =>
      (nodup_cons.mp hnd).1 (mem_append_left _ (heq ▸ mem_of_getLast? hlast))
    rw [modifyPipe_upipes, free_queue, store_queue_of_ne _ hni]
    exact prefix_rfl
  | ackAnswer cs hin hst | ackLast cs hin hst => exact hrelease _
  | _ => exact prefix_rfl

end ShutdownInv

/-! ### The delimiter -/

namespace Link

/-- The far end waits for a delimiter, or will do so when the request of the near end arrives. -/
def AwaitsDelimiter (s : Link) : Prop :=
  s.far.frees = 0 ∧ (s.far.pipe.state = .waitingForDelimiter ∨
    (s.far.pipe.state = .active ∧ s.far.pipe.delay = true))

/-- The two steps at which a delimiter gets lost: the near end asks to terminate while a hiccup is on
its way to it and the peer will wait for the delimiter in the new pipe, or the near end hiccups while
the request of the peer is on its way to it and it will wait for the delimiter. -/
def LosesDelimiter (s : Link) : EndAct → Prop
  | .terminate _ =>
    (s.near.pipe.state = .active ∨ s.near.pipe.state = .delimiterReceived) ∧
      hiccups s.near.inbox ≠ [] ∧ s.far.pipe.state = .active ∧ s.far.pipe.delay = true
  | .hiccup => s.near.pipe.state = .active ∧ s.near.pipe.delay = true ∧ .pipeTerm ∈ s.near.inbox
  | _ => False

/-- No delimiter gets lost in a step. -/
def KeepsDelimiter (s : Link) : Side × EndAct → Prop
  | (.near, a) => ¬s.LosesDelimiter a
  | (.far, a) => ¬s.swap.LosesDelimiter a

/-- A termination was started, no command is in flight, and neither end has an item to read. -/
def AtRest (s : Link) : Prop :=
  (s.near.terminateCalled = true ∨ s.far.terminateCalled = true) ∧
    s.near.inbox = [] ∧ s.far.inbox = [] ∧
    s.inQueue.flushed = [] ∧ s.swap.inQueue.flushed = []

/-- The near end does not wait for a delimiter that is not there. -/
def DelimiterThere (s : Link) : Prop :=
  s.near.frees = 0 → s.near.pipe.state = .waitingForDelimiter → Msg.initDelimiter ∈ s.inQueue.flushed

/-- The shutdown is not stuck: at rest both ends are gone, and an end that waits for the delimiter
will find it. -/
def NotStuck (s : Link) : Prop :=
  (s.AtRest → s.near.frees = 1 ∧ s.far.frees = 1) ∧ s.DelimiterThere ∧ s.swap.DelimiterThere

instance (s : Link) (a : EndAct) : Decidable (s.LosesDelimiter a) :=
  match a with
  | .terminate _ => inferInstanceAs (Decidable ((_ ∨ _) ∧ _ ∧ _ ∧ _))
  | .hiccup => inferInstanceAs (Decidable (_ ∧ _ ∧ _))
  | .setNodelay | .checkRead | .read | .checkWrite | .write _ _ | .rollback | .flush | .deliver =>
    inferInstanceAs (Decidable False)

instance (s : Link) (x : Side × EndAct) : Decidable (s.KeepsDelimiter x) :=
  match x with
  | (.near, a) => inferInstanceAs (Decidable (¬s.LosesDelimiter a))
  | (.far, a) => inferInstanceAs (Decidable (¬s.swap.LosesDelimiter a))

end Link

/-- The invariant behind progress, for requests of the near end. -/
structure DelimiterInv (s : Link) : Prop where
  /-- The delimiter of an end that asked to terminate is in the pipe its peer will look into. -/
  delimiter : s.near.pipeTerms = 1 → s.AwaitsDelimiter →
    Msg.initDelimiter ∈ (s.upipes s.far.pipe.inpipe).queue.flushed
  asked : s.near.terminateCalled = true → s.near.pipeTerms = 1 ∨ s.far.pipeTerms = 1

namespace DelimiterInv

variable {s t : Link} {a : EndAct} {e : Option SinkEvent}

open Link

lemma pipeTerms_of_move (hmove : s.Move a t e) :
    (t.near.pipeTerms = s.near.pipeTerms ∧ t.near.terminateCalled = s.near.terminateCalled) ∨
    (∃ delay, a = .terminate delay ∧ t.near.terminateCalled = true ∧
      ((t.near.pipeTerms = s.near.pipeTerms ∧ s.near.pipe.state ≠ .active ∧
          s.near.pipe.state ≠ .delimiterReceived) ∨
        (t.near.pipeTerms = s.near.pipeTerms + 1 ∧
          (s.near.pipe.state = .active ∨ s.near.pipe.state = .delimiterReceived) ∧
          ∃ i, s.near.pipe.outpipe = some i ∧
            t.upipes = (s.store i (closeOutbound (s.upipes i).queue)).upipes))) := by
  have hclose : ∀ (u : Link) (i : ℕ), (u.closeOut i).near.pipeTerms = u.near.pipeTerms ∧
      (u.closeOut i).near.terminateCalled = u.near.terminateCalled := by
    intro u i
    unfold Link.closeOut
    split <;> exact ⟨rfl, rfl⟩
  cases hmove with
  | readFrame credential creds m ms hcan hfl hcreds hm =>
    left
    rw [countRead_eq]
    simp only
    split <;> exact ⟨rfl, rfl⟩
  | writeFrame i flags body hout hst hfull hi =>
    left
    rw [countWrite_eq]
    exact ⟨rfl, rfl⟩
  | flush i hi =>
    left
    split <;> exact ⟨rfl, rfl⟩
  | hiccup hst =>
    left
    simp [Link.hiccup, hst]
  | terminateAgain delay hst =>
    refine .inr ⟨delay, rfl, rfl, .inl ⟨rfl, ?_⟩⟩
    rcases hst with hst | hst | hst <;> rw [hst] <;> decide
  | terminate delay i hi hst =>
    refine .inr ⟨delay, rfl, (hclose _ i).2, .inr ⟨(hclose _ i).1, hst, i, hi, ?_⟩⟩
    rw [closeOut_queue]
    rfl
  | terminateWaiting i hi hst =>
    refine .inr ⟨true, rfl, (hclose _ i).2, .inl ⟨(hclose _ i).1, ?_⟩⟩
    rw [hst]
    decide
  | terminateNow hst =>
    refine .inr ⟨false, rfl, rfl, .inl ⟨rfl, ?_⟩⟩
    rw [hst]
    decide
  | _ => exact .inl ⟨rfl, rfl⟩

lemma move (h : DelimiterInv s) (hs : ShutdownInv s) (halive : s.near.frees = 0)
    (hgood : ¬s.LosesDelimiter a) (hmove : s.Move a t e) : DelimiterInv t := by
  obtain ⟨cs, hfar⟩ := hmove.far_eq
  have hawait : t.AwaitsDelimiter → s.AwaitsDelimiter := by
    rw [AwaitsDelimiter, hfar]
    exact id
  have hkeep : s.near.pipeTerms = 1 → t.AwaitsDelimiter →
      Msg.initDelimiter ∈ (t.upipes t.far.pipe.inpipe).queue.flushed := by
    intro hreq hw
    rw [hfar]
    exact (hs.far_flushed halive (hawait hw).1 hmove).subset (h.delimiter hreq (hawait hw))
  obtain ⟨hterms, hcalled⟩ | ⟨delay, rfl, -, ⟨hterms, hst⟩ | ⟨hterms, hst, i, hi, hup⟩⟩ := pipeTerms_of_move hmove
  · refine ⟨fun hreq => hkeep (hterms ▸ hreq), fun hc => ?_⟩
    rw [hterms, hfar]
    exact h.asked (hcalled ▸ hc)
  · refine ⟨fun hreq => hkeep (hterms ▸ hreq), fun _ => ?_⟩
    rw [hterms, hfar, hs.near.terms_eq halive]
    have hti := hs.near.term_inbox halive
    have := hs.far.terms_le
    cases hst' : s.near.pipe.state <;> simp_all [PipeState.terms, PipeState.got] <;> omega
  · have hle := hs.near.terms_le
    have hzero : s.near.pipeTerms = 0 := by
      rw [hs.near.terms_eq halive]
      rcases hst with hst | hst <;> rw [hst] <;> rfl
    refine ⟨fun _ hw => ?_, fun _ => .inl (by rw [hterms, hzero])⟩
    -- the peer has received no request, so it is active and waits only if it delays
    obtain ⟨hfalive, hstate⟩ := hawait hw
    have hfti := hs.far.term_inbox hfalive
    have hactive : s.far.pipe.state = .active ∧ s.far.pipe.delay = true := by
      rcases hstate with hstate | hstate
      · rw [hstate] at hfti
        simp only [PipeState.got, hzero] at hfti
        omega
      · exact hstate
    have hhic : hiccups s.near.inbox = [] := by
      by_contra hne
      exact hgood ⟨hst, hne, hactive⟩
    have hlast := hs.outpipe_eq_inpipe hi hhic
    rw [hfar, hup]
    simp only [← hlast, store_queue_self, closeOutbound]
    exact mem_append_right _ (mem_singleton.mpr rfl)

lemma move_peer (h : DelimiterInv s.swap) (hs : ShutdownInv s) (ht : ShutdownInv t)
    (halive : s.near.frees = 0) (hgood : ¬s.LosesDelimiter a) (hmove : s.Move a t e) :
    DelimiterInv t.swap := by
  obtain ⟨cs, hfar⟩ := hmove.far_eq
  refine ⟨fun hreq hw => ?_, fun hc => ?_⟩
  swap
  · have hle : s.near.pipeTerms ≤ t.near.pipeTerms := by
      rcases pipeTerms_of_move hmove with ⟨hterms, -⟩ | ⟨-, -, -, ⟨hterms, -⟩ | ⟨hterms, -⟩⟩ <;> omega
    have hle' := ht.near.terms_le
    simp only [swap_near, swap_far, hfar] at hc ⊢
    have hasked := h.asked hc
    simp only [swap_near, swap_far] at hasked
    omega
  simp only [swap_near, hfar] at hreq
  obtain ⟨hfrees, hstate⟩ := hw
  simp only [swap_far, swap_upipes]
  -- the end was waiting before, unless it still has to receive the request
  have hbefore : (s.near.pipe.state = .waitingForDelimiter ∨
      (s.near.pipe.state = .active ∧ s.near.pipe.delay = true)) →
      Msg.initDelimiter ∈ s.inQueue.flushed := fun hst => h.delimiter hreq ⟨halive, hst⟩
  have hcred : Msg.initDelimiter.isCredential = false := rfl
  have hout : ∀ (i : ℕ) (u : Upipe Msg), s.near.pipe.outpipe = some i →
      ((s.store i u).upipes s.near.pipe.inpipe).queue = s.inQueue := by
    intro i u hi
    rw [store_queue_of_ne s (hs.ne_inpipe halive hi), inQueue]
  cases hmove with
  | readEmpty credential ha hcan hfl =>
    have := hfl _ (hbefore hstate)
    rw [hcred] at this
    exact absurd this (by decide)
  | readDelimiter credential creds m ms ha hcan hfl hcreds hm hst => simp at hstate
  | readLastDelimiter credential creds m ms ha hcan hfl hcreds hm hst
  | terminateNow hst | pipeTermAck cs hin hst | pipeTermCross cs hin hst =>
    simp [ackAndEnter, sendPipeTermAck] at hstate
  | readFrame credential creds m ms hcan hfl hcreds hm =>
    rw [countRead_eq] at hstate ⊢
    have hmem : Msg.initDelimiter ∈ creds ++ m :: ms := by
      rw [← hfl]
      refine hbefore ?_
      simp only at hstate
      split at hstate <;> exact hstate
    have hms : Msg.initDelimiter ∈ ms := by
      rcases mem_append.mp hmem with hmem | hmem
      · have := hcreds _ hmem
        rw [hcred] at this
        exact absurd this (by decide)
      · rcases mem_cons.mp hmem with rfl | hmem
        · exact absurd hm (by decide)
        · exact hmem
    simp only
    split <;> simpa [Link.setInQueue] using hms
  | fill ha hout hst hfull | activateRead cs hin | activateWrite cs n hin => exact hbefore hstate
  | writeFrame i flags body ho hst hfull hi =>
    rw [countWrite_eq] at hstate ⊢
    simp only [modifyPipe_near, modifyPipe_upipes, store_near]
    rw [hout i _ hi]
    exact hbefore hstate
  | rollback i hi =>
    simp only [store_near]
    rw [hout i _ hi]
    exact hbefore hstate
  | flush i hi =>
    have hgoal : Msg.initDelimiter ∈
        ((s.store i (s.upipes i).queue.flush.2).upipes s.near.pipe.inpipe).queue.flushed := by
      rw [hout i _ hi]
      refine hbefore ?_
      split at hstate <;> exact hstate
    split <;> exact hgoal
  | terminateAgain delay hst =>
    rcases hst with hst | hst | hst <;> simp [markTerminate, hst] at hstate
  | terminate delay i hi hst =>
    unfold Link.closeOut at hstate
    split at hstate <;> simp [markTerminate, sendPipeTerm] at hstate
  | terminateWaiting i hi hst =>
    have hin : ((s.markTerminate true).closeOut i).near.pipe.inpipe = s.near.pipe.inpipe := by
      unfold Link.closeOut
      split <;> rfl
    rw [closeOut_queue, hin]
    change Msg.initDelimiter ∈ ((s.store i _).upipes s.near.pipe.inpipe).queue.flushed
    rw [hout i _ hi]
    exact hbefore (.inl hst)
  | setNodelay =>
    refine hbefore (.inl ?_)
    simpa [Link.setNodelay] using hstate
  | hiccup hst =>
    have hti := hs.near.term_inbox halive
    simp only [hst, PipeState.got, Nat.add_zero, hreq] at hti
    have hdelay : s.near.pipe.delay = true := by simpa [Link.hiccup, hst] using hstate
    exact absurd ⟨hst, hdelay, count_pos_iff.mp (by omega)⟩ hgood
  | plug cs i j hin hi =>
    simp only [modifyPipe_upipes, modifyPipe_near, free_near, store_near, popInbox_near, free_queue]
    change Msg.initDelimiter ∈ ((s.store i _).upipes s.near.pipe.inpipe).queue.flushed
    rw [hout i _ hi]
    exact hbefore hstate
  | pipeTermWait cs hin hst hdelay => exact hbefore (.inr ⟨hst, hdelay⟩)
  | ackAnswer cs hin hst => simp [release, sendPipeTermAck] at hfrees
  | ackLast cs hin hst => simp [release] at hfrees

lemma step (hs : ShutdownInv s) (hn : DelimiterInv s) (hf : DelimiterInv s.swap)
    {x : Side × EndAct} (hgood : s.KeepsDelimiter x) :
    ∃ t, s.step x = .ok t ∧ ShutdownInv t ∧ DelimiterInv t ∧ DelimiterInv t.swap := by
  obtain ⟨side, a⟩ := x
  cases side with
  | near =>
    obtain ⟨t, e, hact, ⟨rfl, -⟩ | ⟨halive, hmove⟩⟩ := hs.exists_move a
    · exact ⟨_, step_near_of_act hact, hs, hn, hf⟩
    · have ht := hs.move halive hmove
      exact ⟨t, step_near_of_act hact, ht, hn.move hs halive hgood hmove, hf.move_peer hs ht halive hgood hmove⟩
  | far =>
    obtain ⟨t, e, hact, ⟨rfl, -⟩ | ⟨halive, hmove⟩⟩ := hs.swap.exists_move a
    · exact ⟨s, step_far_of_act hact, hs, hn, hf⟩
    · have ht := hs.swap.move halive hmove
      exact ⟨t.swap, step_far_of_act hact, ht.swap,
        move_peer (s := s.swap) hn hs.swap ht halive hgood hmove, hf.move hs.swap halive hgood hmove⟩

lemma delimiterThere (h : DelimiterInv s.swap) (hs : ShutdownInv s) : s.DelimiterThere := by
  intro halive hst
  have hti := hs.near.term_inbox halive
  rw [hst, PipeState.got] at hti
  have := hs.far.terms_le
  exact h.delimiter (by simp only [swap_near]; omega) ⟨halive, .inl hst⟩

lemma gone_of_asked (h : DelimiterInv s) (hs : ShutdownInv s) (hreq : s.near.pipeTerms = 1)
    (hni : s.near.inbox = []) (hfi : s.far.inbox = []) (hfl : s.swap.inQueue.flushed = []) :
    s.near.frees = 1 ∧ s.far.frees = 1 := by
  have hfar : s.far.frees ≠ 0 := by
    intro halive
    -- the peer has received the request and does not wait, so it has acknowledged
    have hti := hs.far.term_inbox halive
    rw [hfi, count_nil, hreq] at hti
    have hst : s.far.pipe.state ≠ .waitingForDelimiter := fun hst => by
      have := h.delimiter hreq ⟨halive, .inl hst⟩
      change Msg.initDelimiter ∈ s.swap.inQueue.flushed at this
      rw [hfl] at this
      exact absurd this (by simp)
    have hack : s.far.pipeTermAcks = 1 := by
      rw [hs.far.acks_eq halive]
      cases hst' : s.far.pipe.state <;> simp_all [PipeState.got, PipeState.acks]
    have hnear : s.near.frees ≠ 0 := by
      intro hn
      have := hs.near.ack_inbox hn
      rw [hni, count_nil] at this
      omega
    have := hs.far.ack_inbox halive
    rw [hfi, count_nil, (hs.near.dead hnear).2.1] at this
    omega
  have hnear : s.near.frees ≠ 0 := by
    intro hn
    have := hs.near.ack_inbox hn
    rw [hni, count_nil, (hs.far.dead hfar).2.1] at this
    omega
  have := hs.near.frees_le
  have := hs.far.frees_le
  omega

end DelimiterInv

/-- **Progress of the shutdown.** In every run in which no step loses a delimiter, the shutdown is not
stuck in the state reached: at rest both ends are deallocated, and an end that waits for the
delimiter has it in the pipe it reads. -/
theorem shutdown_not_stuck (hwm0 hwm1 : ℤ) (acts : List (Side × EndAct))
    (hgood : StepsMeet Link.step Link.KeepsDelimiter (Link.pipepair hwm0 hwm1) acts) :
    ∃ s, (Link.pipepair hwm0 hwm1).run acts = .ok s ∧ s.NotStuck := by
  have hinit : DelimiterInv (Link.pipepair hwm0 hwm1) := by
    constructor <;> simp [Link.pipepair, Link.newEndpoint]
  have hinit' : DelimiterInv (Link.pipepair hwm0 hwm1).swap := by
    constructor <;> simp [Link.pipepair, Link.newEndpoint]
  obtain ⟨s, hrun, hs, hn, hf⟩ := runSteps_invariant
    (I := fun s => ShutdownInv s ∧ DelimiterInv s ∧ DelimiterInv s.swap)
    (fun s x h hx => DelimiterInv.step h.1 h.2.1 h.2.2 hx)
    ⟨ShutdownInv.pipepair hwm0 hwm1, hinit, hinit'⟩ hgood
  refine ⟨s, hrun, ?_, hf.delimiterThere hs, DelimiterInv.delimiterThere (s := s.swap) hn hs.swap⟩
  rintro ⟨hcalled, hni, hfi, hnfl, hffl⟩
  have hreq : s.near.pipeTerms = 1 ∨ s.far.pipeTerms = 1 := by
    rcases hcalled with hc | hc
    · exact hn.asked hc
    · exact (hf.asked hc).symm
  rcases hreq with hreq | hreq
  · exact hn.gone_of_asked hs hreq hni hfi hffl
  · exact (hf.gone_of_asked hs.swap hreq hfi hni hnfl).symm

/-- A termination with a hiccup that does not cross it, up to the point where both ends are gone. -/
theorem shutdown_not_stuck_after_hiccup :
    ∃ s, (Link.pipepair 1000 1000).run [(.near, .hiccup), (.far, .deliver), (.far, .terminate false),
      (.near, .deliver), (.near, .read), (.far, .deliver), (.near, .deliver)] = .ok s ∧
      s.NotStuck :=
  shutdown_not_stuck 1000 1000 _ (by decide)

/-- The near end hiccups, and before the peer has heard of it the peer terminates. The delimiter is
in the pipe that is thrown away: with nothing in flight and nothing to read, the near end waits for it
for ever. -/
theorem shutdown_stuck_crossing_hiccup :
    ∃ s, (Link.pipepair 1000 1000).run [(.near, .hiccup), (.far, .terminate false),
      (.far, .deliver), (.near, .deliver)] = .ok s ∧ s.AtRest ∧ s.near.frees = 0 ∧
      s.near.pipe.state = .waitingForDelimiter ∧ ¬s.NotStuck := by
  refine ⟨_, rfl, ?_, rfl, rfl, ?_⟩
  · exact ⟨.inr rfl, rfl, rfl, rfl, rfl⟩
  · rintro ⟨-, hthere, -⟩
    exact absurd (hthere rfl rfl) (by decide)

end Zmq
