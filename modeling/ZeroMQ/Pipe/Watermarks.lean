import ZeroMQ.Pipe.Accounting

/-!
# Watermarks and what they say about the counters

An end is full when its counters differ by the high watermark. A pipe to a socket that has not bound yet
is made with the watermarks of the connecter, and gets others when that socket binds: the sums of those of
the two sockets, or none at all. `PairAct` is an act at one end or such a change.

`Accounted` relates the counters of a writer, its high watermark, and the low watermark of its peer, over
all runs. An end that is still active and has been stopped is full, as long as its watermark does not
change (`Stopped`).
-/

namespace Zmq

open Foundation Nat

namespace Link

/-! ### New watermarks -/

/-- `pipe_t::set_hwms`. -/
def setHwms (s : Link) (inhwm outhwm : ℤ) : Link :=
  s.modifyPipe fun p => { p with lwm := computeLwm inhwm, hwm := outhwm }

/-- A watermark in `ctx_t::connect_inproc_sockets`, from what the connecter has set and the option of the
binder; the sum is taken to be an `int`. Pipes that keep only the last message have a negative one. -/
def combinedHwm (hwm : ℤ) (other : ℕ) : ℤ :=
  if hwm < 0 then -1 else if hwm ≠ 0 ∧ other ≠ 0 then hwm + other else 0

/-- The watermarks both ends of a pipe are given in `ctx_t::connect_inproc_sockets`, with the options
`rcvhwm` and `sndhwm` of the binder. The near end is the one of the connecter. -/
def combineHwms (s : Link) (rcvhwm sndhwm : ℕ) : Link :=
  let out := combinedHwm s.near.pipe.hwm rcvhwm
  let inp := combinedHwm s.far.pipe.hwm sndhwm
  ((s.setHwms inp out).swap.setHwms out inp).swap

lemma combinedHwm_le (hwm : ℤ) (other : ℕ) :
    combinedHwm hwm other ≤ 0 ∨ (0 < hwm ∧ hwm ≤ combinedHwm hwm other) := by
  unfold combinedHwm
  split_ifs <;> omega

end Link

/-- What happens to a pair. -/
inductive PairAct
  /-- An act at one of the ends. -/
  | act (side : Side) (a : EndAct)
  /-- The socket with these options binds, to which the near end has been waiting to be connected. -/
  | combineHwms (rcvhwm sndhwm : ℕ)
  deriving DecidableEq, Repr

namespace Link

/-- One step. -/
def pairStep (s : Link) : PairAct → Except PipeFault Link
  | .act side a => s.step (side, a)
  | .combineHwms rcvhwm sndhwm => .ok (s.combineHwms rcvhwm sndhwm)

/-- Nothing has been read from a pipe when a socket binds: the other end belongs to nobody until then. -/
def Unread (s : Link) : PairAct → Prop
  | .act _ _ => True
  | .combineHwms _ _ => s.near.pipe.msgsRead = 0 ∧ s.far.pipe.msgsRead = 0

end Link

/-! ### The counters of one direction -/

/-- The counters for messages from the near end to the far end: the writer is at most the high watermark
ahead of what it has heard, and the reader reports every time its counter reaches a multiple of the low
watermark that belongs to it. The reader has not counted more than the writer. -/
structure Accounted (s : Link) : Prop where
  ahead : Ahead s
  read_le : s.far.pipe.msgsRead ≤ s.near.pipe.msgsWritten
  pending_le : s.far.frees = 0 → s.far.pipe.msgsRead + Link.pending s.swap.inQueue ≤ s.near.pipe.msgsWritten
  lwm_eq : s.far.pipe.lwm = Link.computeLwm s.near.pipe.hwm
  window : 0 < s.near.pipe.hwm → Window s.far.pipe.lwm.toNat s.far.pipe.msgsRead
    s.near.pipe.peersMsgsRead (reports s.near.inbox)

namespace Link

variable {s t : Link} {a : EndAct} {e : Option SinkEvent}

lemma Move.reader_window (hmove : s.Move a t e) :
    t.near.pipe.lwm = s.near.pipe.lwm ∧
    ((t.near.pipe.msgsRead = s.near.pipe.msgsRead ∧ Zmq.reports t.far.inbox = Zmq.reports s.far.inbox) ∨
      (s.near.pipe.msgsRead ≤ t.near.pipe.msgsRead ∧ t.near.pipe.msgsRead ≤ s.near.pipe.msgsRead + 1 ∧
        ((s.near.pipe.lwm.toNat ∣ t.near.pipe.msgsRead ∧
            Zmq.reports t.far.inbox = Zmq.reports s.far.inbox ++ [t.near.pipe.msgsRead]) ∨
          (¬(0 < s.near.pipe.lwm ∧ s.near.pipe.lwm.toNat ∣ t.near.pipe.msgsRead) ∧
            Zmq.reports t.far.inbox = Zmq.reports s.far.inbox)))) := by
  have hclose : ∀ (u : Link) (i : ℕ), Zmq.reports (u.closeOut i).far.inbox = Zmq.reports u.far.inbox := by
    intro u i
    unfold closeOut
    split
    · simp [Zmq.reports]
    · rfl
  cases hmove with
  | readFrame credential creds m ms hcan hfl hcreds hm =>
    have hle : counted m ≤ 1 := by
      unfold counted
      split <;> omega
    rw [countRead_near, Nat.dvd_iff_mod_eq_zero]
    refine ⟨rfl, Or.inr ⟨Nat.le_add_right _ _, Nat.add_le_add_left hle _, ?_⟩⟩
    rw [countRead_eq]
    simp only
    split
    next hc => exact Or.inl ⟨hc.2, by simp [setInQueue, Zmq.reports]⟩
    next hc => exact Or.inr ⟨hc, rfl⟩
  | writeFrame i flags body ho hst hfull hi =>
    rw [countWrite_eq]
    exact ⟨rfl, Or.inl ⟨rfl, rfl⟩⟩
  | flush i hi =>
    split
    · exact ⟨rfl, Or.inl ⟨rfl, rfl⟩⟩
    · exact ⟨rfl, Or.inl ⟨rfl, by simp [Zmq.reports]⟩⟩
  | terminate delay i hi hst =>
    rw [closeOut_near]
    refine ⟨rfl, Or.inl ⟨rfl, ?_⟩⟩
    rw [hclose]
    simp [sendPipeTerm, markTerminate, Zmq.reports]
  | terminateWaiting i hi hst =>
    rw [closeOut_near]
    exact ⟨rfl, Or.inl ⟨rfl, hclose _ i⟩⟩
  | hiccup hst =>
    simp only [Link.hiccup, hst]
    exact ⟨rfl, Or.inl ⟨rfl, by simp [Zmq.reports]⟩⟩
  | readLastDelimiter =>
    exact ⟨rfl, Or.inl ⟨rfl, by simp [ackAndEnter, sendPipeTermAck, setInQueue, Zmq.reports]⟩⟩
  | terminateNow =>
    exact ⟨rfl, Or.inl ⟨rfl, by simp [ackAndEnter, sendPipeTermAck, markTerminate, Zmq.reports]⟩⟩
  | pipeTermAck | pipeTermCross => exact ⟨rfl, Or.inl ⟨rfl, by simp [ackAndEnter, sendPipeTermAck, Zmq.reports]⟩⟩
  | ackAnswer => exact ⟨rfl, Or.inl ⟨rfl, by simp [sendPipeTermAck, release, Zmq.reports]⟩⟩
  | _ => exact ⟨rfl, Or.inl ⟨rfl, rfl⟩⟩

lemma Move.msgsWritten_le (hmove : s.Move a t e) : s.near.pipe.msgsWritten ≤ t.near.pipe.msgsWritten := by
  cases hmove with
  | readFrame credential creds m ms hcan hfl hcreds hm => rw [countRead_near]; exact le_refl _
  | writeFrame i flags body hout hst hfull hi => rw [countWrite_eq]; exact le_add_right _ _
  | flush i hi => split <;> exact le_refl _
  | terminate delay i hi hst | terminateWaiting i hi hst => rw [closeOut_near]; exact le_refl _
  | hiccup hst => simp [Link.hiccup, hst]
  | _ => exact le_refl _

lemma Move.pending_writer_le (h : ShutdownInv s) (halive : s.near.frees = 0) (hfar : s.far.frees = 0)
    (hmove : s.Move a t e) :
    s.near.pipe.msgsWritten + pending (t.upipes s.far.pipe.inpipe).queue ≤
      t.near.pipe.msgsWritten + pending (s.upipes s.far.pipe.inpipe).queue := by
  by_cases hgood : s.Miscounts a
  swap
  · exact (hmove.pending_writer h halive hfar hgood).ge
  cases a with
  | write flags body =>
    cases hmove with
    | readEmpty _ ha | readDelimiter _ _ _ _ ha | readLastDelimiter _ _ _ _ ha => simp at ha
    | fill ha hout hst hfull => exact le_refl _
    | writeFrame i flags body hout hst hfull hi =>
      have hle : countable ⟨.data, flags, body⟩ ≤ counted ⟨.data, flags, body⟩ := by
        unfold countable
        split <;> omega
      rw [countWrite_eq]
      simp only [modifyPipe_upipes, modifyPipe_near, store_near]
      by_cases hi' : s.far.pipe.inpipe = i
      · rw [hi', store_queue_self, pending_write]
        omega
      · rw [store_queue_of_ne s hi']
        omega
  | hiccup =>
    cases hmove with
    | readEmpty _ ha | readDelimiter _ _ _ _ ha | readLastDelimiter _ _ _ _ ha | fill ha => simp at ha
    | hiccup hst =>
      have hlt := h.inpipe_lt_fresh hfar
      simp only [Link.hiccup, hst, ne_eq, not_true_eq_false, ↓reduceIte, send_upipes, modifyPipe_upipes]
      rw [Function.update_of_ne hlt.ne]
      exact le_refl _
  | _ => exact hgood.elim

lemma Move.pending_reader_le (h : ShutdownInv s) (halive : s.near.frees = 0) (hmove : s.Move a t e)
    (ht : t.near.frees = 0) :
    t.near.pipe.msgsRead + pending t.inQueue ≤ s.near.pipe.msgsRead + pending s.inQueue := by
  by_cases hgood : s.Miscounts a
  swap
  · exact (hmove.pending_reader h halive hgood ht).le
  cases a with
  | write flags body =>
    cases hmove with
    | readEmpty _ ha | readDelimiter _ _ _ _ ha | readLastDelimiter _ _ _ _ ha => simp at ha
    | fill ha hout hst hfull => exact le_refl _
    | writeFrame i flags body hout hst hfull hi =>
      rw [countWrite_eq]
      simp only [inQueue, modifyPipe_upipes, modifyPipe_near, store_near]
      rw [store_queue_of_ne s (h.ne_inpipe halive hi)]
  | hiccup =>
    cases hmove with
    | readEmpty _ ha | readDelimiter _ _ _ _ ha | readLastDelimiter _ _ _ _ ha | fill ha => simp at ha
    | hiccup hst => simp [inQueue, Link.hiccup, hst]
  | _ => exact hgood.elim

lemma Move.msgsRead_of_dead (halive : s.near.frees = 0) (hmove : s.Move a t e) (ht : t.near.frees ≠ 0) :
    t.near.pipe.msgsRead = s.near.pipe.msgsRead := by
  obtain ⟨-, ⟨hsame, -⟩ | ⟨-, -, -⟩⟩ := hmove.reader_window
  · exact hsame
  cases hmove with
  | readFrame credential creds m ms hcan hfl hcreds hm =>
    rw [countRead_near] at ht
    exact absurd halive ht
  | writeFrame i flags body hout hst hfull hi => rw [countWrite_eq]; rfl
  | flush i hi => split <;> rfl
  | terminate delay i hi hst | terminateWaiting i hi hst => rw [closeOut_near]; rfl
  | hiccup hst => simp [Link.hiccup, hst]
  | _ => rfl

end Link

namespace Accounted

variable {s t : Link} {a : EndAct} {e : Option SinkEvent}

open Link

lemma computeLwm_toNat_pos {hwm : ℤ} (h : 0 < hwm) : 0 < (computeLwm hwm).toNat := by
  have := (FlowInv.computeLwm_bounds h).1
  omega

lemma pipepair (hwm0 hwm1 : ℤ) : Accounted (Link.pipepair hwm0 hwm1) where
  ahead := .pipepair hwm0 hwm1
  read_le := le_rfl
  pending_le _ := le_rfl
  lwm_eq := rfl
  window hpos := Window.zero (computeLwm_toNat_pos hpos)

lemma pipepair_swap (hwm0 hwm1 : ℤ) : Accounted (Link.pipepair hwm0 hwm1).swap where
  ahead := ⟨Reports.zero, (Ahead.pipepair hwm1 hwm0).credit⟩
  read_le := le_rfl
  pending_le _ := le_rfl
  lwm_eq := rfl
  window hpos := Window.zero (computeLwm_toNat_pos hpos)

lemma near (h : Accounted s) (hs : ShutdownInv s) (halive : s.near.frees = 0) (hmove : s.Move a t e) :
    Accounted t := by
  obtain ⟨hhwm, hrep, hwritten⟩ := hmove.writer_counters
  obtain ⟨cs, hfar⟩ := hmove.far_eq
  have hpipe : t.far.pipe = s.far.pipe := by rw [hfar]
  refine ⟨h.ahead.near hmove, ?_, fun ht => ?_, by rw [hpipe, hhwm]; exact h.lwm_eq, fun hpos => ?_⟩
  · have hgrow : s.near.pipe.msgsWritten ≤ t.near.pipe.msgsWritten := hmove.msgsWritten_le
    rw [hpipe]
    exact h.read_le.trans hgrow
  · have hs' : s.far.frees = 0 := by rwa [hfar] at ht
    have hwrite := hmove.pending_writer_le hs halive hs'
    have hbalance : s.far.pipe.msgsRead + pending (s.upipes s.far.pipe.inpipe).queue ≤
      s.near.pipe.msgsWritten := h.pending_le hs'
    have hqueue : t.swap.inQueue = (t.upipes s.far.pipe.inpipe).queue := by
      simp only [inQueue, swap_near, swap_upipes, hfar]
    rw [hqueue, hpipe]
    omega
  · rw [hhwm] at hpos
    have hwindow := h.window hpos
    rw [hpipe]
    rcases hrep with ⟨hpeers, heq⟩ | heq
    · rw [hpeers, heq]
      exact hwindow
    · rw [heq] at hwindow
      exact hwindow.receive

lemma far (h : Accounted s) (hs : ShutdownInv s) (halive : s.far.frees = 0)
    (hmove : s.swap.Move a t e) : Accounted t.swap := by
  obtain ⟨hlwm, hread⟩ := hmove.reader_window
  obtain ⟨cs, hfar⟩ := hmove.far_eq
  have hbalance : s.far.pipe.msgsRead + pending s.swap.inQueue ≤ s.near.pipe.msgsWritten := h.pending_le halive
  have htake : t.near.frees = 0 → t.near.pipe.msgsRead + pending t.inQueue ≤
      s.far.pipe.msgsRead + pending s.swap.inQueue := hmove.pending_reader_le hs.swap halive
  have hpipe : t.far.pipe = s.near.pipe := by
    rw [hfar]
    rfl
  have hlwm' : t.near.pipe.lwm = s.far.pipe.lwm := hlwm
  refine ⟨h.ahead.far hmove, ?_, fun ht => ?_, ?_, fun hpos => ?_⟩
  · rw [swap_far, swap_near, hpipe]
    by_cases ht : t.near.frees = 0
    · have := htake ht
      omega
    · rw [hmove.msgsRead_of_dead halive ht]
      exact h.read_le
  · have := htake ht
    rw [swap_far, swap_near, hpipe]
    exact this.trans hbalance
  · rw [swap_far, swap_near, hpipe, hlwm']
    exact h.lwm_eq
  · rw [swap_near, hpipe] at hpos
    have hwindow := h.window hpos
    have hlpos : 0 < s.far.pipe.lwm := by
      rw [h.lwm_eq]
      exact (FlowInv.computeLwm_bounds hpos).1
    rw [swap_far, swap_near, hpipe, hlwm']
    rcases hread with ⟨hsame, hreports⟩ | ⟨hle, hstep, ⟨hdvd, hreports⟩ | ⟨hdvd, hreports⟩⟩
    · rw [hsame, hreports]
      exact hwindow
    · rw [hreports]
      exact hwindow.report (by omega) hle hdvd
    · rw [hreports]
      exact hwindow.tick hle hstep fun hd => hdvd ⟨hlpos, hd⟩

lemma combineHwms (h : Accounted s) (hread : s.far.pipe.msgsRead = 0) (rcvhwm sndhwm : ℕ) :
    Accounted (s.combineHwms rcvhwm sndhwm) := by
  have hrep := h.ahead.reports
  have hle := combinedHwm_le s.near.pipe.hwm rcvhwm
  refine ⟨⟨hrep, fun hpos => ?_⟩, h.read_le, h.pending_le, rfl, fun hpos => ⟨hrep, fun n hn => ?_, ?_⟩⟩
  · have hpos' : 0 < combinedHwm s.near.pipe.hwm rcvhwm := hpos
    have hcredit := h.ahead.credit
    change (s.near.pipe.msgsWritten : ℤ) ≤ s.near.pipe.peersMsgsRead + combinedHwm s.near.pipe.hwm rcvhwm
    omega
  · -- Every report there can be says that nothing was read.
    have hzero : n = 0 := le_zero.1 (hread ▸ hrep.le_now n hn)
    rw [hzero]
    exact dvd_zero _
  · have hlwm : 0 < (computeLwm (combinedHwm s.near.pipe.hwm rcvhwm)).toNat := computeLwm_toNat_pos hpos
    refine ⟨_, List.mem_cons_self, ?_⟩
    change s.far.pipe.msgsRead < s.near.pipe.peersMsgsRead + (computeLwm (combinedHwm s.near.pipe.hwm rcvhwm)).toNat
    omega

end Accounted

/-! ### Runs -/

/-- Both directions of a pair. -/
structure PairInv (s : Link) : Prop where
  shutdown : ShutdownInv s
  near : Accounted s
  far : Accounted s.swap

namespace PairInv

variable {s : Link}

open Link

lemma pipepair (hwm0 hwm1 : ℤ) : PairInv (Link.pipepair hwm0 hwm1) :=
  ⟨.pipepair hwm0 hwm1, .pipepair hwm0 hwm1, .pipepair_swap hwm0 hwm1⟩

lemma swap (h : PairInv s) : PairInv s.swap := ⟨h.shutdown.swap, h.far, h.near⟩

lemma act (h : PairInv s) (a : EndAct) : ∃ t e, s.act a = .ok (t, e) ∧ PairInv t := by
  obtain ⟨t, e, hact, ⟨rfl, -⟩ | ⟨halive, hmove⟩⟩ := h.shutdown.exists_move a
  · exact ⟨t, e, hact, h⟩
  · exact ⟨t, e, hact, h.shutdown.move halive hmove, h.near.near h.shutdown halive hmove,
      h.far.far h.shutdown.swap halive hmove⟩

lemma combineHwms (h : PairInv s) {rcvhwm sndhwm : ℕ} (hread : s.Unread (.combineHwms rcvhwm sndhwm)) :
    PairInv (s.combineHwms rcvhwm sndhwm) := by
  refine ⟨?_, h.near.combineHwms hread.2 rcvhwm sndhwm, h.far.combineHwms hread.1 sndhwm rcvhwm⟩
  exact ((h.shutdown.modifyData rfl rfl rfl rfl).swap.modifyData rfl rfl rfl rfl).swap

lemma step (h : PairInv s) {a : PairAct} (hread : s.Unread a) : ∃ t, s.pairStep a = .ok t ∧ PairInv t := by
  cases a with
  | combineHwms rcvhwm sndhwm => exact ⟨_, rfl, h.combineHwms hread⟩
  | act side a =>
    cases side with
    | near =>
      obtain ⟨t, e, hact, ht⟩ := h.act a
      exact ⟨t, step_near_of_act hact, ht⟩
    | far =>
      obtain ⟨t, e, hact, ht⟩ := h.swap.act a
      exact ⟨t.swap, step_far_of_act hact, ht.swap⟩

lemma run (hwm0 hwm1 : ℤ) {acts : List PairAct}
    (hread : StepsMeet pairStep Unread (Link.pipepair hwm0 hwm1) acts) :
    ∃ s, runSteps pairStep (Link.pipepair hwm0 hwm1) acts = .ok s ∧ PairInv s :=
  runSteps_invariant (fun _ _ h hgood => h.step hgood) (.pipepair hwm0 hwm1) hread

end PairInv

/-! ### Ends that have been stopped -/

/-- An active end that has been stopped is full. -/
def Stopped (s : Link) : Prop :=
  s.near.pipe.state = .active → s.near.pipe.outActive = false → Link.full s.near.pipe = true

namespace Stopped

variable {s t : Link} {a : EndAct} {e : Option SinkEvent}

open Link

lemma pipepair (hwm0 hwm1 : ℤ) : Stopped (Link.pipepair hwm0 hwm1) := fun _ ho => (by cases ho)

lemma congr (h : Stopped s) (hpipe : t.near.pipe = s.near.pipe) : Stopped t := by
  unfold Stopped
  rw [hpipe]
  exact h

lemma move (h : Stopped s) (hmove : s.Move a t e) : Stopped t := by
  intro hst ho
  cases hmove with
  | readFrame credential creds m ms hcan hfl hcreds hm =>
    rw [countRead_near] at hst ho ⊢
    exact h hst ho
  | fill ha hout hactive hfull => exact hfull
  | writeFrame i flags body hout hactive hfull hi =>
    rw [countWrite_eq] at ho
    exact absurd (hout.symm.trans ho) (by decide)
  | flush i hi =>
    have hnear : (if (s.upipes i).queue.flush.1 then s.store i (s.upipes i).queue.flush.2
        else (s.store i (s.upipes i).queue.flush.2).send .activateRead).near = s.near := by
      split <;> rfl
    rw [hnear] at hst ho ⊢
    exact h hst ho
  | terminate delay i hi hactive =>
    rw [closeOut_near] at hst
    cases hst
  | terminateWaiting i hi hwait =>
    rw [closeOut_near] at hst
    exact absurd (hwait.symm.trans hst) (by decide)
  | hiccup hactive =>
    simp only [Link.hiccup, hactive] at hst ho ⊢
    exact h hst ho
  | activateWrite cs n hin =>
    have ho' : (unblocks s.near.pipe || s.near.pipe.outActive) = false := ho
    have hst' : s.near.pipe.state = .active := hst
    simp [unblocks, hst'] at ho'
  | plug cs i j hin hi => cases ho
  | terminateNow hwait | pipeTermAck cs hin hor | pipeTermCross cs hin hcross
  | readDelimiter | readLastDelimiter | pipeTermWait => cases hst
  | _ => exact h hst ho

lemma act (h : Stopped s) (hs : ShutdownInv s) (hact : s.act a = .ok (t, e)) : Stopped t := by
  obtain ⟨t', e', hact', ⟨rfl, -⟩ | ⟨-, hmove⟩⟩ := hs.exists_move a
  all_goals
    obtain ⟨rfl, rfl⟩ := Prod.mk.inj (Except.ok.inj (hact'.symm.trans hact))
  · exact h
  · exact h.move hmove

end Stopped

end Zmq
