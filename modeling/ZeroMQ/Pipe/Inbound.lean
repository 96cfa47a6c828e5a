import ZeroMQ.Foundation.Framing
import ZeroMQ.Pipe.Outbound

/-!
# What the owner of an end can read

A socket reads messages from its end of a pipe frame by frame and never hiccups. The peer writes whole
messages; between two of them it may write a credential, which the reader never sees, and behind the
last one it writes delimiters.

`Inbound s published done pending cur` says that the peer has published whole messages and has written
the frames `pending` of the next one, and that the owner has read the messages `done` and the frames
`cur` of the message it is reading now.
-/

namespace Zmq

open Foundation List

/-! ### The items of an inbound pipe -/

/-- The frame is part of a message, and neither a credential nor a delimiter. -/
def Msg.isPayload (m : Msg) : Bool := !m.isCredential && !m.isDelimiter

/-- The frames of messages among the items of a pipe. -/
def payload (ms : List Msg) : List Msg := ms.filter Msg.isPayload

/-- The items end with the end of a message, and everything that is not part of a message stands
between two messages. The first item is in the middle of a message if `mid` is set. -/
def Aligned : Bool → List Msg → Prop
  | mid, [] => mid = false
  | mid, m :: ms => (m.isPayload = false → mid = false ∧ m.more = false) ∧ Aligned m.more ms

lemma payload_append (ms ms' : List Msg) : payload (ms ++ ms') = payload ms ++ payload ms' :=
  filter_append _ _

lemma payload_cons_of_pos {m : Msg} (h : m.isPayload = true) (ms : List Msg) :
    payload (m :: ms) = m :: payload ms :=
  filter_cons_of_pos h

lemma payload_of_forall {ms : List Msg} (h : ∀ m ∈ ms, m.isPayload = true) : payload ms = ms :=
  filter_eq_self.mpr h

lemma payload_eq_nil {ms : List Msg} (h : ∀ m ∈ ms, m.isPayload = false) : payload ms = [] := by
  refine filter_eq_nil_iff.mpr fun m hm => ?_
  simp [h m hm]

namespace Aligned

variable {mid : Bool} {ms ms' : List Msg} {m : Msg}

lemma append (h : Aligned mid ms) (h' : Aligned false ms') : Aligned mid (ms ++ ms') := by
  induction ms generalizing mid with
  | nil =>
    obtain rfl : mid = false := h
    exact h'
  | cons m ms ih => exact ⟨h.1, ih h.2⟩

lemma message (hms : ∀ f ∈ ms, f.isPayload = true ∧ f.more = true) (hm : m.isPayload = true)
    (hlast : m.more = false) : Aligned mid (ms ++ [m]) := by
  induction ms generalizing mid with
  | nil => exact ⟨fun hcon => by simp [hm] at hcon, hlast⟩
  | cons f ms ih =>
    obtain ⟨hf, hmore⟩ := hms f mem_cons_self
    refine ⟨fun hcon => by simp [hf] at hcon, ?_⟩
    rw [hmore]
    exact ih fun x hx => hms x (mem_cons_of_mem _ hx)

lemma single (hlast : m.more = false) : Aligned false [m] :=
  ⟨fun _ => ⟨rfl, hlast⟩, hlast⟩

lemma skip {skipped : List Msg} (h : Aligned mid (skipped ++ ms))
    (hskip : ∀ m ∈ skipped, m.isPayload = false) :
    Aligned mid ms ∧ (mid = true → skipped = []) := by
  induction skipped generalizing mid with
  | nil => exact ⟨h, fun _ => rfl⟩
  | cons m skipped ih =>
    obtain ⟨rfl, hmore⟩ := h.1 (hskip m mem_cons_self)
    have h' := h.2
    rw [hmore] at h'
    exact ⟨(ih h' fun x hx => hskip x (mem_cons_of_mem _ hx)).1, fun hcon => by simp at hcon⟩

end Aligned

/-! ### Frames -/

/-- The acts of an owner that leave the inbound flow to somebody else. -/
def EndAct.KeepsInput : EndAct → Prop
  | .terminate _ | .setNodelay | .checkWrite | .write _ _ | .rollback | .flush | .deliver => True
  | .checkRead | .read | .hiccup => False

namespace Link

variable {s t : Link} {a : EndAct} {e : Option SinkEvent}

/-- The state allows reading. -/
def reading (p : Pipe) : Bool := p.state = .active || p.state = .waitingForDelimiter

lemma wakes_of_inActive {p : Pipe} (h : p.inActive = true) : wakes p = false := by
  simp [wakes, h]

/-- What such an act does to the inbound side of the near end. -/
structure InFrame (s t : Link) (e : Option SinkEvent) : Prop where
  inpipe : t.near.pipe.inpipe = s.near.pipe.inpipe
  queue : t.near.frees = 0 → t.inQueue = s.inQueue
  reading : reading t.near.pipe = true → reading s.near.pipe = true
  inActive : s.near.pipe.inActive = true → t.near.pipe.inActive = true
  gone : t.near.frees ≠ 0 ↔ e = some .pipeTerminated
  woken : e = some .readActivated → wakes s.near.pipe = true ∧ wakes t.near.pipe = false

lemma InFrame.of_eq (halive : s.near.frees = 0) (hfrees : t.near.frees = s.near.frees)
    (hin : t.near.pipe.inpipe = s.near.pipe.inpipe)
    (hq : (t.upipes s.near.pipe.inpipe).queue = (s.upipes s.near.pipe.inpipe).queue)
    (hread : Link.reading t.near.pipe = true → Link.reading s.near.pipe = true)
    (hact : t.near.pipe.inActive = s.near.pipe.inActive)
    (he : e ≠ some .pipeTerminated ∧ e ≠ some .readActivated) : InFrame s t e where
  inpipe := hin
  queue _ := by rw [inQueue, hin, hq]; rfl
  reading := hread
  inActive h := hact.trans h
  gone := by simp [hfrees, halive, he.1]
  woken h := absurd h he.2

lemma InFrame.keeps (h : InFrame s t e) (hs : wakes s.near.pipe = false) :
    wakes t.near.pipe = false := by
  by_contra ht
  simp only [wakes, Bool.not_eq_false, Bool.and_eq_true, Bool.not_eq_true'] at hs ht
  have hin : s.near.pipe.inActive = false := by
    by_contra hcon
    rw [h.inActive (by simpa using hcon)] at ht
    exact absurd ht.1 (by decide)
  have hread := h.reading ht.2
  simp only [Link.reading] at hread
  rw [hin, hread] at hs
  exact absurd hs (by decide)

lemma Move.inFrame (h : ShutdownInv s) (halive : s.near.frees = 0) (ha : a.KeepsInput)
    (hmove : s.Move a t e) : InFrame s t e := by
  have hstore : ∀ {i} (u : Upipe Msg), s.near.pipe.outpipe = some i →
      (s.store i u).upipes s.near.pipe.inpipe = s.upipes s.near.pipe.inpipe := fun u hi =>
    store_queue_of_ne s (h.ne_inpipe halive hi) u
  cases hmove with
  | readEmpty credential ha' hcan hfl => rcases ha' with rfl | rfl <;> exact ha.elim
  | readDelimiter credential creds m ms ha' hcan hfl hcreds hm hst
  | readLastDelimiter credential creds m ms ha' hcan hfl hcreds hm hst =>
    rcases ha' with rfl | rfl <;> exact ha.elim
  | readFrame credential creds m ms hcan hfl hcreds hm | hiccup hst => exact ha.elim
  | fill ha' hout hst hfull | terminateAgain delay hst | setNodelay => exact .of_eq halive rfl rfl rfl id rfl (by simp)
  | writeFrame i flags body hout hst hfull hi =>
    rw [countWrite_eq]
    refine .of_eq halive rfl rfl ?_ id rfl (by simp)
    rw [modifyPipe_upipes, hstore _ hi]
  | rollback i hi => exact .of_eq halive rfl rfl (by rw [hstore _ hi]) id rfl (by simp)
  | flush i hi =>
    split
    · exact .of_eq halive rfl rfl (by rw [hstore _ hi]) id rfl (by simp)
    · exact .of_eq halive rfl rfl (by rw [send_upipes, hstore _ hi]) id rfl (by simp)
  | terminate delay i hi hst =>
    refine .of_eq halive (by rw [closeOut_near]; rfl) (by rw [closeOut_near]; rfl) ?_ ?_
      (by rw [closeOut_near]; rfl) (by simp)
    · rw [closeOut_queue, store_queue_of_ne _ (h.ne_inpipe halive hi)]
      rfl
    · rw [closeOut_near]
      simp [Link.reading]
  | terminateWaiting i hi hst =>
    refine .of_eq halive (by rw [closeOut_near]; rfl) (by rw [closeOut_near]; rfl) ?_
      (by rw [closeOut_near]; exact id) (by rw [closeOut_near]; rfl) (by simp)
    rw [closeOut_queue, store_queue_of_ne _ (h.ne_inpipe halive hi)]
    rfl
  | terminateNow hst | pipeTermAck cs hin hst | pipeTermCross cs hin hst =>
    exact .of_eq halive rfl rfl rfl (by simp [Link.reading, ackAndEnter, sendPipeTermAck]) rfl
      (by simp)
  | activateRead cs hin =>
    refine ⟨rfl, fun _ => rfl, id, fun hact => ?_, ?_, fun he => ?_⟩
    · simp [hact]
    · split <;> simp [halive]
    · split at he
      next hw => exact ⟨hw, wakes_of_inActive (by simp [hw])⟩
      next => simp at he
  | activateWrite cs n hin =>
    refine .of_eq halive rfl rfl rfl id rfl ?_
    split <;> simp
  | plug cs i j hin hi =>
    refine .of_eq halive rfl rfl ?_ id rfl (by split <;> simp)
    rw [modifyPipe_upipes, free_queue, store_queue_of_ne _ (h.ne_inpipe halive hi)]
    rfl
  | pipeTermWait cs hin hst hdelay =>
    exact .of_eq halive rfl rfl rfl (fun _ => by simp [Link.reading, hst]) rfl (by simp)
  | ackAnswer cs hin hst =>
    refine ⟨rfl, fun hcon => absurd hcon (Nat.succ_ne_zero _), fun hr => ?_, id, ?_, by simp⟩
    · simp [Link.reading, release, sendPipeTermAck, hst] at hr
    · simp [release]
  | ackLast cs hin hst =>
    refine ⟨rfl, fun hcon => absurd hcon (Nat.succ_ne_zero _), fun hr => ?_, id, ?_, by simp⟩
    · rcases hst with hst | hst <;> simp [Link.reading, release, hst] at hr
    · simp [release]

lemma Move.queue_cases (hmove : s.Move a t e) {i : ℕ} (hne : i ≠ s.near.pipe.inpipe)
    (hold : i ≠ s.fresh) (hno : ∀ p, Command.hiccup p ∉ s.near.inbox)
    (hout : ∀ j, s.near.pipe.outpipe = some j → i = j) :
    ((t.upipes i).queue = (s.upipes i).queue ∧
      (∀ flags body, a = .write flags body → ¬Outbound.Writable s.near.pipe) ∧ a ≠ .rollback ∧
      ∀ delay, a = .terminate delay → t.near.pipe.state ≠ .active) ∨
    (∃ flags body, a = .write flags body ∧ Outbound.Writable s.near.pipe ∧
      (t.upipes i).queue = (s.upipes i).queue.write ⟨.data, flags, body⟩ flags.more) ∨
    (a = .rollback ∧ (t.upipes i).queue = { (s.upipes i).queue with incomplete := [] }) ∨
    (a = .flush ∧ (t.upipes i).queue = (s.upipes i).queue.flush.2) ∨
    ((∃ delay, a = .terminate delay) ∧ t.near.pipe.state ≠ .active ∧
      (t.upipes i).queue = closeOutbound (s.upipes i).queue) := by
  have hread : ∀ {b : EndAct}, b = .checkRead ∨ b = .read →
      (∀ flags body, b = .write flags body → ¬Outbound.Writable s.near.pipe) ∧ b ≠ .rollback ∧
      ∀ (u : Link) delay, b = .terminate delay → u.near.pipe.state ≠ .active := by
    rintro b (rfl | rfl) <;> simp
  cases hmove with
  | readEmpty credential ha hcan hfl | readDelimiter credential creds m ms ha hcan hfl hcreds hm hst
  | readLastDelimiter credential creds m ms ha hcan hfl hcreds hm hst =>
    exact .inl ⟨congrArg UpipeCell.queue (setInQueue_upipes hne credential _), (hread ha).1,
      (hread ha).2.1, (hread ha).2.2 _⟩
  | readFrame credential creds m ms hcan hfl hcreds hm =>
    rw [countRead_upipes, setInQueue_upipes hne]
    exact .inl (by simp)
  | fill ha ho hst hfull =>
    refine .inl ⟨rfl, fun flags body _ hw => ?_, ?_, ?_⟩
    · rw [hw.2.2] at hfull
      exact absurd hfull (by decide)
    · rcases ha with rfl | ⟨flags, body, rfl⟩ <;> simp
    · rcases ha with rfl | ⟨flags, body, rfl⟩ <;> simp
  | writeFrame j flags body ho hst hfull hj =>
    obtain rfl := hout j hj
    rw [countWrite_eq, modifyPipe_upipes]
    exact .inr (.inl ⟨flags, body, rfl, ⟨ho, hst, hfull⟩, store_queue_self s i _⟩)
  | rollback j hj =>
    obtain rfl := hout j hj
    exact .inr (.inr (.inl ⟨rfl, store_queue_self s i _⟩))
  | flush j hj =>
    obtain rfl := hout j hj
    refine .inr (.inr (.inr (.inl ⟨rfl, ?_⟩)))
    split
    · exact store_queue_self s i _
    · exact store_queue_self s i _
  | terminateAgain delay hst =>
    refine .inl ⟨rfl, by simp, by simp, fun _ _ => ?_⟩
    rcases hst with hst | hst | hst <;> simp [markTerminate, hst]
  | terminate delay j hj hst =>
    obtain rfl := hout j hj
    rw [closeOut_queue, closeOut_near]
    exact .inr (.inr (.inr (.inr ⟨⟨delay, rfl⟩, by simp, store_queue_self _ i _⟩)))
  | terminateWaiting j hj hst =>
    obtain rfl := hout j hj
    rw [closeOut_queue, closeOut_near]
    exact .inr (.inr (.inr (.inr ⟨⟨true, rfl⟩, by simp [markTerminate, hst],
      store_queue_self _ i _⟩)))
  | terminateNow hst =>
    exact .inl ⟨rfl, by simp, by simp, by simp [ackAndEnter, sendPipeTermAck]⟩
  | hiccup hst =>
    refine .inl ⟨?_, by simp⟩
    simp only [Link.hiccup, hst, ne_eq, not_true_eq_false, ↓reduceIte, send_upipes,
      modifyPipe_upipes]
    rw [Function.update_of_ne hold]
  | plug cs j k hin hj =>
    refine absurd ?_ (hno (some k))
    rw [hin]
    exact mem_cons_self
  | ackAnswer cs hin hst | ackLast cs hin hst =>
    refine .inl ⟨?_, by simp⟩
    change (((Link.store _ s.near.pipe.inpipe _).free s.near.pipe.inpipe).upipes i).queue = _
    rw [free_queue, store_queue_of_ne _ hne]
    rfl
  | _ => exact .inl ⟨rfl, by simp⟩

lemma Move.active (hmove : s.Move a t e) (ht : t.near.pipe.state = .active) :
    s.near.pipe.state = .active := by
  cases hmove with
  | readDelimiter | pipeTermWait => simp at ht
  | readLastDelimiter | terminateNow | pipeTermAck | pipeTermCross => simp [ackAndEnter, sendPipeTermAck] at ht
  | readFrame credential creds m ms hcan hfl hcreds hm =>
    rw [countRead_near] at ht
    exact ht
  | writeFrame i flags body ho hst hfull hi | hiccup hst => exact hst
  | flush i hi => split at ht <;> exact ht
  | terminate delay i hi hst =>
    rw [closeOut_near] at ht
    simp at ht
  | terminateWaiting i hi hst =>
    rw [closeOut_near] at ht
    exact ht
  | _ => exact ht

lemma act_of_active (h : ShutdownInv s) (halive : s.near.frees = 0)
    (hst : s.near.pipe.state = .active)
    (ha : (∃ flags body, a = .write flags body ∧ Outbound.Writable s.near.pipe) ∨ a = .rollback ∨
      ∃ delay, a = .terminate delay) :
    ∃ t, s.act a = .ok (t, none) ∧ s.Move a t none := by
  obtain ⟨i, hi, hlive⟩ := h.exists_live_outpipe halive (by rw [hst]; rfl)
  rcases ha with ⟨flags, body, rfl, hw⟩ | rfl | ⟨delay, rfl⟩
  · refine ⟨_, ?_, .writeFrame i flags body hw.1 hw.2.1 hw.2.2 hi⟩
    rw [act, Link.call, if_pos halive, write_of_checkWrite _ (Outbound.checkWrite_of_writable hw) hi
      hlive]
    rfl
  · refine ⟨_, ?_, .rollback i hi⟩
    rw [act, Link.call, if_pos halive, rollback_of_live hi hlive (h.more i)]
    rfl
  · obtain ⟨t, hterm, hmove, -⟩ := terminate_of_active h halive hst delay
    refine ⟨t, ?_, hmove⟩
    rw [act, Link.call, if_pos halive, hterm]
    rfl

end Link

/-! ### The messages of the peer -/

/-- The contents of an inbound pipe: the messages `done` and the frames `cur` of the next one were
read. As long as somebody is `writing`, the frames `pending` wait to be completed. -/
structure Inflow (u : Upipe Msg) (published done : List (List Msg)) (pending cur : List Msg)
    (writing : Prop) : Prop where
  feeds : Feeds Msg.more published done cur (payload u.readable)
  flushed : Aligned (!cur.isEmpty) u.flushed
  complete : Aligned false u.complete
  pending : writing → u.incomplete = pending ∧ ∀ f ∈ pending, f.isPayload = true ∧ f.more = true

namespace Inflow

variable {u : Upipe Msg} {published done : List (List Msg)} {pending cur : List Msg}
  {writing writing' : Prop} {m : Msg}

lemma empty : Inflow Upipe.empty [] [] [] [] writing :=
  ⟨Feeds.nil, rfl, rfl, fun _ => ⟨rfl, by simp⟩⟩

section

variable (h : Inflow u published done pending cur writing)

include h

lemma mono (hw : writing' → writing) :
    Inflow u published done pending cur writing' :=
  ⟨h.feeds, h.flushed, h.complete, fun w => h.pending (hw w)⟩

lemma closed (hno : ¬writing')
    (pending' : List Msg) : Inflow u published done pending' cur writing' :=
  ⟨h.feeds, h.flushed, h.complete, fun w => absurd w hno⟩

lemma write_more (hm : m.more = true)
    (hpay : m.isPayload = true) :
    Inflow (u.write m m.more) published done (pending ++ [m]) cur writing := by
  have hread : (u.write m m.more).readable = u.readable := by rw [Upipe.write_readable, hm]; rfl
  refine ⟨by rw [hread]; exact h.feeds, ?_, ?_, fun w => ?_⟩
  · simp only [Upipe.write, hm, if_true]
    exact h.flushed
  · simp only [Upipe.write, hm, if_true]
    exact h.complete
  · obtain ⟨hinc, hall⟩ := h.pending w
    refine ⟨by rw [Upipe.write_incomplete, hm, hinc]; rfl, fun f hf => ?_⟩
    rcases mem_append.mp hf with hf | hf
    · exact hall f hf
    · rw [mem_singleton.mp hf]
      exact ⟨hpay, hm⟩

lemma write_last (w : writing)
    (hm : m.more = false) (hpay : m.isPayload = true) :
    Inflow (u.write m m.more) (published ++ [pending ++ [m]]) done [] cur writing := by
  obtain ⟨hinc, hall⟩ := h.pending w
  have hwhole : Whole Msg.more (pending ++ [m]) := ⟨pending, m, rfl, fun f hf => (hall f hf).2, hm⟩
  have hpays : payload (pending ++ [m]) = pending ++ [m] := by
    refine payload_of_forall fun f hf => ?_
    rcases mem_append.mp hf with hf | hf
    · exact (hall f hf).1
    · rw [mem_singleton.mp hf]
      exact hpay
  have hread : (u.write m m.more).readable = u.readable ++ (pending ++ [m]) := by
    rw [Upipe.write_readable, hm, hinc]
    simp
  refine ⟨?_, ?_, ?_, fun _ => ⟨by rw [Upipe.write_incomplete, hm]; rfl, by simp⟩⟩
  · rw [hread, payload_append, hpays]
    exact h.feeds.publish hwhole
  · simp only [Upipe.write, hm]
    exact h.flushed
  · simp only [Upipe.write, hm]
    rw [hinc, if_neg (by simp), append_assoc]
    exact h.complete.append (Aligned.message hall hpay hm)

end

lemma write_credential (h : Inflow u published done [] cur writing) (w : writing)
    (hm : m.more = false) (hpay : m.isPayload = false) :
    Inflow (u.write m m.more) published done [] cur writing := by
  obtain ⟨hinc, -⟩ := h.pending w
  have hread : (u.write m m.more).readable = u.readable ++ [m] := by
    rw [Upipe.write_readable, hm, hinc]
    simp
  refine ⟨?_, ?_, ?_, fun _ => ⟨by rw [Upipe.write_incomplete, hm]; rfl, by simp⟩⟩
  · rw [hread, payload_append, payload_eq_nil (by simpa using hpay : ∀ x ∈ [m], x.isPayload = false),
      append_nil]
    exact h.feeds
  · simp only [Upipe.write, hm]
    exact h.flushed
  · simp only [Upipe.write, hm]
    rw [hinc, if_neg (by simp), append_nil]
    exact h.complete.append (Aligned.single hm)

section

variable (h : Inflow u published done pending cur writing)

include h

lemma rollback :
    Inflow { u with incomplete := [] } published done [] cur writing :=
  ⟨h.feeds, h.flushed, h.complete, fun _ => ⟨rfl, by simp⟩⟩

lemma flush :
    Inflow u.flush.2 published done pending cur writing := by
  refine ⟨by rw [Upipe.flush_readable]; exact h.feeds, ?_, ?_, fun w => ?_⟩
  · unfold Upipe.flush
    split
    · exact h.flushed
    · exact h.flushed.append h.complete
  · rw [Upipe.flush_complete]
    rfl
  · rw [Upipe.flush_incomplete]
    exact h.pending w

lemma close (hno : ¬writing')
    (pending' : List Msg) : Inflow (Link.closeOutbound u) published done pending' cur writing' := by
  have hdelim : Msg.initDelimiter.isPayload = false := rfl
  refine ⟨?_, ?_, rfl, fun w => absurd w hno⟩
  · rw [Link.closeOutbound_readable, payload_append,
      payload_eq_nil (by simpa using hdelim : ∀ x ∈ [Msg.initDelimiter], x.isPayload = false),
      append_nil]
    exact h.feeds
  · exact (h.flushed.append h.complete).append (Aligned.single rfl)

/-- Items that are not part of a message are taken from the front. In the middle of a message there
are none. -/
lemma skip {skipped ms : List Msg}
    (hfl : u.flushed = skipped ++ ms) (hskip : ∀ m ∈ skipped, m.isPayload = false) (b : Bool) :
    Inflow { u with flushed := ms, asleep := b } published done pending cur writing ∧
      (cur ≠ [] → skipped = []) := by
  have halign := h.flushed
  rw [hfl] at halign
  obtain ⟨hms, hnil⟩ := halign.skip hskip
  refine ⟨⟨?_, hms, h.complete, h.pending⟩, fun hne => hnil ?_⟩
  · have hread : payload u.readable = payload (ms ++ u.complete) := by
      rw [Upipe.readable, hfl, append_assoc, payload_append, payload_eq_nil hskip]
      rfl
    have hfeeds := h.feeds
    rw [hread] at hfeeds
    exact hfeeds
  · cases cur with
    | nil => exact absurd rfl hne
    | cons f fs => rfl

lemma take {ms : List Msg}
    (hfl : u.flushed = m :: ms) (hm : m.isPayload = true) :
    Inflow { u with flushed := ms } published (if m.more then done else done ++ [cur ++ [m]]) pending
      (if m.more then cur ++ [m] else []) writing := by
  have halign := h.flushed
  rw [hfl] at halign
  have hfeeds := h.feeds
  rw [Upipe.readable, hfl, cons_append, payload_cons_of_pos hm] at hfeeds
  cases hmore : m.more with
  | true =>
    have hrest := halign.2
    rw [hmore] at hrest
    have hne : (cur ++ [m]).isEmpty = false := by cases cur <;> rfl
    refine ⟨hfeeds.take_more hmore, ?_, h.complete, h.pending⟩
    rw [if_pos rfl, hne]
    exact hrest
  | false =>
    have hrest := halign.2
    rw [hmore] at hrest
    exact ⟨hfeeds.take_last hmore, hrest, h.complete, h.pending⟩

end

end Inflow

/-- The peer has published messages, and the near end has read the first of them. -/
structure Inbound (s : Link) (published done : List (List Msg)) (pending cur : List Msg) : Prop where
  shutdown : ShutdownInv s
  hiccup_notMem : ∀ p, Command.hiccup p ∉ s.far.inbox
  taken : done <+: published
  flow : s.near.frees = 0 → Inflow s.inQueue published done pending cur
    (s.far.frees = 0 ∧ s.far.pipe.state = .active)

/-- The messages the peer has published and the frames of the next one after an act of the peer: a
frame counts if it is accepted, and an unfinished message is taken back by `rollback` and
`terminate`. -/
def Link.publish (s : Link) (a : EndAct) (published : List (List Msg)) (pending : List Msg) :
    List (List Msg) × List Msg :=
  match a with
  | .write flags body =>
    if s.far.frees = 0 ∧ s.swap.checkWrite.1 ∧ flags.credential = false then
      if flags.more then (published, pending ++ [⟨.data, flags, body⟩])
      else (published ++ [pending ++ [⟨.data, flags, body⟩]], [])
    else (published, pending)
  | .rollback | .terminate _ => (published, [])
  | _ => (published, pending)

/-- The peer writes a credential only between two messages. -/
def EndAct.CredentialBetween (a : EndAct) (pending : List Msg) : Prop :=
  match a with
  | .write flags _ => flags.credential = true → flags.more = false ∧ pending = []
  | _ => True

instance (a : EndAct) (pending : List Msg) : Decidable (a.CredentialBetween pending) :=
  match a with
  | .write _ _ => inferInstanceAs (Decidable (_ → _ ∧ _))
  | .terminate _ | .setNodelay | .checkRead | .read | .checkWrite | .rollback | .flush | .hiccup
  | .deliver => inferInstanceAs (Decidable True)

namespace Inbound

variable {s t : Link} {a : EndAct} {e : Option SinkEvent} {published done : List (List Msg)}
  {pending cur : List Msg}

open Link

lemma pipepair (hwm0 hwm1 : ℤ) : Inbound (Link.pipepair hwm0 hwm1) [] [] [] [] where
  shutdown := ShutdownInv.pipepair hwm0 hwm1
  hiccup_notMem := by simp [Link.pipepair, newEndpoint]
  taken := nil_prefix
  flow _ := Inflow.empty

lemma forget {old : List (List Msg)} (h : Inbound s (old ++ published) (old ++ done) pending cur) :
    Inbound s published done pending cur where
  shutdown := h.shutdown
  hiccup_notMem := h.hiccup_notMem
  taken := (prefix_append_right_inj old).mp h.taken
  flow halive :=
    let hflow := h.flow halive
    ⟨hflow.feeds.forget, hflow.flushed, hflow.complete, hflow.pending⟩

lemma keep (h : Inbound s published done pending cur) (halive : s.near.frees = 0)
    (ha : a.KeepsInput) (hmove : s.Move a t e) : Inbound t published done pending cur where
  shutdown := h.shutdown.move halive hmove
  hiccup_notMem := by
    refine hmove.hiccup_notMem ?_ h.hiccup_notMem
    rintro rfl
    exact ha
  taken := h.taken
  flow ht := by
    obtain ⟨cs, hfar⟩ := hmove.far_eq
    rw [(hmove.inFrame h.shutdown halive ha).queue ht, hfar]
    exact h.flow halive

lemma far_outpipe (h : Inbound s published done pending cur) :
    ∀ j, s.swap.near.pipe.outpipe = some j → s.near.pipe.inpipe = j := fun _ hj =>
  (h.shutdown.swap.outpipe_eq_inpipe hj (hiccups_eq_nil h.hiccup_notMem)).symm

lemma prefix_publish (s : Link) (a : EndAct) (published : List (List Msg)) (pending : List Msg) :
    published <+: (s.publish a published pending).1 := by
  cases a with
  | write flags body =>
    simp only [Link.publish]
    split
    · split
      · exact prefix_rfl
      · exact prefix_append _ _
    · exact prefix_rfl
  | _ => exact prefix_rfl

lemma publish_write {writing : Prop} (h : Inflow s.inQueue published done pending cur writing)
    (w : writing) {flags : MsgFlags} {body : List UInt8}
    (hcred : (EndAct.write flags body).CredentialBetween pending) (hfar : s.far.frees = 0)
    (hw : Outbound.Writable s.far.pipe) :
    Inflow (s.inQueue.write ⟨.data, flags, body⟩ flags.more)
      (s.publish (.write flags body) published pending).1 done
      (s.publish (.write flags body) published pending).2 cur writing := by
  have hcheck : s.swap.checkWrite.1 = true := Outbound.checkWrite_iff.mpr hw
  have hpayload : (⟨.data, flags, body⟩ : Msg).isPayload = !flags.credential := by
    simp [Msg.isPayload, Msg.isCredential, Msg.isDelimiter]
  cases hc : flags.credential with
  | true =>
    obtain ⟨hmore, rfl⟩ := hcred hc
    have hpub : s.publish (.write flags body) published [] = (published, []) := by
      simp [Link.publish, hc]
    rw [hpub]
    exact h.write_credential w (m := ⟨.data, flags, body⟩) hmore (by rw [hpayload, hc]; rfl)
  | false =>
    cases hmore : flags.more with
    | true =>
      have hpub : s.publish (.write flags body) published pending =
          (published, pending ++ [⟨.data, flags, body⟩]) := by
        simp [Link.publish, hc, hfar, hcheck, hmore]
      rw [hpub, ← hmore]
      exact h.write_more (m := ⟨.data, flags, body⟩) hmore (by rw [hpayload, hc]; rfl)
    | false =>
      have hpub : s.publish (.write flags body) published pending =
          (published ++ [pending ++ [⟨.data, flags, body⟩]], []) := by
        simp [Link.publish, hc, hfar, hcheck, hmore]
      rw [hpub, ← hmore]
      exact h.write_last w (m := ⟨.data, flags, body⟩) hmore (by rw [hpayload, hc]; rfl)

lemma publish_same {u : Upipe Msg} {writing writing' : Prop}
    (h : Inflow u published done pending cur writing) (hw : writing' → writing)
    (hno : ∀ flags body, a = .write flags body → s.far.frees = 0 →
      ¬Outbound.Writable s.far.pipe)
    (hclosed : a = .rollback ∨ (∃ delay, a = .terminate delay) → ¬writing') :
    Inflow u (s.publish a published pending).1 done (s.publish a published pending).2 cur
      writing' := by
  cases a with
  | write flags body =>
    have hpub : s.publish (.write flags body) published pending = (published, pending) := by
      rw [Link.publish, if_neg]
      rintro ⟨hfar, hcheck, -⟩
      exact hno flags body rfl hfar (Outbound.checkWrite_iff.mp hcheck)
    rw [hpub]
    exact h.mono hw
  | rollback => exact h.closed (hclosed (.inl rfl)) _
  | terminate delay => exact h.closed (hclosed (.inr ⟨delay, rfl⟩)) _
  | _ => exact h.mono hw

lemma far_move (h : Inbound s published done pending cur) (halive : s.far.frees = 0)
    (hcred : a.CredentialBetween pending) (hmove : s.swap.Move a t e) :
    Inbound t.swap (s.publish a published pending).1 done (s.publish a published pending).2 cur := by
  obtain ⟨cs, hfar⟩ := hmove.far_eq
  have hpipe : t.far.pipe = s.near.pipe := by rw [hfar]; rfl
  have hfrees : t.far.frees = s.near.frees := by rw [hfar]; rfl
  refine ⟨(h.shutdown.swap.move halive hmove).swap, ?_,
    h.taken.trans (prefix_publish s a published pending), fun hnear => ?_⟩
  · intro p hp
    exact h.hiccup_notMem p (hmove.inbox_subset _ hp)
  · have hnear' : s.near.frees = 0 := hfrees.symm.trans hnear
    have hflow := h.flow hnear'
    have hq : t.swap.inQueue = (t.upipes s.near.pipe.inpipe).queue := by
      rw [inQueue, swap_near, hpipe]
      rfl
    have hactive : t.swap.far.frees = 0 ∧ t.swap.far.pipe.state = .active →
        s.far.frees = 0 ∧ s.far.pipe.state = .active := fun hw => ⟨halive, hmove.active hw.2⟩
    rw [hq]
    have hne : s.near.pipe.inpipe ≠ s.swap.near.pipe.inpipe :=
      (h.shutdown.inpipe_ne_inpipe hnear' halive).symm
    have hold : s.near.pipe.inpipe ≠ s.swap.fresh :=
      Nat.ne_of_lt (h.shutdown.swap.inpipe_lt_fresh hnear')
    obtain ⟨heq, hnw, hnr, hterm⟩ | ⟨flags, body, rfl, hw, heq⟩ | ⟨rfl, heq⟩ | ⟨rfl, heq⟩ |
      ⟨⟨delay, rfl⟩, hst, heq⟩ := hmove.queue_cases hne hold h.hiccup_notMem h.far_outpipe
    · rw [heq]
      refine publish_same hflow hactive (fun flags body ha _ => hnw flags body ha) ?_
      rintro (rfl | ⟨delay, rfl⟩) hw
      · exact hnr rfl
      · exact hterm delay rfl hw.2
    · rw [heq]
      exact (publish_write hflow ⟨halive, hw.2.1⟩ hcred halive hw).mono hactive
    · rw [heq]
      exact hflow.rollback.mono hactive
    · rw [heq]
      exact hflow.flush.mono hactive
    · rw [heq]
      exact hflow.close (fun hw => hst hw.2) _

lemma far (h : Inbound s published done pending cur) (hcred : a.CredentialBetween pending) :
    ∃ t e, s.swap.act a = .ok (t, e) ∧
      Inbound t.swap (s.publish a published pending).1 done (s.publish a published pending).2 cur ∧
      t.swap.near.pipe = s.near.pipe ∧ t.swap.near.frees = s.near.frees := by
  have hdone : ∀ {t e}, s.far.frees = 0 → s.swap.Move a t e →
      Inbound t.swap (s.publish a published pending).1 done (s.publish a published pending).2 cur ∧
      t.swap.near.pipe = s.near.pipe ∧ t.swap.near.frees = s.near.frees := by
    intro t e halive hmove
    obtain ⟨cs, hfar⟩ := hmove.far_eq
    refine ⟨h.far_move halive hcred hmove, ?_⟩
    rw [swap_near, hfar]
    exact ⟨rfl, rfl⟩
  by_cases hspecial : s.far.frees = 0 ∧ s.far.pipe.state = .active ∧
      ((∃ flags body, a = .write flags body ∧ Outbound.Writable s.far.pipe) ∨ a = .rollback ∨
        ∃ delay, a = .terminate delay)
  · obtain ⟨halive, hst, ha⟩ := hspecial
    obtain ⟨t, hact, hmove⟩ := act_of_active h.shutdown.swap halive hst ha
    exact ⟨t, none, hact, hdone halive hmove⟩
  obtain ⟨t, e, hact, ⟨rfl, -⟩ | ⟨halive, hmove⟩⟩ := h.shutdown.swap.exists_move a
  · refine ⟨s.swap, e, hact, ⟨h.shutdown, h.hiccup_notMem,
      h.taken.trans (prefix_publish s a published pending), fun hnear => ?_⟩, rfl, rfl⟩
    refine publish_same (h.flow hnear) id (fun flags body ha hfar hw => ?_) fun ha hw => ?_
    · exact hspecial ⟨hfar, hw.2.1, .inl ⟨flags, body, ha, hw⟩⟩
    · exact hspecial ⟨hw.1, hw.2, .inr ha⟩
  · exact ⟨t, e, hact, hdone halive hmove⟩

end Inbound

/-! ### Reading -/

namespace Link

variable {s t : Link}

lemma move_of_read (h : ShutdownInv s) (halive : s.near.frees = 0) {r : Option Msg}
    (hread : s.read = .ok (r, t)) : t = s ∨ s.Move .read t none := by
  obtain ⟨t', heq, hmove⟩ := read_succeeds (h.inpipe_live halive)
  rw [hread] at heq
  obtain rfl : t = t' := Except.ok.inj heq
  exact hmove

lemma move_of_checkRead (h : ShutdownInv s) (halive : s.near.frees = 0) {r : Bool}
    (hread : s.checkRead = .ok (r, t)) : t = s ∨ s.Move .checkRead t none := by
  obtain ⟨t', heq, hmove⟩ := checkRead_succeeds (h.inpipe_live halive)
  rw [hread] at heq
  obtain rfl : t = t' := Except.ok.inj heq
  exact hmove

end Link

namespace Inbound

variable {s t : Link} {a : EndAct} {published done done' : List (List Msg)}
  {pending cur cur' : List Msg}

open Link

lemma of_read (h : Inbound s published done pending cur) (halive : s.near.frees = 0)
    (hmove : t = s ∨ s.Move a t none) (ha : a ≠ .hiccup) (htaken : done' <+: published)
    (hflow : Inflow t.inQueue published done' pending cur'
      (s.far.frees = 0 ∧ s.far.pipe.state = .active)) :
    Inbound t published done' pending cur' := by
  rcases hmove with rfl | hmove
  · exact ⟨h.shutdown, h.hiccup_notMem, htaken, fun _ => hflow⟩
  obtain ⟨cs, hfar⟩ := hmove.far_eq
  refine ⟨h.shutdown.move halive hmove, hmove.hiccup_notMem ha h.hiccup_notMem, htaken, fun _ => ?_⟩
  rw [hfar]
  exact hflow

lemma processDelimiter_inQueue {u : Link} (hcan : canRead u.near.pipe = true) :
    ∃ t, u.processDelimiter = .ok t ∧ t.inQueue = u.inQueue ∧ t.near.frees = u.near.frees := by
  obtain ⟨-, hd⟩ | ⟨-, hd⟩ := processDelimiter_cases hcan
  · exact ⟨_, hd, rfl, rfl⟩
  · exact ⟨_, hd, rfl, rfl⟩

lemma read (h : Inbound s published done pending cur) (halive : s.near.frees = 0)
    (hcur : cur ≠ [] → canRead s.near.pipe = true) :
    (∃ t, s.read = .ok (none, t) ∧ cur = [] ∧ Inbound t published done pending cur ∧
      t.near.frees = 0) ∨
    (∃ m t, s.read = .ok (some m, t) ∧
      Inbound t published (if m.more then done else done ++ [cur ++ [m]]) pending
        (if m.more then cur ++ [m] else []) ∧ t.near.frees = 0 ∧ t.near.pipe.inActive = true) := by
  have hlive := h.shutdown.inpipe_live halive
  have hflow := h.flow halive
  have hmove : ∀ {r t}, s.read = .ok (r, t) → t = s ∨ s.Move .read t none :=
    fun heq => move_of_read h.shutdown halive heq
  obtain ⟨creds, hsplit, hcreds⟩ := skipCredentials_spec s.near.pipe.credential s.inQueue.flushed
  have hskip : ∀ m ∈ creds, m.isPayload = false := by
    intro m hm
    simp [Msg.isPayload, hcreds m hm]
  obtain ⟨hcan, heq⟩ | ⟨hcan, hk, heq⟩ | ⟨hcan, m, ms, hk, hm, heq⟩ | ⟨hcan, m, ms, hk, hm, heq⟩ :=
    read_cases hlive
  · left
    refine ⟨s, heq, ?_, h, halive⟩
    by_contra hne
    rw [hcur hne] at hcan
    exact absurd hcan (by decide)
  · left
    change (skipCredentials s.near.pipe.credential s.inQueue.flushed).2 = [] at hk
    rw [hk] at hsplit
    obtain ⟨hin, hnil⟩ := hflow.skip hsplit hskip true
    refine ⟨_, heq, ?_, h.of_read halive (hmove heq) (by simp) h.taken ?_, halive⟩
    · by_contra hne
      -- in the middle of a message the pipe is not empty
      have halign := hflow.flushed
      rw [hsplit, hnil hne] at halign
      have hemp : cur.isEmpty = false := by
        cases cur with
        | nil => exact absurd rfl hne
        | cons => rfl
      simp [Aligned, hemp] at halign
    · exact (setInQueue_inQueue s _ _).symm ▸ hin
  · left
    change (skipCredentials s.near.pipe.credential s.inQueue.flushed).2 = m :: ms at hk
    rw [hk] at hsplit
    have hskip' : ∀ x ∈ creds ++ [m], x.isPayload = false := by
      intro x hx
      rcases mem_append.mp hx with hx | hx
      · exact hskip x hx
      · rw [mem_singleton.mp hx]
        simp [Msg.isPayload, hm]
    have hfl : s.inQueue.flushed = (creds ++ [m]) ++ ms := by simpa using hsplit
    obtain ⟨hin, hnil⟩ := hflow.skip hfl hskip' s.inQueue.asleep
    obtain ⟨t, hd, hq, hf⟩ := processDelimiter_inQueue (u := s.setInQueue
      (skipCredentials s.near.pipe.credential s.inQueue.flushed).1 { s.inQueue with flushed := ms }) hcan
    have hread : s.read = .ok (none, t) := by
      rw [heq]
      erw [hd]
      rfl
    refine ⟨t, hread, ?_, h.of_read halive (hmove hread) (by simp) h.taken ?_, hf.trans halive⟩
    · by_contra hne
      simpa using hnil hne
    · rw [hq, setInQueue_inQueue]
      exact hin
  · right
    change (skipCredentials s.near.pipe.credential s.inQueue.flushed).2 = m :: ms at hk
    have hpay : m.isPayload = true := by
      simp [Msg.isPayload, skipCredentials_head hk, hm]
    rw [hk] at hsplit
    obtain ⟨hin, -⟩ := hflow.skip hsplit hskip s.inQueue.asleep
    have htake := hin.take (m := m) rfl hpay
    refine ⟨m, _, heq, h.of_read halive (hmove heq) (by simp) htake.feeds.prefix_done ?_, ?_, ?_⟩
    · have hq : ((s.setInQueue (skipCredentials s.near.pipe.credential s.inQueue.flushed).1
          { s.inQueue with flushed := ms }).countRead m).inQueue =
          { s.inQueue with flushed := ms } := by
        rw [inQueue, countRead_upipes, countRead_near]
        exact setInQueue_inQueue s _ _
      exact hq.symm ▸ htake
    · rw [countRead_near]
      exact halive
    · rw [countRead_near]
      have hcan' := hcan
      simp [canRead] at hcan'
      exact hcan'.1

lemma store_inQueue_self (s : Link) (u : Upipe Msg) :
    (s.store s.near.pipe.inpipe u).inQueue = u := by
  simp [inQueue]

lemma checkRead (h : Inbound s published done pending []) (halive : s.near.frees = 0) :
    ∃ b t, s.checkRead = .ok (b, t) ∧ Inbound t published done pending [] ∧ t.near.frees = 0 ∧
      (b = true → t.near.pipe.inActive = true) := by
  have hlive := h.shutdown.inpipe_live halive
  have hflow := h.flow halive
  have hmove : ∀ {r t}, s.checkRead = .ok (r, t) → t = s ∨ s.Move .checkRead t none :=
    fun heq => move_of_checkRead h.shutdown halive heq
  obtain ⟨-, heq⟩ | ⟨-, hfl, heq⟩ | ⟨hcan, m, ms, hfl, hm, heq⟩ | ⟨hcan, m, ms, hfl, hm, heq⟩ :=
    checkRead_cases hlive
  · exact ⟨false, s, heq, h, halive, by simp⟩
  · have hfl' : s.inQueue.flushed = [] ++ [] := hfl
    obtain ⟨hin, -⟩ := hflow.skip hfl' (by simp) true
    refine ⟨false, _, heq, h.of_read halive (hmove heq) (by simp) h.taken ?_, halive, by simp⟩
    have hq := store_inQueue_self s { s.inQueue with flushed := [], asleep := true }
    exact hq.symm ▸ hin
  · have hfl' : s.inQueue.flushed = [m] ++ ms := hfl
    have hskip : ∀ x ∈ [m], x.isPayload = false := by simp [Msg.isPayload, hm]
    obtain ⟨hin, -⟩ := hflow.skip hfl' hskip s.inQueue.asleep
    obtain ⟨t, hd, hq, hf⟩ := processDelimiter_inQueue
      (u := s.store s.near.pipe.inpipe { s.inQueue with flushed := ms }) hcan
    have hread : s.checkRead = .ok (false, t) := by
      rw [heq]
      erw [hd]
      rfl
    refine ⟨false, t, hread, h.of_read halive (hmove hread) (by simp) h.taken ?_, hf.trans halive,
      by simp⟩
    rw [hq, store_inQueue_self]
    exact hin
  · rw [store_self] at heq
    refine ⟨true, s, heq, h, halive, fun _ => ?_⟩
    have hcan' := hcan
    simp [canRead] at hcan'
    exact hcan'.1

end Inbound

end Zmq
