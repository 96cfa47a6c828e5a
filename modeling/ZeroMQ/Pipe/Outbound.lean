import ZeroMQ.Pipe.Credit

/-!
# What the owner of an end has written

A socket writes messages into its end of a pipe frame by frame and never hiccups. Seen from that end,
everything the peer can ever read is a part of what was written in whole messages, followed by
delimiters: the frames of an unfinished message are taken back when the end terminates, and a message
that was begun before the peer hiccuped is thrown away together with the old pipe.

`Outbound s w` says this for the messages `w` written so far, `Open s w part` what holds as long as the
end is active and the frames `part` of the message in progress wait to be completed, and `Ahead s` that
the writer is never more than the high watermark ahead of the counts it has heard of.
-/

namespace Zmq

open Foundation List Nat Function

/-- The items the reader has, or will have after a flush. -/
def Upipe.readable {α : Type} (u : Upipe α) : List α := u.flushed ++ u.complete

variable {α : Type}

lemma Upipe.write_readable (u : Upipe α) (v : α) (b : Bool) :
    (u.write v b).readable = if b then u.readable else u.readable ++ u.incomplete ++ [v] := by
  cases b <;> simp [Upipe.write, Upipe.readable]

lemma Upipe.write_incomplete (u : Upipe α) (v : α) (b : Bool) :
    (u.write v b).incomplete = if b then u.incomplete ++ [v] else [] := by
  cases b <;> simp [Upipe.write]

lemma Upipe.flush_complete (u : Upipe α) : u.flush.2.complete = [] := by
  unfold Upipe.flush
  split
  next h => exact h
  next => rfl

lemma Upipe.flush_readable (u : Upipe α) : u.flush.2.readable = u.readable := by
  unfold Upipe.flush
  split
  · rfl
  · simp [Upipe.readable]

lemma Upipe.flush_incomplete (u : Upipe α) : u.flush.2.incomplete = u.incomplete := by
  unfold Upipe.flush
  split <;> rfl

/-- The acts of an owner that leave the outbound flow to somebody else. -/
def EndAct.KeepsOutput : EndAct → Prop
  | .terminate _ | .setNodelay | .checkRead | .read | .deliver => True
  | .checkWrite | .write _ _ | .rollback | .flush | .hiccup => False

namespace Link

variable {s t : Link} {a : EndAct} {e : Option SinkEvent}

/-! ### Frames -/

/-- What such an act does to the outbound side of the near end. -/
structure OutFrame (s t : Link) (e : Option SinkEvent) : Prop where
  inpipe : t.near.pipe.inpipe = s.near.pipe.inpipe
  active : t.near.pipe.state = .active → s.near.pipe.state = .active
  outActive : t.near.pipe.state = .active → s.near.pipe.outActive = true →
    t.near.pipe.outActive = true
  outpipe : t.near.pipe.state = .active → e ≠ some .hiccuped →
    t.near.pipe.outpipe = s.near.pipe.outpipe
  queue : t.near.pipe.state = .active → e ≠ some .hiccuped →
    ∀ i ≠ s.near.pipe.inpipe, (t.upipes i).queue = (s.upipes i).queue
  /-- The peer loses something at the front, or a delimiter is put behind. -/
  readable : ∀ i ≠ s.near.pipe.inpipe,
    (t.upipes i).queue.readable <:+ (s.upipes i).queue.readable ∨
      (t.upipes i).queue.readable = (s.upipes i).queue.readable ++ [Msg.initDelimiter]
  gone : t.near.frees ≠ 0 ↔ e = some .pipeTerminated
  unblocked : e = some .writeActivated → unblocks s.near.pipe = true ∧ unblocks t.near.pipe = false
  hiccuped : e = some .hiccuped → t.near.pipe.state = .active
  /-- An active end cannot be written to again without its owner being told. -/
  reopened : t.near.pipe.state = .active → t.near.pipe.outActive = true →
    s.near.pipe.outActive = true ∨ e = some .writeActivated ∨ e = some .hiccuped

lemma closeOutbound_readable (u : Upipe Msg) :
    (closeOutbound u).readable = u.readable ++ [Msg.initDelimiter] := by
  simp [closeOutbound, Upipe.readable]

lemma closeOut_readable (s : Link) (i j : ℕ) :
    ((s.closeOut i).upipes j).queue.readable <:+ (s.upipes j).queue.readable ∨
      ((s.closeOut i).upipes j).queue.readable =
        (s.upipes j).queue.readable ++ [Msg.initDelimiter] := by
  rw [closeOut_queue]
  by_cases hj : j = i
  · rw [hj, store_queue_self, closeOutbound_readable]
    exact .inr rfl
  · rw [store_queue_of_ne s hj]
    exact .inl suffix_rfl

lemma closeOut_near (s : Link) (i : ℕ) :
    (s.closeOut i).near = { s.near with pipe := { s.near.pipe with outActive := false } } := by
  unfold closeOut
  split <;> rfl

lemma countRead_near (s : Link) (m : Msg) :
    (s.countRead m).near =
      { s.near with pipe := { s.near.pipe with msgsRead := s.near.pipe.msgsRead + counted m } } := by
  rw [countRead_eq]
  simp only
  split <;> rfl

lemma countRead_upipes (s : Link) (m : Msg) : (s.countRead m).upipes = s.upipes := by
  rw [countRead_eq]
  simp only
  split <;> rfl

lemma setInQueue_upipes {i : ℕ} (hi : i ≠ s.near.pipe.inpipe) (c : List UInt8) (u : Upipe Msg) :
    (s.setInQueue c u).upipes i = s.upipes i := by
  rw [setInQueue, store_queue_of_ne _ hi]
  rfl

lemma release_readable {i : ℕ} (hup : t.upipes = s.upipes)
    (hin : t.near.pipe.inpipe = s.near.pipe.inpipe) (hi : i ≠ s.near.pipe.inpipe) :
    (t.release.upipes i).queue.readable <:+ (s.upipes i).queue.readable := by
  change ((((t.store t.near.pipe.inpipe _).free t.near.pipe.inpipe)).upipes i).queue.readable <:+ _
  rw [free_queue, hin, store_queue_of_ne _ hi, hup]

lemma OutFrame.of_eq (halive : s.near.frees = 0) (hfrees : t.near.frees = s.near.frees)
    (hin : t.near.pipe.inpipe = s.near.pipe.inpipe)
    (hst : t.near.pipe.state = .active → s.near.pipe.state = .active)
    (hact : t.near.pipe.state = .active → t.near.pipe.outActive = s.near.pipe.outActive)
    (hout : t.near.pipe.state = .active → t.near.pipe.outpipe = s.near.pipe.outpipe)
    (hup : ∀ i ≠ s.near.pipe.inpipe, (t.upipes i).queue = (s.upipes i).queue)
    (he : e = none ∨ e = some .readActivated) : OutFrame s t e where
  inpipe := hin
  active := hst
  outActive ha h := by rw [hact ha, h]
  outpipe ha _ := hout ha
  queue _ _ := hup
  readable i hi := .inl (by rw [hup i hi])
  gone := by rcases he with rfl | rfl <;> simp [hfrees, halive]
  unblocked h := by rcases he with rfl | rfl <;> simp at h
  hiccuped h := by rcases he with rfl | rfl <;> simp at h
  reopened ha h := .inl (by rw [← hact ha, h])

lemma OutFrame.of_closed (halive : s.near.frees = 0)
    (hin : t.near.pipe.inpipe = s.near.pipe.inpipe) (hst : t.near.pipe.state ≠ .active)
    (hread : ∀ i ≠ s.near.pipe.inpipe,
      (t.upipes i).queue.readable <:+ (s.upipes i).queue.readable ∨
        (t.upipes i).queue.readable = (s.upipes i).queue.readable ++ [Msg.initDelimiter])
    (he : (e = none ∧ t.near.frees = s.near.frees) ∨
      (e = some .pipeTerminated ∧ t.near.frees ≠ 0)) : OutFrame s t e where
  inpipe := hin
  active h := absurd h hst
  outActive h := absurd h hst
  outpipe h := absurd h hst
  queue h := absurd h hst
  readable := hread
  gone := by
    rcases he with ⟨rfl, h⟩ | ⟨rfl, h⟩
    · simp [h, halive]
    · simp [h]
  unblocked h := by rcases he with ⟨rfl, -⟩ | ⟨rfl, -⟩ <;> simp at h
  hiccuped h := by rcases he with ⟨rfl, -⟩ | ⟨rfl, -⟩ <;> simp at h
  reopened h := absurd h hst

lemma Move.outFrame (halive : s.near.frees = 0) (ha : a.KeepsOutput)
    (hmove : s.Move a t e) : OutFrame s t e := by
  have hsame : ∀ i ≠ s.near.pipe.inpipe, (s.upipes i).queue.readable <:+ (s.upipes i).queue.readable ∨
      (s.upipes i).queue.readable = (s.upipes i).queue.readable ++ [Msg.initDelimiter] :=
    fun _ _ => .inl suffix_rfl
  cases hmove with
  | readEmpty credential _ hcan hfl =>
    refine .of_eq halive rfl rfl id (fun _ => rfl) (fun _ => rfl) (fun i hi => ?_) (.inl rfl)
    exact congrArg UpipeCell.queue (setInQueue_upipes hi credential _)
  | readDelimiter credential creds m ms _ hcan hfl hcreds hm hst =>
    refine .of_closed halive rfl (by simp) (fun i hi => .inl ?_) (.inl ⟨rfl, rfl⟩)
    rw [modifyPipe_upipes, setInQueue_upipes hi]
  | readLastDelimiter credential creds m ms _ hcan hfl hcreds hm hst =>
    refine .of_closed halive rfl ?_ (fun i hi => .inl ?_) (.inl ⟨rfl, rfl⟩)
    · simp [ackAndEnter, sendPipeTermAck]
    · change ((s.setInQueue credential _).upipes i).queue.readable <:+ _
      rw [setInQueue_upipes hi]
  | readFrame credential creds m ms hcan hfl hcreds hm =>
    refine .of_eq halive (by rw [countRead_near]; rfl) (by rw [countRead_near]; rfl)
      (by rw [countRead_near]; exact id) (fun _ => by rw [countRead_near]; rfl)
      (fun _ => by rw [countRead_near]; rfl) (fun i hi => ?_) (.inl rfl)
    rw [countRead_upipes, setInQueue_upipes hi]
  | fill ha' _ _ _ =>
    rcases ha' with rfl | ⟨flags, body, rfl⟩ <;> exact ha.elim
  | writeFrame i flags body _ _ _ _ | rollback i hi | flush i hi | hiccup hst => exact ha.elim
  | terminateAgain delay hst | setNodelay =>
    exact .of_eq halive rfl rfl id (fun _ => rfl) (fun _ => rfl) (fun _ _ => rfl) (.inl rfl)
  | terminate delay i hi hst =>
    refine .of_closed halive (by rw [closeOut_near]; rfl) (by rw [closeOut_near]; simp)
      (fun j _ => closeOut_readable _ i j) (.inl ⟨rfl, by rw [closeOut_near]; rfl⟩)
  | terminateWaiting i hi hst =>
    refine .of_closed halive (by rw [closeOut_near]; rfl) ?_ (fun j _ => closeOut_readable _ i j)
      (.inl ⟨rfl, by rw [closeOut_near]; rfl⟩)
    rw [closeOut_near]
    simp [markTerminate, hst]
  | terminateNow hst | pipeTermAck cs hin hst | pipeTermCross cs hin hst =>
    exact .of_closed halive rfl (by simp [ackAndEnter, sendPipeTermAck]) hsame (.inl ⟨rfl, rfl⟩)
  | activateRead cs hin =>
    refine .of_eq halive rfl rfl id (fun _ => rfl) (fun _ => rfl) (fun _ _ => rfl) ?_
    split
    · exact .inr rfl
    · exact .inl rfl
  | activateWrite cs n hin =>
    refine ⟨rfl, id, fun _ ho => ?_, fun _ _ => rfl, fun _ _ _ _ => rfl, hsame, ?_, fun he => ?_,
      fun he => ?_, fun _ ho => ?_⟩
    · simp [ho]
    · split <;> simp [halive]
    · split at he
      next hu => exact ⟨hu, by simp [unblocks] at hu ⊢; simp [hu]⟩
      next => simp at he
    · split at he <;> simp at he
    · by_cases hu : unblocks s.near.pipe = true
      · exact .inr (.inl (if_pos hu))
      · simp only [modifyPipe_near, popInbox, hu, Bool.false_or] at ho
        exact .inl ho
  | plug cs i j hin hi =>
    refine ⟨rfl, id, fun _ _ => rfl, fun hst he => ?_, fun hst he => ?_, fun k hk => .inl ?_, ?_,
      fun he => ?_, fun he => ?_, fun hst _ => .inr (.inr (if_pos hst))⟩
    · exact absurd (if_pos hst) he
    · exact absurd (if_pos hst) he
    · rw [modifyPipe_upipes, free_queue]
      by_cases hki : k = i
      · rw [hki, store_queue_self]
        simp [Upipe.readable, Upipe.flush_complete]
      · rw [store_queue_of_ne _ hki]
        exact suffix_rfl
    · split <;> simp [halive]
    · split at he <;> simp at he
    · split at he
      next hst => exact hst
      next => simp at he
  | pipeTermWait cs hin hst hdelay =>
    exact .of_closed halive rfl (by simp) hsame (.inl ⟨rfl, rfl⟩)
  | ackAnswer cs hin hst =>
    refine .of_closed halive rfl ?_ (fun i hi => .inl ?_) (.inr ⟨rfl, succ_ne_zero _⟩)
    · simp [release, sendPipeTermAck, hst]
    · exact release_readable rfl rfl hi
  | ackLast cs hin hst =>
    refine .of_closed halive rfl ?_ (fun i hi => .inl ?_) (.inr ⟨rfl, succ_ne_zero _⟩)
    · rcases hst with hst | hst <;> simp [release, hst]
    · exact release_readable rfl rfl hi

lemma Move.of_pipeTerminated (hmove : s.Move a t e) (he : e = some .pipeTerminated) :
    a = .deliver ∧ s.near.inbox.head? = some .pipeTermAck := by
  cases hmove with
  | ackAnswer cs hin hst | ackLast cs hin hst => exact ⟨rfl, by rw [hin]; rfl⟩
  | activateRead cs hin | activateWrite cs n hin | plug cs i j hin hi => split at he <;> simp at he
  | _ => simp at he

lemma terminate_of_active (h : ShutdownInv s) (halive : s.near.frees = 0)
    (hst : s.near.pipe.state = .active) (delay : Bool) :
    ∃ t, s.terminate delay = .ok t ∧ s.Move (.terminate delay) t none ∧
      t.near.pipe.state = .termReqSent1 ∧ t.near.frees = s.near.frees := by
  obtain ⟨i, hi, hlive⟩ := h.exists_live_outpipe halive (by rw [hst]; rfl)
  have hterm : s.terminate delay = ((s.markTerminate delay).sendPipeTerm.modifyPipe
      fun p => { p with state := .termReqSent1 }).stopOutbound := by
    simp only [terminate, modifyPipe_near, hst]
    rfl
  refine ⟨_, ?_, .terminate delay i hi (.inl hst), ?_, ?_⟩
  · rw [hterm]
    exact stopOutbound_of_live (i := i) (by simp) hi hlive (h.more i)
  · rw [closeOut_near]
    rfl
  · rw [closeOut_near]
    rfl

lemma Move.queue_of_ne (hmove : s.Move a t e) {j : ℕ} (hj : s.near.pipe.outpipe ≠ some j) :
    ((t.upipes j).queue.flushed <:+ (s.upipes j).queue.flushed ∧
      (t.upipes j).queue.complete = (s.upipes j).queue.complete ∧
      (t.upipes j).queue.incomplete = (s.upipes j).queue.incomplete) ∨
    (j = s.fresh ∧ (t.upipes j).queue = Upipe.empty) := by
  have hne : ∀ {i}, s.near.pipe.outpipe = some i → j ≠ i := by
    rintro i hi rfl
    exact hj hi
  have hout : ∀ {i} (u : Upipe Msg), s.near.pipe.outpipe = some i →
      (s.store i u).upipes j = s.upipes j := fun u hi => store_queue_of_ne s (hne hi) u
  -- reading takes items from the front of the inbound pipe
  have hin : ∀ (c : List UInt8) (fl : List Msg) (b : Bool), fl <:+ s.inQueue.flushed →
      ((s.setInQueue c { s.inQueue with flushed := fl, asleep := b }).upipes j).queue.flushed <:+
        (s.upipes j).queue.flushed ∧
      ((s.setInQueue c { s.inQueue with flushed := fl, asleep := b }).upipes j).queue.complete =
        (s.upipes j).queue.complete ∧
      ((s.setInQueue c { s.inQueue with flushed := fl, asleep := b }).upipes j).queue.incomplete =
        (s.upipes j).queue.incomplete := by
    intro c fl b hfl
    by_cases hi : j = s.near.pipe.inpipe
    · subst hi
      rw [setInQueue, store_queue_self]
      exact ⟨hfl, rfl, rfl⟩
    · rw [setInQueue_upipes hi]
      exact ⟨suffix_rfl, rfl, rfl⟩
  have hrest : ∀ {creds : List Msg} {m : Msg} {ms : List Msg},
      s.inQueue.flushed = creds ++ m :: ms → ms <:+ s.inQueue.flushed := by
    intro creds m ms hfl
    rw [hfl]
    exact (suffix_cons m ms).trans (suffix_append _ _)
  have hrelease : ∀ u : Link, u.upipes = s.upipes → u.near.pipe.inpipe = s.near.pipe.inpipe →
      (u.release.upipes j).queue.flushed <:+ (s.upipes j).queue.flushed ∧
      (u.release.upipes j).queue.complete = (s.upipes j).queue.complete ∧
      (u.release.upipes j).queue.incomplete = (s.upipes j).queue.incomplete := by
    intro u hup hinp
    have hq : (u.release.upipes j).queue = ((u.store u.near.pipe.inpipe
        { u.inQueue with flushed := [], asleep := true }).upipes j).queue := free_queue _ _ _
    rw [hq]
    by_cases hi : j = u.near.pipe.inpipe
    · subst hi
      rw [store_queue_self, ← hup]
      exact ⟨nil_suffix, rfl, rfl⟩
    · rw [store_queue_of_ne _ hi, hup]
      exact ⟨suffix_rfl, rfl, rfl⟩
  have hsame : (s.upipes j).queue.flushed <:+ (s.upipes j).queue.flushed ∧
      (s.upipes j).queue.complete = (s.upipes j).queue.complete ∧
      (s.upipes j).queue.incomplete = (s.upipes j).queue.incomplete := ⟨suffix_rfl, rfl, rfl⟩
  cases hmove with
  | readEmpty credential _ hcan hfl => exact .inl (hin credential [] true nil_suffix)
  | readDelimiter credential creds m ms _ hcan hfl hcreds hm hst
  | readLastDelimiter credential creds m ms _ hcan hfl hcreds hm hst =>
    exact .inl (hin credential ms _ (hrest hfl))
  | readFrame credential creds m ms hcan hfl hcreds hm =>
    rw [countRead_upipes]
    exact .inl (hin credential ms _ (hrest hfl))
  | writeFrame i flags body ho hst hfull hi =>
    rw [countWrite_eq, modifyPipe_upipes, hout _ hi]
    exact .inl hsame
  | rollback i hi =>
    rw [hout _ hi]
    exact .inl hsame
  | flush i hi =>
    split
    · rw [hout _ hi]
      exact .inl hsame
    · rw [send_upipes, hout _ hi]
      exact .inl hsame
  | terminate delay i hi hst | terminateWaiting i hi hst =>
    rw [closeOut_queue, store_queue_of_ne _ (hne hi)]
    exact .inl hsame
  | hiccup hst =>
    have hup : s.hiccup.upipes = update s.upipes s.fresh ⟨Upipe.empty, 0⟩ := by
      simp [Link.hiccup, hst]
    rw [hup]
    by_cases hj' : j = s.fresh
    · rw [hj', update_self]
      exact .inr ⟨rfl, rfl⟩
    · rw [update_of_ne hj']
      exact .inl hsame
  | plug cs i k hinb hi =>
    rw [modifyPipe_upipes, free_queue, store_queue_of_ne _ (hne hi)]
    exact .inl hsame
  | ackAnswer cs hinb hst | ackLast cs hinb hst => exact .inl (hrelease _ rfl rfl)
  | _ => exact .inl hsame

lemma Move.inbox_subset (hmove : s.Move a t e) : ∀ c ∈ t.near.inbox, c ∈ s.near.inbox := by
  have htail : ∀ {c cs}, s.near.inbox = c :: cs → ∀ d ∈ cs, d ∈ s.near.inbox := by
    intro c cs hin d hd
    rw [hin]
    exact mem_cons_of_mem _ hd
  cases hmove with
  | readFrame credential creds m ms hcan hfl hcreds hm =>
    rw [countRead_near]
    exact fun _ h => h
  | writeFrame i flags body ho hst hfull hi =>
    rw [countWrite_eq]
    exact fun _ h => h
  | flush i hi => split <;> exact fun _ h => h
  | terminate delay i hi hst | terminateWaiting i hi hst =>
    rw [closeOut_near]
    exact fun _ h => h
  | hiccup hst =>
    simp only [Link.hiccup, hst]
    exact fun _ h => h
  | activateRead cs hin | activateWrite cs n hin | plug cs i j hin hi | pipeTermWait cs hin hst hdelay
  | pipeTermAck cs hin hst | pipeTermCross cs hin hst | ackAnswer cs hin hst | ackLast cs hin hst => exact htail hin
  | _ => exact fun _ h => h

lemma Move.hiccup_notMem (hmove : s.Move a t e) (ha : a ≠ .hiccup)
    (h : ∀ p, Command.hiccup p ∉ s.far.inbox) : ∀ p, Command.hiccup p ∉ t.far.inbox := by
  have hclose : ∀ (u : Link) (i : ℕ), (∀ p, Command.hiccup p ∉ u.far.inbox) →
      ∀ p, Command.hiccup p ∉ (u.closeOut i).far.inbox := by
    intro u i hu p
    unfold closeOut
    split
    · simpa using hu p
    · exact hu p
  cases hmove with
  | readFrame credential creds m ms hcan hfl hcreds hm =>
    rw [countRead_eq]
    simp only
    split
    · simpa [setInQueue] using h
    · exact h
  | writeFrame i flags body ho hst hfull hi =>
    rw [countWrite_eq]
    exact h
  | flush i hi =>
    split
    · exact h
    · simpa using h
  | terminate delay i hi hst =>
    refine hclose _ i ?_
    simpa [sendPipeTerm, markTerminate] using h
  | terminateWaiting i hi hst => exact hclose _ i h
  | hiccup hst => exact absurd rfl ha
  | readLastDelimiter => simpa [ackAndEnter, sendPipeTermAck, setInQueue] using h
  | terminateNow => simpa [ackAndEnter, sendPipeTermAck, markTerminate] using h
  | pipeTermAck | pipeTermCross => simpa [ackAndEnter, sendPipeTermAck] using h
  | ackAnswer => simpa [sendPipeTermAck, release] using h
  | _ => exact h

end Link

/-! ### The messages and the message in progress -/

/-- Everything the peer of the near end can read is the end of the messages `w`, followed by
delimiters. -/
structure Outbound (s : Link) (w : List Msg) : Prop where
  shutdown : ShutdownInv s
  hiccup_notMem : ∀ p, Command.hiccup p ∉ s.far.inbox
  readable : ∀ i ≠ s.near.pipe.inpipe,
    ∃ n, (s.upipes i).queue.readable <:+ w ++ List.replicate n Msg.initDelimiter

/-- As long as the end is active the peer can read no delimiter, and the frames `part` wait in the
outbound pipe to be completed. -/
def Open (s : Link) (w part : List Msg) : Prop :=
  s.near.pipe.state = .active → ∃ i, s.near.pipe.outpipe = some i ∧ i ≠ s.near.pipe.inpipe ∧
    (s.upipes i).queue.readable <:+ w ∧ (s.upipes i).queue.incomplete = part ∧
    ∀ j ≠ s.near.pipe.inpipe, j ≠ i → (s.upipes j).queue.readable = []

namespace Outbound

variable {s t : Link} {a : EndAct} {e : Option SinkEvent} {w part : List Msg}

open Link

lemma pipepair (hwm0 hwm1 : ℤ) : Outbound (Link.pipepair hwm0 hwm1) [] where
  shutdown := ShutdownInv.pipepair hwm0 hwm1
  hiccup_notMem := by simp [Link.pipepair, newEndpoint]
  readable _ _ := ⟨0, by simp [Link.pipepair, Upipe.empty, Upipe.readable]⟩

lemma keep (h : Outbound s w) (halive : s.near.frees = 0) (ha : a.KeepsOutput)
    (hmove : s.Move a t e) : Outbound t w where
  shutdown := h.shutdown.move halive hmove
  hiccup_notMem := by
    refine hmove.hiccup_notMem ?_ h.hiccup_notMem
    rintro rfl
    exact ha
  readable i hi := by
    have hframe := hmove.outFrame halive ha
    rw [hframe.inpipe] at hi
    obtain ⟨n, hn⟩ := h.readable i hi
    rcases hframe.readable i hi with hsuf | heq
    · exact ⟨n, hsuf.trans hn⟩
    · obtain ⟨pre, hpre⟩ := hn
      refine ⟨n + 1, pre, ?_⟩
      rw [heq, ← append_assoc, hpre, append_assoc, ← replicate_succ']

lemma far_outpipe_ne (h : Outbound s w) {i : ℕ} (hi : i ≠ s.near.pipe.inpipe) :
    s.swap.near.pipe.outpipe ≠ some i := by
  intro heq
  exact hi (h.shutdown.swap.outpipe_eq_inpipe heq (hiccups_eq_nil h.hiccup_notMem))

lemma far_readable (h : Outbound s w) (hmove : s.swap.Move a t e) {i : ℕ}
    (hi : i ≠ s.near.pipe.inpipe) :
    (t.upipes i).queue.readable <:+ (s.upipes i).queue.readable := by
  rcases hmove.queue_of_ne (h.far_outpipe_ne hi) with ⟨⟨pre, hpre⟩, hc, -⟩ | ⟨-, heq⟩
  · refine ⟨pre, ?_⟩
    rw [Upipe.readable, hc, ← append_assoc, hpre]
    rfl
  · rw [heq]
    exact nil_suffix

lemma far (h : Outbound s w) (halive : s.far.frees = 0) (hmove : s.swap.Move a t e) :
    Outbound t.swap w := by
  obtain ⟨cs, hfar⟩ := hmove.far_eq
  have hnear : t.swap.near.pipe = s.near.pipe := by
    rw [swap_near, hfar]
    rfl
  refine ⟨(h.shutdown.swap.move halive hmove).swap, ?_, ?_⟩
  · intro p hp
    exact h.hiccup_notMem p (hmove.inbox_subset _ hp)
  intro i hi
  rw [hnear] at hi
  obtain ⟨n, hn⟩ := h.readable i hi
  exact ⟨n, (h.far_readable hmove hi).trans hn⟩

lemma of_open {w' : List Msg} (hs : ShutdownInv t) (hhiccup : ∀ p, Command.hiccup p ∉ t.far.inbox)
    (ho : Open t w' part) (hst : t.near.pipe.state = .active) : Outbound t w' where
  shutdown := hs
  hiccup_notMem := hhiccup
  readable j hj := by
    obtain ⟨i, -, -, hsuf, -, hothers⟩ := ho hst
    refine ⟨0, ?_⟩
    rw [replicate_zero, append_nil]
    by_cases hji : j = i
    · rw [hji]
      exact hsuf
    · rw [hothers j hj hji]
      exact nil_suffix

end Outbound

namespace Open

variable {s t : Link} {a : EndAct} {e : Option SinkEvent} {w part : List Msg}

open Link

lemma pipepair (hwm0 hwm1 : ℤ) : Open (Link.pipepair hwm0 hwm1) [] [] := by
  intro _
  refine ⟨1, rfl, by simp [Link.pipepair, newEndpoint, newPipe], ?_, rfl, fun _ _ _ => rfl⟩
  exact suffix_rfl

lemma keep (ho : Open s w part) (hframe : OutFrame s t e) (he : e ≠ some .hiccuped) :
    Open t w part := by
  intro hst
  obtain ⟨i, hi, hne, hsuf, hinc, hothers⟩ := ho (hframe.active hst)
  have hqueue := hframe.queue hst he
  refine ⟨i, (hframe.outpipe hst he).trans hi, ?_, ?_, ?_, ?_⟩
  · rw [hframe.inpipe]
    exact hne
  · rw [hqueue i hne]
    exact hsuf
  · rw [hqueue i hne]
    exact hinc
  · intro j hj hji
    rw [hframe.inpipe] at hj
    rw [hqueue j hj]
    exact hothers j hj hji

lemma far (ho : Open s w part) (h : Outbound s w) (hmove : s.swap.Move a t e) :
    Open t.swap w part := by
  obtain ⟨cs, hfar⟩ := hmove.far_eq
  have hnear : t.swap.near.pipe = s.near.pipe := by
    rw [swap_near, hfar]
    rfl
  intro hst
  rw [hnear] at hst ⊢
  obtain ⟨i, hi, hne, hsuf, hinc, hothers⟩ := ho hst
  refine ⟨i, hi, hne, (h.far_readable hmove hne).trans hsuf, ?_, fun j hj hji => ?_⟩
  · rcases hmove.queue_of_ne (h.far_outpipe_ne hne) with ⟨-, -, heq⟩ | ⟨heq, -⟩
    · exact heq.trans hinc
    · -- the outbound pipe is older than the one a hiccup makes
      have hlt := (h.shutdown.live i (mem_append_left _ (by simp [route, hi]))).2
      rw [swap_fresh] at heq
      omega
  · have hnil := h.far_readable hmove hj
    rw [hothers j hj hji] at hnil
    exact suffix_nil.mp hnil

lemma store (ho : Open s w part) {w' part' : List Msg} {u : Upipe Msg} {i : ℕ}
    (hi : s.near.pipe.outpipe = some i) (hup : t.upipes = (s.store i u).upipes)
    (hpipe : t.near.pipe.outpipe = s.near.pipe.outpipe ∧
      t.near.pipe.inpipe = s.near.pipe.inpipe ∧ t.near.pipe.state = s.near.pipe.state)
    (hread : (s.upipes i).queue.readable <:+ w → (s.upipes i).queue.incomplete = part →
      u.readable <:+ w' ∧ u.incomplete = part') : Open t w' part' := by
  intro hst
  rw [hpipe.2.2] at hst
  obtain ⟨j, hj, hne, hsuf, hinc, hothers⟩ := ho hst
  obtain rfl : i = j := Option.some.inj (hi.symm.trans hj)
  obtain ⟨hsuf', hinc'⟩ := hread hsuf hinc
  rw [hpipe.1, hpipe.2.1, hup]
  refine ⟨i, hi, hne, ?_, ?_, fun k hk hki => ?_⟩
  · rw [store_queue_self]
    exact hsuf'
  · rw [store_queue_self]
    exact hinc'
  · rw [store_queue_of_ne _ hki]
    exact hothers k hk hki

end Open

namespace Outbound

variable {s t : Link} {w part : List Msg}

open Link

/-- `check_write` accepts a frame. -/
def Writable (p : Pipe) : Prop := p.outActive = true ∧ p.state = .active ∧ full p = false

lemma not_writable_of_closed {p : Pipe} (h : p.state = .active → p.outActive = false) :
    ¬Writable p := by
  rintro ⟨hout, hst, -⟩
  rw [h hst] at hout
  cases hout

lemma checkWrite_of_writable (hw : Writable s.near.pipe) : s.checkWrite = (true, s) := by
  obtain ⟨hout, hst, hfull⟩ := hw
  simp [checkWrite, hout, hst, hfull]

lemma checkWrite_iff : s.checkWrite.1 = true ↔ Writable s.near.pipe := by
  constructor
  · intro h
    obtain ⟨-, heq⟩ | ⟨-, -, -, heq⟩ | ⟨hout, hst, hfull, -⟩ := s.checkWrite_cases
    · simp [heq] at h
    · simp [heq] at h
    · exact ⟨hout, hst, hfull⟩
  · intro h
    rw [checkWrite_of_writable h]

lemma write (h : Outbound s w) (ho : Open s w part) (m : Msg) (hw : Writable s.near.pipe) :
    ∃ t, s.write m = .ok (true, t) ∧
      t.near = { s.near with pipe := { s.near.pipe with
        msgsWritten := s.near.pipe.msgsWritten + counted m } } ∧ t.far = s.far ∧
      Outbound t (if m.more then w else w ++ part ++ [m]) ∧
      Open t (if m.more then w else w ++ part ++ [m]) (if m.more then part ++ [m] else []) := by
  obtain ⟨i, hi, -⟩ := ho hw.2.1
  have hwrite := write_of_checkWrite m (checkWrite_of_writable hw) hi (h.shutdown.outpipe_live hi)
  have hmore : ((s.upipes i).queue.write m m.more).incomplete.all Msg.more = true := by
    rw [Upipe.write_incomplete]
    split
    · next hm => simpa [hm] using h.shutdown.more i
    · rfl
  have hshutdown := (h.shutdown.store i hmore).countWrite m
  rw [countWrite_eq] at hwrite hshutdown
  generalize ht : (s.store i ((s.upipes i).queue.write m m.more)).modifyPipe
    (fun p => { p with msgsWritten := p.msgsWritten + counted m }) = t at hwrite hshutdown
  have hup : t.upipes = (s.store i ((s.upipes i).queue.write m m.more)).upipes := by rw [← ht]; rfl
  have hnear : t.near = { s.near with pipe := { s.near.pipe with
      msgsWritten := s.near.pipe.msgsWritten + counted m } } := by rw [← ht]; rfl
  have hopen : Open t (if m.more then w else w ++ part ++ [m])
      (if m.more then part ++ [m] else []) := by
    refine ho.store hi hup (by simp [hnear]) ?_
    rintro ⟨pre, hpre⟩ hinc
    rw [Upipe.write_readable, Upipe.write_incomplete, hinc]
    refine ⟨?_, rfl⟩
    split
    · exact ⟨pre, hpre⟩
    · exact ⟨pre, by rw [← hpre]; simp⟩
  have hfar : t.far = s.far := by rw [← ht]; rfl
  refine ⟨t, hwrite, hnear, hfar, .of_open hshutdown ?_ hopen ?_, hopen⟩
  · rw [hfar]
    exact h.hiccup_notMem
  · rw [hnear]
    exact hw.2.1

lemma refuse (h : Outbound s w) (ho : Open s w part) (halive : s.near.frees = 0)
    (hw : ¬Writable s.near.pipe) :
    ∃ t, s.checkWrite = (false, t) ∧ (∀ m, s.write m = .ok (false, t)) ∧
      t.near.frees = s.near.frees ∧ (t = s ∨ s.Move .checkWrite t none) ∧
      Outbound t w ∧ Open t w part := by
  obtain ⟨-, heq⟩ | ⟨hout, hst, hfull, heq⟩ | ⟨hout, hst, hfull, -⟩ := s.checkWrite_cases
  · exact ⟨s, heq, fun m => write_of_not_checkWrite m heq, rfl, .inl rfl, h, ho⟩
  · have hmove : s.Move .checkWrite _ none := .fill (.inl rfl) hout hst hfull
    have hopen : Open (s.modifyPipe fun p => { p with outActive := false }) w part := ho
    exact ⟨_, heq, fun m => write_of_not_checkWrite m heq, rfl, .inr hmove,
      .of_open (h.shutdown.move halive hmove) h.hiccup_notMem hopen hst, hopen⟩
  · exact absurd ⟨hout, hst, hfull⟩ hw

lemma flush (h : Outbound s w) (ho : Open s w part) (halive : s.near.frees = 0)
    (hst : s.near.pipe.state = .active) :
    ∃ t, s.flush = .ok t ∧ t.near = s.near ∧ t.far.pipe = s.far.pipe ∧
      Outbound t w ∧ Open t w part := by
  obtain ⟨i, hi, -⟩ := ho hst
  have hflush := flush_of_live (by rw [hst]; decide) hi (h.shutdown.outpipe_live hi)
  have hmove : s.Move .flush _ none := .flush i hi
  generalize ht : (if (s.upipes i).queue.flush.1 then s.store i (s.upipes i).queue.flush.2
    else (s.store i (s.upipes i).queue.flush.2).send .activateRead) = t at hflush hmove
  have hnear : t.near = s.near := by
    rw [← ht]
    split <;> rfl
  have hfar : t.far.pipe = s.far.pipe := by
    rw [← ht]
    split <;> rfl
  have hup : t.upipes = (s.store i (s.upipes i).queue.flush.2).upipes := by
    rw [← ht]
    split <;> rfl
  have hopen : Open t w part := by
    refine ho.store hi hup (by simp [hnear]) fun hsuf hinc => ?_
    rw [Upipe.flush_readable, Upipe.flush_incomplete]
    exact ⟨hsuf, hinc⟩
  have hhiccup := hmove.hiccup_notMem (by simp) h.hiccup_notMem
  exact ⟨t, hflush, hnear, hfar,
    .of_open (h.shutdown.move halive hmove) hhiccup hopen (by rw [hnear]; exact hst), hopen⟩

end Outbound

/-! ### Credit -/

/-- The writer is at most the high watermark ahead of the count it has heard of, and no count in flight
is smaller than that one. -/
structure Ahead (s : Link) : Prop where
  reports : Reports s.far.pipe.msgsRead s.near.pipe.peersMsgsRead (reports s.near.inbox)
  credit : 0 < s.near.pipe.hwm →
    (s.near.pipe.msgsWritten : ℤ) ≤ s.near.pipe.peersMsgsRead + s.near.pipe.hwm

/-- There is room for a message. -/
def HasRoom (p : Pipe) : Prop := 0 < p.hwm → (p.msgsWritten : ℤ) < p.peersMsgsRead + p.hwm

namespace Link

variable {s t : Link} {a : EndAct} {e : Option SinkEvent}

lemma Move.writer_counters (hmove : s.Move a t e) :
    t.near.pipe.hwm = s.near.pipe.hwm ∧
    ((t.near.pipe.peersMsgsRead = s.near.pipe.peersMsgsRead ∧
        Zmq.reports t.near.inbox = Zmq.reports s.near.inbox) ∨
      Zmq.reports s.near.inbox = t.near.pipe.peersMsgsRead :: Zmq.reports t.near.inbox) ∧
    ((t.near.pipe.msgsWritten = s.near.pipe.msgsWritten) ∨
      ((∃ flags body, a = .write flags body) ∧ full s.near.pipe = false ∧
        t.near.pipe.msgsWritten ≤ s.near.pipe.msgsWritten + 1 ∧
        t.near.pipe.peersMsgsRead = s.near.pipe.peersMsgsRead)) := by
  have hpop : ∀ {c cs}, s.near.inbox = c :: cs → (∀ n, c ≠ .activateWrite n) →
      Zmq.reports cs = Zmq.reports s.near.inbox := by
    intro c cs hin hc
    rw [hin]
    cases c with
    | activateWrite n => exact absurd rfl (hc n)
    | _ => rfl
  cases hmove with
  | readFrame credential creds m ms hcan hfl hcreds hm =>
    rw [countRead_near]
    exact ⟨rfl, .inl ⟨rfl, rfl⟩, .inl rfl⟩
  | writeFrame i flags body ho hst hfull hi =>
    rw [countWrite_eq]
    refine ⟨rfl, .inl ⟨rfl, rfl⟩, .inr ⟨⟨flags, body, rfl⟩, hfull, ?_, rfl⟩⟩
    simp only [modifyPipe_near, store_near, counted]
    split <;> omega
  | flush i hi => split <;> exact ⟨rfl, .inl ⟨rfl, rfl⟩, .inl rfl⟩
  | terminate delay i hi hst | terminateWaiting i hi hst =>
    rw [closeOut_near]
    exact ⟨rfl, .inl ⟨rfl, rfl⟩, .inl rfl⟩
  | hiccup hst =>
    simp only [Link.hiccup, hst]
    exact ⟨rfl, .inl ⟨rfl, rfl⟩, .inl rfl⟩
  | activateRead cs hin | plug cs i j hin hi | pipeTermWait cs hin hst hdelay | pipeTermAck cs hin hst
  | pipeTermCross cs hin hst | ackAnswer cs hin hst | ackLast cs hin hst =>
    exact ⟨rfl, .inl ⟨rfl, hpop hin (by simp)⟩, .inl rfl⟩
  | activateWrite cs n hin =>
    refine ⟨rfl, .inr ?_, .inl rfl⟩
    rw [hin]
    rfl
  | _ => exact ⟨rfl, .inl ⟨rfl, rfl⟩, .inl rfl⟩

lemma Move.reader_counters (hmove : s.Move a t e) :
    s.near.pipe.msgsRead ≤ t.near.pipe.msgsRead ∧
    (Zmq.reports t.far.inbox = Zmq.reports s.far.inbox ∨
      Zmq.reports t.far.inbox = Zmq.reports s.far.inbox ++ [t.near.pipe.msgsRead]) := by
  have hclose : ∀ (u : Link) (i : ℕ),
      Zmq.reports (u.closeOut i).far.inbox = Zmq.reports u.far.inbox := by
    intro u i
    unfold closeOut
    split
    · simp [Zmq.reports]
    · rfl
  cases hmove with
  | readFrame credential creds m ms hcan hfl hcreds hm =>
    refine ⟨by rw [countRead_near]; exact le_add_right _ _, ?_⟩
    rw [countRead_eq]
    simp only
    split
    · right
      simp [setInQueue, Zmq.reports]
    · exact .inl rfl
  | writeFrame i flags body ho hst hfull hi =>
    rw [countWrite_eq]
    exact ⟨le_refl _, .inl rfl⟩
  | flush i hi =>
    split
    · exact ⟨le_refl _, .inl rfl⟩
    · exact ⟨le_refl _, .inl (by simp [Zmq.reports])⟩
  | terminate delay i hi hst =>
    refine ⟨by rw [closeOut_near]; exact le_refl _, .inl ?_⟩
    rw [hclose]
    simp [sendPipeTerm, markTerminate, Zmq.reports]
  | terminateWaiting i hi hst =>
    exact ⟨by rw [closeOut_near]; exact le_refl _, .inl (hclose _ i)⟩
  | hiccup hst =>
    simp only [Link.hiccup, hst]
    exact ⟨le_refl _, .inl (by simp [Zmq.reports])⟩
  | readLastDelimiter =>
    exact ⟨le_refl _, .inl (by
      simp [ackAndEnter, sendPipeTermAck, setInQueue, Zmq.reports])⟩
  | terminateNow =>
    exact ⟨le_refl _, .inl (by
      simp [ackAndEnter, sendPipeTermAck, markTerminate, Zmq.reports])⟩
  | pipeTermAck | pipeTermCross =>
    exact ⟨le_refl _, .inl (by
      simp [ackAndEnter, sendPipeTermAck, Zmq.reports])⟩
  | ackAnswer =>
    exact ⟨le_refl _, .inl (by simp [sendPipeTermAck, release, Zmq.reports])⟩
  | _ => exact ⟨le_refl _, .inl rfl⟩

end Link

namespace Ahead

variable {s t : Link} {a : EndAct} {e : Option SinkEvent}

open Link

lemma pipepair (hwm0 hwm1 : ℤ) : Ahead (Link.pipepair hwm0 hwm1) :=
  ⟨Reports.zero, fun h => by
    have h' : (0 : ℤ) < hwm0 := h
    simp [Link.pipepair, newEndpoint, newPipe]
    omega⟩

lemma full_iff (h : Ahead s) : full s.near.pipe = false ↔ HasRoom s.near.pipe := by
  have := h.credit
  simp only [full, HasRoom, decide_eq_false_iff_not]
  omega

lemma near (h : Ahead s) (hmove : s.Move a t e) : Ahead t := by
  obtain ⟨hhwm, hrep, hwritten⟩ := hmove.writer_counters
  obtain ⟨cs, hfar⟩ := hmove.far_eq
  have hread : t.far.pipe.msgsRead = s.far.pipe.msgsRead := by rw [hfar]
  have hrep' : Reports t.far.pipe.msgsRead t.near.pipe.peersMsgsRead (Zmq.reports t.near.inbox) ∧
      s.near.pipe.peersMsgsRead ≤ t.near.pipe.peersMsgsRead := by
    have hs := h.reports
    rw [hread]
    rcases hrep with ⟨hpeers, heq⟩ | heq
    · rw [hpeers, heq]
      exact ⟨hs, le_refl _⟩
    · rw [heq] at hs
      exact ⟨hs.receive, hs.seen_le_head⟩
  refine ⟨hrep'.1, fun hpos => ?_⟩
  have hcredit := h.credit
  rcases hwritten with hw | ⟨-, hfull, hw, -⟩
  · omega
  · have hroom := h.full_iff.mp hfull
    unfold HasRoom at hroom
    omega

lemma room (h : Ahead s) (hmove : s.Move a t e) (ha : a.KeepsOutput)
    (hroom : HasRoom s.near.pipe) : HasRoom t.near.pipe := by
  obtain ⟨hhwm, hrep, hwritten⟩ := hmove.writer_counters
  have hle : s.near.pipe.peersMsgsRead ≤ t.near.pipe.peersMsgsRead := by
    rcases hrep with ⟨hpeers, -⟩ | heq
    · exact le_of_eq hpeers.symm
    · have hs := h.reports
      rw [heq] at hs
      exact hs.seen_le_head
  have hw : t.near.pipe.msgsWritten = s.near.pipe.msgsWritten := by
    rcases hwritten with hw | ⟨⟨flags, body, rfl⟩, -⟩
    · exact hw
    · exact ha.elim
  unfold HasRoom at hroom ⊢
  omega

lemma far (h : Ahead s) (hmove : s.swap.Move a t e) : Ahead t.swap := by
  obtain ⟨hle, hrep⟩ := hmove.reader_counters
  obtain ⟨cs, hfar⟩ := hmove.far_eq
  have hpipe : t.swap.near.pipe = s.near.pipe := by
    rw [swap_near, hfar]
    rfl
  have hread : t.swap.far.pipe.msgsRead = t.near.pipe.msgsRead := rfl
  have hin : Zmq.reports t.swap.near.inbox = Zmq.reports t.far.inbox := rfl
  refine ⟨?_, by rw [hpipe]; exact h.credit⟩
  rw [hpipe, hread, hin]
  have hgrow := h.reports.grow hle
  rcases hrep with heq | heq
  · rw [heq]
    exact hgrow
  · rw [heq]
    exact hgrow.report

end Ahead

/-! ### All of it -/

/-- The messages `w` were written to the near end, and the frames `part` of the next one. -/
structure Written (s : Link) (w part : List Msg) : Prop where
  out : Outbound s w
  waiting : Open s w part
  ahead : Ahead s

/-- The end will take another frame as long as it is active. -/
def Ready (p : Pipe) : Prop := p.state = .active → p.outActive = true ∧ HasRoom p

namespace Written

variable {s t : Link} {a : EndAct} {e : Option SinkEvent} {w part : List Msg}

open Link

lemma pipepair (hwm0 hwm1 : ℤ) : Written (Link.pipepair hwm0 hwm1) [] [] :=
  ⟨.pipepair hwm0 hwm1, .pipepair hwm0 hwm1, .pipepair hwm0 hwm1⟩

lemma far (h : Written s w part) (a : EndAct) :
    ∃ t e, s.swap.act a = .ok (t, e) ∧ Written t.swap w part ∧ t.swap.near.pipe = s.near.pipe ∧
      t.swap.near.frees = s.near.frees := by
  obtain ⟨t, e, hact, ⟨rfl, -⟩ | ⟨halive, hmove⟩⟩ := h.out.shutdown.swap.exists_move a
  · exact ⟨_, e, hact, h, rfl, rfl⟩
  obtain ⟨cs, hfar⟩ := hmove.far_eq
  refine ⟨t, e, hact, ⟨h.out.far halive hmove, h.waiting.far h.out hmove, h.ahead.far hmove⟩, ?_⟩
  rw [swap_near, hfar]
  exact ⟨rfl, rfl⟩

lemma write (h : Written s w part) (m : Msg) (hw : Outbound.Writable s.near.pipe) :
    ∃ t, s.write m = .ok (true, t) ∧
      t.near = { s.near with pipe := { s.near.pipe with
        msgsWritten := s.near.pipe.msgsWritten + counted m } } ∧
      Written t (if m.more then w else w ++ part ++ [m]) (if m.more then part ++ [m] else []) := by
  obtain ⟨t, hwrite, hnear, hfar, hout, hopen⟩ := h.out.write h.waiting m hw
  refine ⟨t, hwrite, hnear, hout, hopen, ?_⟩
  have hroom := h.ahead.full_iff.mp hw.2.2
  refine ⟨?_, fun hpos => ?_⟩
  · rw [hnear, hfar]
    exact h.ahead.reports
  rw [hnear] at hpos ⊢
  have hlt := hroom hpos
  have hc : counted m ≤ 1 := by
    unfold counted
    split <;> omega
  simp only
  omega

lemma refuse (h : Written s w part) (halive : s.near.frees = 0)
    (hw : ¬Outbound.Writable s.near.pipe) :
    ∃ t, s.checkWrite = (false, t) ∧ (∀ m, s.write m = .ok (false, t)) ∧
      t.near.frees = s.near.frees ∧ Written t w part := by
  obtain ⟨t, hcheck, hwrite, hfrees, hmove, hout, hopen⟩ := h.out.refuse h.waiting halive hw
  refine ⟨t, hcheck, hwrite, hfrees, hout, hopen, ?_⟩
  rcases hmove with rfl | hmove
  · exact h.ahead
  · exact h.ahead.near hmove

lemma flush (h : Written s w part) (halive : s.near.frees = 0)
    (hst : s.near.pipe.state = .active) :
    ∃ t, s.flush = .ok t ∧ t.near = s.near ∧ Written t w part := by
  obtain ⟨t, hflush, hnear, hfar, hout, hopen⟩ := h.out.flush h.waiting halive hst
  refine ⟨t, hflush, hnear, hout, hopen, ?_⟩
  refine ⟨?_, ?_⟩
  · rw [hnear, hfar]
    exact h.ahead.reports
  · rw [hnear]
    exact h.ahead.credit

end Written

end Zmq
