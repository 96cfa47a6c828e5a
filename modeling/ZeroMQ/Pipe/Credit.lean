import ZeroMQ.Foundation.Window
import ZeroMQ.Pipe.Shutdown
import Mathlib.Data.List.Count

/-!
# Flow control

The writer counts the messages it has written, the reader the messages it has read, and every `lwm`
messages the reader tells the writer its count. The writer stops when it is `hwm` messages ahead of
the last count it has heard of.

`DataInv` describes a pair that only exchanges data: both ends are active, and each writes to the
pipe the other reads. `FlowInv` is the arithmetic of one direction: the counts in flight lie between
what the writer knows and what the reader has read, they are multiples of `lwm`, and the newest of
them is less than `lwm` behind.
-/

namespace Zmq

open Foundation List Except Nat Prod

/-! ### A pair that exchanges data -/

/-- A frame without special meaning for the pipe. -/
def Msg.Plain (m : Msg) : Prop :=
  m.isDelimiter = false ∧ m.isIdentity = false ∧ m.isCredential = false

/-- The acts of an exchange of data: no termination, no hiccup, no credential or identity frames. -/
def EndAct.IsData : EndAct → Prop
  | .terminate _ => False
  | .hiccup => False
  | .write flags _ => flags.identity = false ∧ flags.credential = false
  | _ => True

namespace Link

/-- The lock-free pipe from the near end to the far end. -/
def outQueue (s : Link) : Upipe Msg := (s.upipes s.far.pipe.inpipe).queue

lemma setInQueue_inQueue (s : Link) (c : List UInt8) (u : Upipe Msg) :
    (s.setInQueue c u).inQueue = u := by
  simp [inQueue, setInQueue]

lemma store_outQueue (s : Link) (u : Upipe Msg) :
    (s.store s.far.pipe.inpipe u).outQueue = u := by
  simp [outQueue]

lemma setInQueue_outQueue {s : Link} (hne : s.far.pipe.inpipe ≠ s.near.pipe.inpipe)
    (c : List UInt8) (u : Upipe Msg) : (s.setInQueue c u).outQueue = s.outQueue := by
  simp [outQueue, setInQueue, store_queue_of_ne _ hne]

lemma store_inQueue {s : Link} (hne : s.far.pipe.inpipe ≠ s.near.pipe.inpipe) (u : Upipe Msg) :
    (s.store s.far.pipe.inpipe u).inQueue = s.inQueue := by
  simp [inQueue, store_queue_of_ne _ hne.symm]

end Link

/-- One end of a pair that exchanges data. -/
structure DataEnd (s : Link) : Prop where
  alive : s.near.frees = 0
  active : s.near.pipe.state = .active
  outpipe : s.near.pipe.outpipe = some s.far.pipe.inpipe
  inbox : ∀ c ∈ s.near.inbox, c.IsActivate
  plain : ∀ m ∈ s.inQueue.items, m.Plain

/-- A pair that exchanges data. -/
structure DataInv (s : Link) : Prop where
  shutdown : ShutdownInv s
  near : DataEnd s
  far : DataEnd s.swap

namespace DataInv

variable {s t : Link} {a : EndAct} {e : Option SinkEvent}

open Link

lemma pipepair (hwm0 hwm1 : ℤ) : DataInv (Link.pipepair hwm0 hwm1) where
  shutdown := ShutdownInv.pipepair hwm0 hwm1
  near := by
    constructor <;> simp [Link.pipepair, Link.newEndpoint, Link.newPipe, inQueue, Upipe.empty,
      Upipe.items]
  far := by
    constructor <;> simp [Link.pipepair, Link.newEndpoint, Link.newPipe, inQueue, Upipe.empty,
      Upipe.items]

lemma swap (h : DataInv s) : DataInv s.swap := ⟨h.shutdown.swap, h.far, h.near⟩

lemma inpipe_ne (h : DataInv s) : s.far.pipe.inpipe ≠ s.near.pipe.inpipe :=
  h.shutdown.inpipe_ne_inpipe h.near.alive h.far.alive

lemma flushed_plain (h : DataInv s) {m : Msg} (hm : m ∈ s.inQueue.flushed) : m.Plain :=
  h.near.plain m (by simp [Upipe.items, hm])

end DataInv

/-! ### The moves of an exchange of data -/

namespace Link

/-- What happens at the near end of a pair that exchanges data. -/
inductive DataMove (s : Link) : Link → Prop
  /-- A field that plays no role in the flow changes. -/
  | other (g : Pipe → Pipe) (hg : ∀ p, (g p).inpipe = p.inpipe ∧ (g p).outpipe = p.outpipe ∧
      (g p).inActive = p.inActive ∧ (g p).outActive = p.outActive ∧ (g p).hwm = p.hwm ∧
      (g p).lwm = p.lwm ∧ (g p).msgsRead = p.msgsRead ∧ (g p).msgsWritten = p.msgsWritten ∧
      (g p).peersMsgsRead = p.peersMsgsRead ∧ (g p).state = p.state) :
      DataMove s (s.modifyPipe g)
  | readEmpty (credential : List UInt8) (hfl : s.inQueue.flushed = []) :
      DataMove s (s.setInQueue credential
        { s.inQueue with flushed := [], asleep := true }).deactivateIn
  | readFrame (credential : List UInt8) (m : Msg) (ms : List Msg)
      (hfl : s.inQueue.flushed = m :: ms) :
      DataMove s ((s.setInQueue credential { s.inQueue with flushed := ms }).countRead m)
  | fill (hfull : full s.near.pipe = true) :
      DataMove s (s.modifyPipe fun p => { p with outActive := false })
  | writeFrame (m : Msg) (hm : m.Plain) (hout : s.near.pipe.outActive = true)
      (hfull : full s.near.pipe = false) :
      DataMove s ((s.store s.far.pipe.inpipe (s.outQueue.write m m.more)).countWrite m)
  | rollback : DataMove s (s.store s.far.pipe.inpipe { s.outQueue with incomplete := [] })
  | flush : DataMove s (if s.outQueue.flush.1 then s.store s.far.pipe.inpipe s.outQueue.flush.2
        else (s.store s.far.pipe.inpipe s.outQueue.flush.2).send .activateRead)
  | activateRead (cs : List Command) (hin : s.near.inbox = .activateRead :: cs) :
      DataMove s ((s.popInbox cs).modifyPipe fun p => { p with inActive := true })
  | activateWrite (cs : List Command) (n : ℕ) (hin : s.near.inbox = .activateWrite n :: cs) :
      DataMove s
        ((s.popInbox cs).modifyPipe fun p => { p with peersMsgsRead := n, outActive := true })

lemma eq_nil_of_creds {creds l : List Msg} (h : ∀ m ∈ creds ++ l, m.Plain)
    (hcreds : ∀ m ∈ creds, m.isCredential = true) : creds = [] := by
  refine eq_nil_iff_forall_not_mem.mpr fun m hm => ?_
  have hplain := (h m (mem_append_left _ hm)).2.2
  rw [hcreds m hm] at hplain
  exact absurd hplain (by decide)

lemma Move.dataMove {s t : Link} {a : EndAct} {e : Option SinkEvent} (h : DataInv s)
    (ha : a.IsData) (hmove : s.Move a t e) : s.DataMove t := by
  have hst := h.near.active
  have hplain : ∀ m ∈ s.inQueue.flushed, m.Plain := fun m hm => h.flushed_plain hm
  have hinbox : ∀ {c cs}, s.near.inbox = c :: cs → c.IsActivate := fun hin =>
    h.near.inbox _ (by rw [hin]; exact mem_cons_self)
  cases hmove with
  | readEmpty credential _ hcan hfl =>
    have hnil : s.inQueue.flushed = [] := eq_nil_of_creds (l := []) (by simpa using hplain) hfl
    exact .readEmpty credential hnil
  | readDelimiter credential creds m ms _ hcan hfl hcreds hm _ =>
    have := (hplain m (by rw [hfl]; simp)).1
    rw [hm] at this
    exact absurd this (by decide)
  | readLastDelimiter credential creds m ms _ hcan hfl hcreds hm hw =>
    rw [hst] at hw
    exact absurd hw (by decide)
  | readFrame credential creds m ms hcan hfl hcreds hm =>
    obtain rfl := eq_nil_of_creds (hfl ▸ hplain) hcreds
    exact .readFrame credential m ms hfl
  | fill _ hout _ hfull => exact .fill hfull
  | writeFrame i flags body hout _ hfull hi =>
    obtain rfl : s.far.pipe.inpipe = i := Option.some.inj (h.near.outpipe.symm.trans hi)
    exact .writeFrame ⟨.data, flags, body⟩ ⟨rfl, ha⟩ hout hfull
  | rollback i hi =>
    obtain rfl : s.far.pipe.inpipe = i := Option.some.inj (h.near.outpipe.symm.trans hi)
    exact .rollback
  | flush i hi =>
    obtain rfl : s.far.pipe.inpipe = i := Option.some.inj (h.near.outpipe.symm.trans hi)
    exact .flush
  | terminateAgain delay _ | terminate delay i hi _ | terminateWaiting i hi _ | terminateNow _ | hiccup _ =>
    exact ha.elim
  | setNodelay => exact .other _ fun p => ⟨rfl, rfl, rfl, rfl, rfl, rfl, rfl, rfl, rfl, rfl⟩
  | activateRead cs hin =>
    have hwake : (wakes s.near.pipe || s.near.pipe.inActive) = true := by
      simp [wakes, hst]
    have := DataMove.activateRead (s := s) cs hin
    simpa [modifyPipe, hwake] using this
  | activateWrite cs n hin =>
    have hun : (unblocks s.near.pipe || s.near.pipe.outActive) = true := by
      simp [unblocks, hst]
    have := DataMove.activateWrite (s := s) cs n hin
    simpa [modifyPipe, hun] using this
  | plug cs i j hin hi | pipeTermWait cs hin _ _ | pipeTermAck cs hin _ | pipeTermCross cs hin _
  | ackAnswer cs hin _ | ackLast cs hin _ => exact absurd (hinbox hin) (by simp [Command.IsActivate])

/-- What a data move leaves alone, and what it may add. -/
structure DataFrame (s t : Link) : Prop where
  frees : t.near.frees = s.near.frees
  state : t.near.pipe.state = s.near.pipe.state
  inpipe : t.near.pipe.inpipe = s.near.pipe.inpipe
  outpipe : t.near.pipe.outpipe = s.near.pipe.outpipe
  far_pipe : t.far.pipe = s.far.pipe
  far_frees : t.far.frees = s.far.frees
  inbox : ∀ c ∈ t.near.inbox, c ∈ s.near.inbox
  far_inbox : ∃ cs, t.far.inbox = s.far.inbox ++ cs ∧ ∀ c ∈ cs, c.IsActivate
  inQueue : ∀ m ∈ t.inQueue.items, m ∈ s.inQueue.items
  outQueue : ∀ m ∈ t.outQueue.items, m ∈ s.outQueue.items ∨ m.Plain

lemma DataMove.frame {s t : Link} (hne : s.far.pipe.inpipe ≠ s.near.pipe.inpipe)
    (hmove : s.DataMove t) : DataFrame s t := by
  have hin := setInQueue_outQueue hne
  have hout := store_inQueue hne
  have hself := s.setInQueue_inQueue
  have hself' := s.store_outQueue
  cases hmove with
  | other g hg =>
    obtain ⟨h1, h2, -, -, -, -, -, -, -, h10⟩ := hg s.near.pipe
    refine ⟨rfl, h10, h1, h2, rfl, rfl, fun _ h => h, ⟨[], by simp, by simp⟩, fun m hm => ?_,
      fun m hm => .inl hm⟩
    simpa [Link.inQueue, h1] using hm
  | readEmpty credential hfl =>
    refine ⟨rfl, rfl, rfl, rfl, rfl, rfl, fun _ h => h, ⟨[], by simp [setInQueue, deactivateIn],
      by simp⟩, fun m hm => ?_, fun m hm => .inl ?_⟩
    · change m ∈ (s.setInQueue credential _).inQueue.items at hm
      rw [hself] at hm
      simp only [Upipe.items, nil_append] at hm ⊢
      rw [hfl]
      exact hm
    · change m ∈ (s.setInQueue credential _).outQueue.items at hm
      rwa [hin] at hm
  | readFrame credential m ms hfl =>
    have hsub : ∀ x ∈ (s.setInQueue credential { s.inQueue with flushed := ms }).inQueue.items,
        x ∈ s.inQueue.items := by
      intro x hx
      rw [hself] at hx
      simp only [Upipe.items, hfl, cons_append] at hx ⊢
      exact mem_cons_of_mem _ hx
    have hsame : ∀ x ∈ (s.setInQueue credential { s.inQueue with flushed := ms }).outQueue.items,
        x ∈ s.outQueue.items ∨ x.Plain := by
      intro x hx
      rw [hin] at hx
      exact .inl hx
    rw [countRead_eq]
    simp only
    split
    · exact ⟨rfl, rfl, rfl, rfl, rfl, rfl, fun _ h => h, ⟨[_], rfl, by simp [Command.IsActivate]⟩,
        hsub, hsame⟩
    · exact ⟨rfl, rfl, rfl, rfl, rfl, rfl, fun _ h => h, ⟨[], by simp [setInQueue], by simp⟩,
        hsub, hsame⟩
  | fill hfull =>
    exact ⟨rfl, rfl, rfl, rfl, rfl, rfl, fun _ h => h, ⟨[], by simp, by simp⟩, fun _ h => h,
      fun _ h => .inl h⟩
  | writeFrame m hm ho hfull =>
    rw [countWrite_eq]
    refine ⟨rfl, rfl, rfl, rfl, rfl, rfl, fun _ h => h, ⟨[], by simp, by simp⟩, fun x hx => ?_,
      fun x hx => ?_⟩
    · change x ∈ (s.store s.far.pipe.inpipe _).inQueue.items at hx
      rwa [hout] at hx
    · change x ∈ (s.store s.far.pipe.inpipe _).outQueue.items at hx
      rw [hself', Upipe.items_write] at hx
      rcases mem_append.mp hx with hx | hx
      · exact .inl hx
      · exact .inr (mem_singleton.mp hx ▸ hm)
  | rollback =>
    refine ⟨rfl, rfl, rfl, rfl, rfl, rfl, fun _ h => h, ⟨[], by simp, by simp⟩, fun x hx => ?_,
      fun x hx => .inl ?_⟩
    · rwa [hout] at hx
    · rw [hself'] at hx
      simp only [Upipe.items, append_nil] at hx ⊢
      exact mem_append_left _ hx
  | flush =>
    have hsub : ∀ x ∈ (s.store s.far.pipe.inpipe s.outQueue.flush.2).inQueue.items,
        x ∈ s.inQueue.items := by
      intro x hx
      rwa [hout] at hx
    have hsame : ∀ x ∈ (s.store s.far.pipe.inpipe s.outQueue.flush.2).outQueue.items,
        x ∈ s.outQueue.items ∨ x.Plain := by
      intro x hx
      rw [hself', Upipe.items_flush] at hx
      exact .inl hx
    split
    · exact ⟨rfl, rfl, rfl, rfl, rfl, rfl, fun _ h => h, ⟨[], by simp, by simp⟩, hsub, hsame⟩
    · exact ⟨rfl, rfl, rfl, rfl, rfl, rfl, fun _ h => h, ⟨[_], rfl, by simp [Command.IsActivate]⟩,
        hsub, hsame⟩
  | activateRead cs hin' | activateWrite cs n hin' =>
    refine ⟨rfl, rfl, rfl, rfl, rfl, rfl, fun c hc => ?_, ⟨[], by simp, by simp⟩, fun _ h => h,
      fun _ h => .inl h⟩
    rw [hin']
    exact mem_cons_of_mem _ hc

end Link

namespace DataInv

variable {s t : Link} {a : EndAct} {e : Option SinkEvent}

open Link

lemma of_frame (h : DataInv s) (ht : ShutdownInv t) (hf : DataFrame s t) : DataInv t where
  shutdown := ht
  near := {
    alive := hf.frees.trans h.near.alive
    active := hf.state.trans h.near.active
    outpipe := by rw [hf.outpipe, hf.far_pipe]; exact h.near.outpipe
    inbox := fun c hc => h.near.inbox c (hf.inbox c hc)
    plain := fun m hm => h.near.plain m (hf.inQueue m hm) }
  far := {
    alive := hf.far_frees.trans h.far.alive
    active := by
      rw [swap_near, hf.far_pipe]
      exact h.far.active
    outpipe := by
      rw [swap_near, swap_far, hf.far_pipe, hf.inpipe]
      exact h.far.outpipe
    inbox := by
      obtain ⟨cs, hcs, hact⟩ := hf.far_inbox
      intro c hc
      rw [swap_near, hcs] at hc
      rcases mem_append.mp hc with hc | hc
      · exact h.far.inbox c hc
      · exact hact c hc
    plain := fun m hm => by
      rcases hf.outQueue m hm with hm | hm
      · exact h.far.plain m hm
      · exact hm }

lemma act (h : DataInv s) (ha : a.IsData) :
    ∃ t e, s.act a = .ok (t, e) ∧ DataInv t ∧ (t = s ∨ s.DataMove t) := by
  obtain ⟨t, e, hact, ⟨rfl, -⟩ | ⟨halive, hmove⟩⟩ := h.shutdown.exists_move a
  · exact ⟨_, e, hact, h, .inl rfl⟩
  · have hdata := hmove.dataMove h ha
    exact ⟨t, e, hact, h.of_frame (h.shutdown.move halive hmove) (hdata.frame h.inpipe_ne),
      .inr hdata⟩

end DataInv

/-! ### The arithmetic of one direction -/

/-- The counts in the `activate_write` commands in flight, oldest first. -/
def reports (cs : List Command) : List ℕ :=
  cs.filterMap fun c => match c with
    | .activateWrite n => some n
    | _ => none

lemma mem_reports {cs : List Command} {n : ℕ} : n ∈ reports cs ↔ .activateWrite n ∈ cs := by
  simp only [reports, mem_filterMap]
  constructor
  · rintro ⟨c, hc, heq⟩
    cases c <;> simp at heq
    exact heq ▸ hc
  · exact fun h => ⟨_, h, rfl⟩

/-- The complete messages in a pipe, counted by their last frames. -/
def completeMessages (u : Upipe Msg) : ℕ := u.items.countP fun m => !m.more

/-- Flow control for messages from the near end to the far end. -/
structure FlowInv (lwm hwm : ℕ) (s : Link) : Prop where
  hwm_eq : s.near.pipe.hwm = hwm
  lwm_eq : s.far.pipe.lwm = lwm
  conserved : s.near.pipe.msgsWritten = s.far.pipe.msgsRead + completeMessages s.outQueue
  window : Window lwm s.far.pipe.msgsRead s.near.pipe.peersMsgsRead (reports s.near.inbox)
  credit : s.near.pipe.msgsWritten ≤ s.near.pipe.peersMsgsRead + hwm
  blocked : s.near.pipe.outActive = false →
    s.near.pipe.msgsWritten = s.near.pipe.peersMsgsRead + hwm
  wake : s.far.pipe.inActive = false →
    s.outQueue.asleep = true ∨ .activateRead ∈ s.far.inbox
  asleep : s.outQueue.asleep = true → s.outQueue.flushed = []

namespace FlowInv

variable {lwm hwm : ℕ} {s t : Link}

open Link

lemma computeLwm_bounds {hwm : ℤ} (h : 0 < hwm) : 0 < computeLwm hwm ∧ computeLwm hwm ≤ hwm := by
  unfold computeLwm maxWmDelta
  split
  · omega
  · rw [Int.tdiv_eq_ediv_of_nonneg (by omega)]
    omega

lemma congr (h : FlowInv lwm hwm s) (hhwm : t.near.pipe.hwm = s.near.pipe.hwm)
    (hw : t.near.pipe.msgsWritten = s.near.pipe.msgsWritten)
    (hp : t.near.pipe.peersMsgsRead = s.near.pipe.peersMsgsRead)
    (ho : t.near.pipe.outActive = s.near.pipe.outActive)
    (hr : reports t.near.inbox = reports s.near.inbox)
    (hlwm : t.far.pipe.lwm = s.far.pipe.lwm) (hm : t.far.pipe.msgsRead = s.far.pipe.msgsRead)
    (hi : t.far.pipe.inActive = s.far.pipe.inActive)
    (hin : Command.activateRead ∈ s.far.inbox → Command.activateRead ∈ t.far.inbox)
    (hq : t.outQueue = s.outQueue) : FlowInv lwm hwm t where
  hwm_eq := hhwm.trans h.hwm_eq
  lwm_eq := hlwm.trans h.lwm_eq
  conserved := by rw [hw, hm, hq]; exact h.conserved
  window := by rw [hm, hp, hr]; exact h.window
  credit := by rw [hw, hp]; exact h.credit
  blocked := by rw [ho, hw, hp]; exact h.blocked
  wake hia := by
    rw [hi] at hia
    rw [hq]
    exact (h.wake hia).imp_right hin
  asleep := by rw [hq]; exact h.asleep

lemma counted_of_plain {m : Msg} (hm : m.Plain) : counted m = if !m.more then 1 else 0 := by
  simp [counted, hm.2.1]

lemma completeMessages_write (u : Upipe Msg) {m : Msg} (hm : m.Plain) (b : Bool) :
    completeMessages (u.write m b) = completeMessages u + counted m := by
  rw [completeMessages, Upipe.items_write, countP_append, countP_singleton,
    counted_of_plain hm]
  rfl

lemma completeMessages_incomplete {u : Upipe Msg} (h : u.incomplete.all Msg.more = true) :
    completeMessages u = (u.flushed ++ u.complete).countP fun m => !m.more := by
  rw [completeMessages, Upipe.items, countP_append]
  have hzero : (u.incomplete.countP fun m => !m.more) = 0 := by
    rw [countP_eq_zero]
    intro m hm
    simp [all_eq_true.mp h m hm]
  rw [hzero, add_zero]

/-- A frame that is written goes to the messages and to the counter. -/
lemma writeFrame (h : FlowInv lwm hwm s) (hpos : 0 < hwm) {m : Msg} (hm : m.Plain)
    (hout : s.near.pipe.outActive = true) (hfull : full s.near.pipe = false) :
    FlowInv lwm hwm ((s.store s.far.pipe.inpipe (s.outQueue.write m m.more)).countWrite m) := by
  have hle : counted m ≤ 1 := by
    unfold counted
    split <;> omega
  have hwrite : ∀ b, (s.outQueue.write m b).asleep = s.outQueue.asleep ∧
      (s.outQueue.write m b).flushed = s.outQueue.flushed := by
    intro b
    cases b <;> exact ⟨rfl, rfl⟩
  have hroom : s.near.pipe.msgsWritten < s.near.pipe.peersMsgsRead + hwm := by
    have := h.credit
    simp only [full, h.hwm_eq, decide_eq_false_iff_not] at hfull
    omega
  rw [countWrite_eq]
  have hq : ((s.store s.far.pipe.inpipe (s.outQueue.write m m.more)).modifyPipe
      fun p => { p with msgsWritten := p.msgsWritten + counted m }).outQueue =
      s.outQueue.write m m.more := s.store_outQueue _
  refine ⟨h.hwm_eq, h.lwm_eq, ?_, h.window, ?_, fun ho => ?_, fun hi => ?_, fun ha => ?_⟩
  · rw [hq, completeMessages_write _ hm]
    have := h.conserved
    simp only [modifyPipe_near, modifyPipe_far, store_near, store_far]
    omega
  · simp only [modifyPipe_near, store_near]
    omega
  · simp only [modifyPipe_near, store_near, hout] at ho
    exact absurd ho (by decide)
  · rw [hq]
    rw [(hwrite m.more).1]
    exact h.wake hi
  · rw [hq] at ha ⊢
    rw [(hwrite m.more).2]
    exact h.asleep ((hwrite m.more).1 ▸ ha)

/-- A flush completes no message; it wakes the reader up or tells it to. -/
lemma flush (h : FlowInv lwm hwm s) : FlowInv lwm hwm (if s.outQueue.flush.1 then
    s.store s.far.pipe.inpipe s.outQueue.flush.2
    else (s.store s.far.pipe.inpipe s.outQueue.flush.2).send .activateRead) := by
  have hq := s.store_outQueue s.outQueue.flush.2
  have hcons : completeMessages s.outQueue.flush.2 = completeMessages s.outQueue := by
    rw [completeMessages, Upipe.items_flush]
    rfl
  by_cases hc : s.outQueue.complete = []
  · have hsame := Upipe.flush_of_nil hc
    rw [hsame] at hq
    rw [if_pos (by rw [hsame]), hsame]
    exact h.congr rfl rfl rfl rfl rfl rfl rfl rfl id hq
  · have hflush := Upipe.flush_of_ne_nil hc
    have hawake : s.outQueue.flush.2.asleep = false := by rw [hflush]
    split
    next hawake' =>
      refine ⟨h.hwm_eq, h.lwm_eq, ?_, h.window, h.credit, h.blocked, fun hi => ?_, fun ha => ?_⟩
      · rw [hq, hcons]
        exact h.conserved
      · rcases h.wake hi with ha | hin
        · simp [hflush, ha] at hawake'
        · exact .inr hin
      · rw [hq, hawake] at ha
        exact absurd ha (by decide)
    refine ⟨h.hwm_eq, h.lwm_eq, ?_, h.window, h.credit, h.blocked, fun _ => ?_, fun ha => ?_⟩
    · change s.near.pipe.msgsWritten = s.far.pipe.msgsRead +
        completeMessages (s.store s.far.pipe.inpipe s.outQueue.flush.2).outQueue
      rw [hq, hcons]
      exact h.conserved
    · exact .inr (mem_append_right _ (mem_singleton.mpr rfl))
    · change (s.store s.far.pipe.inpipe s.outQueue.flush.2).outQueue.asleep = true at ha
      rw [hq, hawake] at ha
      exact absurd ha (by decide)

lemma move_writer (h : FlowInv lwm hwm s) (hpos : 0 < hwm) (hs : DataInv s)
    (hmove : s.DataMove t) : FlowInv lwm hwm t := by
  have hne := hs.inpipe_ne
  cases hmove with
  | other g hg =>
    obtain ⟨-, -, -, h4, h5, -, -, h8, h9, -⟩ := hg s.near.pipe
    exact h.congr h5 h8 h9 h4 rfl rfl rfl rfl id rfl
  | readEmpty credential hfl =>
    exact h.congr rfl rfl rfl rfl rfl rfl rfl rfl id (setInQueue_outQueue hne _ _)
  | readFrame credential m ms hfl =>
    rw [countRead_eq]
    simp only
    split
    · exact h.congr rfl rfl rfl rfl rfl rfl rfl rfl (mem_append_left _)
        (setInQueue_outQueue hne _ _)
    · exact h.congr rfl rfl rfl rfl rfl rfl rfl rfl id (setInQueue_outQueue hne _ _)
  | fill hfull =>
    refine ⟨h.hwm_eq, h.lwm_eq, h.conserved, h.window, h.credit, fun _ => ?_, h.wake, h.asleep⟩
    simp only [full, h.hwm_eq, decide_eq_true_eq] at hfull
    simp only [modifyPipe_near]
    omega
  | writeFrame m hm hout hfull => exact h.writeFrame hpos hm hout hfull
  | rollback =>
    have hq := s.store_outQueue { s.outQueue with incomplete := [] }
    refine ⟨h.hwm_eq, h.lwm_eq, ?_, h.window, h.credit, h.blocked, fun hi => ?_, fun ha => ?_⟩
    · have hmore : s.outQueue.incomplete.all Msg.more = true := hs.shutdown.more s.far.pipe.inpipe
      rw [hq, completeMessages_incomplete rfl]
      have := h.conserved
      rwa [completeMessages_incomplete hmore] at this
    · rw [hq]
      exact h.wake hi
    · rw [hq] at ha ⊢
      exact h.asleep ha
  | flush => exact h.flush
  | activateRead cs hin =>
    refine h.congr rfl rfl rfl rfl ?_ rfl rfl rfl id rfl
    simp [hin, reports]
  | activateWrite cs n hin =>
    have hwin := h.window
    have hrep : reports s.near.inbox = n :: reports cs := by simp [hin, reports]
    rw [hrep] at hwin
    have hle := hwin.seen_le_head
    have hcredit := h.credit
    refine ⟨h.hwm_eq, h.lwm_eq, h.conserved, hwin.receive, ?_, fun ho => ?_, h.wake, h.asleep⟩
    · simp only [modifyPipe_near, popInbox_near]
      omega
    · simp at ho

lemma move_reader (h : FlowInv lwm hwm s.swap) (hpos : 0 < lwm) (hs : DataInv s)
    (hmove : s.DataMove t) : FlowInv lwm hwm t.swap := by
  have hne := hs.inpipe_ne
  cases hmove with
  | other g hg =>
    obtain ⟨h1, -, h3, -, -, h6, h7, -, -, -⟩ := hg s.near.pipe
    refine h.congr rfl rfl rfl rfl rfl h6 h7 h3 id ?_
    simp [outQueue, h1]
  | readEmpty credential hfl =>
    have hq : (s.setInQueue credential
        { s.inQueue with flushed := [], asleep := true }).deactivateIn.swap.outQueue =
        { s.inQueue with flushed := [], asleep := true } := s.setInQueue_inQueue _ _
    refine ⟨h.hwm_eq, h.lwm_eq, ?_, h.window, h.credit, h.blocked, fun _ => Or.inl ?_, fun _ => ?_⟩
    · rw [hq]
      have := h.conserved
      simp only [completeMessages, Upipe.items] at this ⊢
      rw [show s.swap.outQueue = s.inQueue from rfl, hfl] at this
      exact this
    · rw [hq]
    · rw [hq]
  | readFrame credential m ms hfl =>
    have hm : m.Plain := hs.flushed_plain (by rw [hfl]; exact mem_cons_self)
    have hle : counted m ≤ 1 := by
      unfold counted
      split <;> omega
    have hq := s.setInQueue_inQueue credential { s.inQueue with flushed := ms }
    have hcons : completeMessages s.inQueue =
        completeMessages { s.inQueue with flushed := ms } + counted m := by
      simp only [completeMessages, Upipe.items, hfl, cons_append, countP_cons,
        counted_of_plain hm]
    have hconserved : s.far.pipe.msgsWritten = s.near.pipe.msgsRead + completeMessages s.inQueue :=
      h.conserved
    have hlwm : s.near.pipe.lwm = lwm := h.lwm_eq
    have hasleep : s.inQueue.asleep = true → ms = [] := fun ha => by
      have := h.asleep ha
      rw [show s.swap.outQueue = s.inQueue from rfl, hfl] at this
      exact absurd this (by simp)
    have hiff : (s.near.pipe.lwm > 0 ∧
        (s.near.pipe.msgsRead + counted m) % s.near.pipe.lwm.toNat = 0) ↔
        lwm ∣ s.near.pipe.msgsRead + counted m := by
      rw [hlwm]
      simp only [Int.toNat_natCast, ← Nat.dvd_iff_mod_eq_zero]
      exact ⟨fun h => h.2, fun h => ⟨by omega, h⟩⟩
    have hread : s.far.pipe.msgsWritten = s.near.pipe.msgsRead + counted m +
        completeMessages (s.setInQueue credential { s.inQueue with flushed := ms }).inQueue := by
      rw [hq]
      omega
    have hwake (hi : s.near.pipe.inActive = false) :
        (s.setInQueue credential { s.inQueue with flushed := ms }).inQueue.asleep = true ∨
          .activateRead ∈ s.near.inbox := by
      rw [hq]
      exact h.wake hi
    have hempty (ha : (s.setInQueue credential { s.inQueue with flushed := ms }).inQueue.asleep = true) :
        (s.setInQueue credential { s.inQueue with flushed := ms }).inQueue.flushed = [] := by
      rw [hq] at ha ⊢
      exact hasleep ha
    rw [countRead_eq]
    simp only
    split
    next hc =>
      refine ⟨h.hwm_eq, h.lwm_eq, hread, ?_, h.credit, h.blocked, hwake, hempty⟩
      have := h.window.report hpos (Nat.le_add_right _ (counted m)) (hiff.mp hc)
      simpa [reports, setInQueue] using this
    next hc =>
      exact ⟨h.hwm_eq, h.lwm_eq, hread, h.window.tick (Nat.le_add_right _ (counted m)) (Nat.add_le_add_left hle _)
        fun hd => hc (hiff.mpr hd), h.credit, h.blocked, hwake, hempty⟩
  | fill hfull => exact h.congr rfl rfl rfl rfl rfl rfl rfl rfl id rfl
  | writeFrame m hm hout hfull =>
    rw [countWrite_eq]
    exact h.congr rfl rfl rfl rfl rfl rfl rfl rfl id (store_inQueue hne _)
  | rollback => exact h.congr rfl rfl rfl rfl rfl rfl rfl rfl id (store_inQueue hne _)
  | flush =>
    split
    · exact h.congr rfl rfl rfl rfl rfl rfl rfl rfl id (store_inQueue hne _)
    · refine h.congr rfl rfl rfl rfl ?_ rfl rfl rfl id (store_inQueue hne _)
      simp [reports]
  | activateRead cs hin =>
    exact ⟨h.hwm_eq, h.lwm_eq, h.conserved, h.window, h.credit, h.blocked, fun hi => by simp at hi,
      h.asleep⟩
  | activateWrite cs n hin =>
    refine h.congr rfl rfl rfl rfl rfl rfl rfl rfl (fun hmem => ?_) rfl
    change Command.activateRead ∈ s.near.inbox at hmem
    rw [hin] at hmem
    rcases mem_cons.mp hmem with hmem | hmem
    · simp at hmem
    · exact hmem

end FlowInv

/-! ### Draining the pipe -/

namespace Link

/-- The writer flushes, then the reader receives its commands and reads everything. -/
def drainActs (s : Link) : List (Side × EndAct) :=
  (.near, .flush) :: (List.replicate (s.far.inbox.length + 1) (.far, .deliver) ++
    List.replicate (s.outQueue.flushed.length + s.outQueue.complete.length) (.far, .read))

/-- An `activate_write` with news for the writer is in flight. -/
def ReportInFlight (s : Link) : Prop :=
  ∃ n, .activateWrite n ∈ s.near.inbox ∧ s.near.pipe.peersMsgsRead < n

/-- Flow control works for messages from the near end to the far end: at most `hwm` complete messages
are in the pipe, and a blocked writer either has a report on its way to it, or the reader sends one
when it reads the complete messages it still has to read. -/
def FlowControlled (hwm : ℤ) (s : Link) : Prop :=
  (completeMessages s.outQueue : ℤ) ≤ hwm ∧
  (s.near.pipe.state = .active → s.near.pipe.outActive = false →
    s.ReportInFlight ∨
    (0 < completeMessages s.outQueue ∧
      ∃ t, s.run s.drainActs = .ok t ∧ t.near.pipe = s.near.pipe ∧ t.ReportInFlight))

end Link

namespace FlowInv

variable {lwm hwm : ℕ} {s t : Link} {a : EndAct}

open Link

/-- Both invariants of a writer and its reader. -/
def Both (lwm hwm : ℕ) (s : Link) : Prop := DataInv s ∧ FlowInv lwm hwm s

lemma step_writer (h : Both lwm hwm s) (hpos : 0 < hwm) (ha : a.IsData) :
    ∃ t, s.step (.near, a) = .ok t ∧ Both lwm hwm t := by
  obtain ⟨t, e, hact, hinv, rfl | hmove⟩ := h.1.act ha
  · exact ⟨_, step_near_of_act hact, h⟩
  · exact ⟨t, step_near_of_act hact, hinv, h.2.move_writer hpos h.1 hmove⟩

lemma step_reader (h : Both lwm hwm s) (hpos : 0 < lwm) (ha : a.IsData) :
    ∃ t, s.step (.far, a) = .ok t ∧ Both lwm hwm t ∧ t.near.pipe = s.near.pipe := by
  obtain ⟨t, e, hact, hinv, rfl | hmove⟩ := h.1.swap.act ha
  · exact ⟨s, step_far_of_act hact, h, rfl⟩
  · exact ⟨t.swap, step_far_of_act hact,
      ⟨hinv.swap, move_reader (s := s.swap) h.2 hpos h.1.swap hmove⟩,
      (hmove.frame h.1.swap.inpipe_ne).far_pipe⟩

lemma deliver_reader (h : Both lwm hwm s) {c : Command} {cs : List Command}
    (hin : s.far.inbox = c :: cs) :
    ∃ t, s.step (.far, .deliver) = .ok t ∧ t.far.inbox = cs ∧ t.outQueue = s.outQueue ∧
      (c = .activateRead ∨ s.far.pipe.inActive = true → t.far.pipe.inActive = true) := by
  have halive : s.swap.near.frees = 0 := h.1.far.alive
  have hsink : s.swap.near.pipe.sink = true := h.1.shutdown.far.sink
  have hact : s.swap.act .deliver = (s.swap.popInbox cs).processCommand c := by
    have hin' : s.swap.near.inbox = c :: cs := hin
    simp only [Link.act, deliver, hin']
    rw [if_pos halive]
    rfl
  obtain rfl | ⟨n, rfl⟩ := h.1.far.inbox c (by rw [swap_near, hin]; exact mem_cons_self)
  · have heq := processActivateRead_eq (s := s.swap.popInbox cs) hsink
    have hst : s.far.pipe.state = .active := h.1.far.active
    refine ⟨_, step_far_of_act (hact.trans heq), rfl, rfl, fun _ => ?_⟩
    simp [wakes, hst]
  · have heq := processActivateWrite_eq (s := s.swap.popInbox cs) n hsink
    refine ⟨_, step_far_of_act (hact.trans heq), rfl, rfl, fun hor => ?_⟩
    rcases hor with hor | hor
    · exact absurd hor (by simp)
    · exact hor

lemma deliver_all (n : ℕ) (h : Both lwm hwm s) (hpos : 0 < lwm) (hn : s.far.inbox.length ≤ n)
    (hwake : .activateRead ∈ s.far.inbox ∨ s.far.pipe.inActive = true) :
    ∃ t, s.run (replicate n (.far, .deliver)) = .ok t ∧ Both lwm hwm t ∧
      t.near.pipe = s.near.pipe ∧ t.outQueue = s.outQueue ∧ t.far.pipe.inActive = true := by
  induction n generalizing s with
  | zero =>
    have hnil : s.far.inbox = [] := length_eq_zero_iff.mp (le_zero.mp hn)
    rw [hnil] at hwake
    exact ⟨s, rfl, h, rfl, rfl, by simpa using hwake⟩
  | succ n ih =>
    obtain ⟨t, hstep, hboth, hpipe⟩ := step_reader h hpos (a := .deliver) trivial
    rw [replicate_succ, run, runSteps_cons_ok hstep]
    cases hin : s.far.inbox with
    | nil =>
      have hsame : s.step (.far, .deliver) = .ok s := by
        simp [Link.step, Link.act, deliver, hin, Except.map]
      obtain rfl : s = t := ok.inj (hsame.symm.trans hstep)
      exact ih h (by rw [hin]; simp) hwake
    | cons c cs =>
      obtain ⟨u, hu, hinbox, hqueue, hact⟩ := deliver_reader h hin
      obtain rfl : u = t := ok.inj (hu.symm.trans hstep)
      have hwake' : Command.activateRead ∈ u.far.inbox ∨ u.far.pipe.inActive = true := by
        rw [hin] at hwake
        rcases hwake with hmem | hactive
        · rcases mem_cons.mp hmem with heq | hmem
          · exact .inr (hact (.inl heq.symm))
          · exact .inl (hinbox ▸ hmem)
        · exact .inr (hact (.inr hactive))
      have hlen : u.far.inbox.length ≤ n := by
        rw [hin, length_cons] at hn
        rw [hinbox]
        omega
      obtain ⟨v, hrun, hv, hvp, hvq, hva⟩ := ih hboth hlen hwake'
      exact ⟨v, hrun, hv, hvp.trans hpipe, hvq.trans hqueue, hva⟩

lemma read_reader (h : Both lwm hwm s) {m : Msg} {ms : List Msg}
    (hactive : s.far.pipe.inActive = true) (hfl : s.outQueue.flushed = m :: ms) :
    ∃ t, s.step (.far, .read) = .ok t ∧ t.outQueue = { s.outQueue with flushed := ms } ∧
      t.far.pipe.inActive = true := by
  have hst : s.far.pipe.state = .active := h.1.far.active
  have hplain : m.Plain := h.1.swap.flushed_plain (by
    rw [show s.swap.inQueue.flushed = m :: ms from hfl]
    exact mem_cons_self)
  have hcan : canRead s.swap.near.pipe = true := by simp [canRead, hactive, hst]
  have hskip : ∀ c, skipCredentials c s.swap.inQueue.flushed = (c, m :: ms) := by
    intro c
    rw [show s.swap.inQueue.flushed = m :: ms from hfl, skipCredentials, hplain.2.2]
    rfl
  have hread : s.swap.read = .ok (some m, (s.swap.setInQueue s.far.pipe.credential
      { s.outQueue with flushed := ms }).countRead m) := by
    have hk := hskip s.far.pipe.credential
    obtain ⟨hno, -⟩ | ⟨-, hnil, -⟩ | ⟨-, m', ms', hcons, hd, -⟩ | ⟨-, m', ms', hcons, -, heq⟩ :=
      read_cases (s := s.swap) (h.1.shutdown.swap.inpipe_live h.1.far.alive)
    · rw [hcan] at hno
      exact absurd hno (by decide)
    · exact absurd (hnil.symm.trans (congrArg snd hk)) (by simp)
    · have heq : m' :: ms' = m :: ms := hcons.symm.trans (congrArg snd hk)
      obtain ⟨rfl, rfl⟩ := cons.inj heq
      rw [hplain.1] at hd
      exact absurd hd (by decide)
    · have hms : m' :: ms' = m :: ms := hcons.symm.trans (congrArg snd hk)
      obtain ⟨rfl, rfl⟩ := cons.inj hms
      rw [heq]
      have hk1 := congrArg fst hk
      change (skipCredentials s.swap.near.pipe.credential
        (s.swap.upipes s.swap.near.pipe.inpipe).queue.flushed).1 = s.far.pipe.credential at hk1
      rw [hk1]
      rfl
  have hact : s.swap.act .read = .ok ((s.swap.setInQueue s.far.pipe.credential
      { s.outQueue with flushed := ms }).countRead m, none) := by
    have halive : s.swap.near.frees = 0 := h.1.far.alive
    simp only [Link.act, Link.call, halive, ↓reduceIte, hread]
    rfl
  refine ⟨_, step_far_of_act hact, ?_, ?_⟩
  · have hq := s.swap.setInQueue_inQueue s.far.pipe.credential { s.outQueue with flushed := ms }
    rw [countRead_eq]
    simp only
    split <;> exact hq
  · rw [countRead_eq]
    simp only
    split <;> exact hactive

lemma read_all (ms : List Msg) (h : Both lwm hwm s) (hpos : 0 < lwm)
    (hactive : s.far.pipe.inActive = true) (hfl : s.outQueue.flushed = ms)
    (hcomp : s.outQueue.complete = []) :
    ∃ t, s.run (replicate ms.length (.far, .read)) = .ok t ∧ Both lwm hwm t ∧
      t.near.pipe = s.near.pipe ∧ completeMessages t.outQueue = 0 := by
  induction ms generalizing s with
  | nil =>
    refine ⟨s, rfl, h, rfl, ?_⟩
    have hmore : s.outQueue.incomplete.all Msg.more = true := h.1.shutdown.more s.far.pipe.inpipe
    rw [completeMessages_incomplete hmore, hfl, hcomp]
    rfl
  | cons m ms ih =>
    obtain ⟨t, hstep, hboth, hpipe⟩ := step_reader h hpos (a := .read) trivial
    obtain ⟨u, hu, hqueue, hact⟩ := read_reader h hactive hfl
    obtain rfl : u = t := ok.inj (hu.symm.trans hstep)
    rw [length_cons, replicate_succ, run, runSteps_cons_ok hstep]
    obtain ⟨v, hrun, hv, hvp, hvc⟩ := ih hboth hact (by rw [hqueue]) (by rw [hqueue]; exact hcomp)
    exact ⟨v, hrun, hv, hvp.trans hpipe, hvc⟩

lemma flush_writer (h : Both lwm hwm s) :
    ∃ t, s.step (.near, .flush) = .ok t ∧ t.near.pipe = s.near.pipe ∧
      t.far.pipe = s.far.pipe ∧ t.outQueue.complete = [] ∧
      t.outQueue.flushed = s.outQueue.flushed ++ s.outQueue.complete ∧
      t.far.inbox.length ≤ s.far.inbox.length + 1 := by
  have hst : s.near.pipe.state ≠ .termAckSent := by rw [h.1.near.active]; decide
  have hflush := flush_of_live hst h.1.near.outpipe (h.1.shutdown.outpipe_live h.1.near.outpipe)
  have hact : s.act .flush = s.flush.map (·, none) := if_pos h.1.near.alive
  rw [hflush] at hact
  have hq := s.store_outQueue s.outQueue.flush.2
  have hcontents : s.outQueue.flush.2.complete = [] ∧
      s.outQueue.flush.2.flushed = s.outQueue.flushed ++ s.outQueue.complete := by
    unfold Upipe.flush
    split
    next hc => exact ⟨hc, by simp [hc]⟩
    next => exact ⟨rfl, rfl⟩
  refine ⟨_, step_near_of_act hact, ?_, ?_, ?_, ?_, ?_⟩
  · split <;> rfl
  · split <;> rfl
  · rw [← hq] at hcontents
    split <;> exact hcontents.1
  · rw [← hq] at hcontents
    split <;> exact hcontents.2
  · split
    · simp
    · simp

lemma drain_reports (h : Both lwm hwm s) (hlwm : 0 < lwm) (hle : lwm ≤ hwm)
    (hblocked : s.near.pipe.outActive = false) (hnone : ¬s.ReportInFlight) :
    0 < completeMessages s.outQueue ∧
      ∃ t, s.run s.drainActs = .ok t ∧ t.near.pipe = s.near.pipe ∧ t.ReportInFlight := by
  have hused := h.2.blocked hblocked
  have hcons := h.2.conserved
  -- the reader is less than one period ahead of what the writer knows
  have hbehind : s.far.pipe.msgsRead < s.near.pipe.peersMsgsRead + lwm := by
    by_contra hge
    obtain ⟨n, hn, hlt⟩ := h.2.window.exists_newer (by omega)
    exact hnone ⟨n, mem_reports.mp hn, hlt⟩
  have hunread : 0 < completeMessages s.outQueue := by omega
  refine ⟨hunread, ?_⟩
  obtain ⟨t1, hstep1, hb1⟩ := step_writer h (by omega) (a := .flush) trivial
  obtain ⟨u, hu, hpipe1, hfar1, hcomp1, hfl1, hlen1⟩ := flush_writer h
  obtain rfl : u = t1 := ok.inj (hu.symm.trans hstep1)
  have hwake : Command.activateRead ∈ u.far.inbox ∨ u.far.pipe.inActive = true := by
    cases hin : u.far.pipe.inActive with
    | true => exact .inr rfl
    | false =>
      refine .inl ((hb1.2.wake hin).resolve_left fun hasleep => ?_)
      -- a reader that sleeps has nothing to read, but there are unread messages
      have hnil := hb1.2.asleep hasleep
      have hcons1 := hb1.2.conserved
      have hmore : u.outQueue.incomplete.all Msg.more = true :=
        hb1.1.shutdown.more u.far.pipe.inpipe
      rw [completeMessages_incomplete hmore, hnil, hcomp1, hpipe1, hfar1] at hcons1
      simp only [append_nil, countP_nil] at hcons1
      omega
  obtain ⟨t2, hrun2, hb2, hpipe2, hq2, hact2⟩ := deliver_all _ hb1 hlwm hlen1 hwake
  have hfl2 : t2.outQueue.flushed = s.outQueue.flushed ++ s.outQueue.complete := by
    rw [hq2, hfl1]
  obtain ⟨t3, hrun3, hb3, hpipe3, hzero⟩ := read_all _ hb2 hlwm hact2 hfl2 (by rw [hq2, hcomp1])
  refine ⟨t3, ?_, hpipe3.trans (hpipe2.trans hpipe1), ?_⟩
  · rw [run, drainActs, runSteps_cons_ok hstep1]
    rw [length_append] at hrun3
    exact (runSteps_append hrun2 _).trans hrun3
  · have hpipe := hpipe3.trans (hpipe2.trans hpipe1)
    have hcons3 := hb3.2.conserved
    rw [hzero, hpipe, add_zero] at hcons3
    obtain ⟨n, hn, hlt⟩ := hb3.2.window.exists_newer (by rw [hpipe]; omega)
    exact ⟨n, mem_reports.mp hn, hlt⟩

lemma step_pair {h0 h1 : ℤ} (hs : DataInv s)
    (hf0 : 0 < h0 → FlowInv (computeLwm h0).toNat h0.toNat s)
    (hf1 : 0 < h1 → FlowInv (computeLwm h1).toNat h1.toNat s.swap) {x : Side × EndAct}
    (hx : x.2.IsData) :
    ∃ t, s.step x = .ok t ∧ DataInv t ∧
      (0 < h0 → FlowInv (computeLwm h0).toNat h0.toNat t) ∧
      (0 < h1 → FlowInv (computeLwm h1).toNat h1.toNat t.swap) := by
  obtain ⟨side, a⟩ := x
  have hlwm : ∀ {h : ℤ}, 0 < h → 0 < (computeLwm h).toNat := fun hpos => by
    have := (computeLwm_bounds hpos).1
    omega
  cases side with
  | near =>
    obtain ⟨t, e, hact, hinv, rfl | hmove⟩ := hs.act hx
    · exact ⟨_, step_near_of_act hact, hs, hf0, hf1⟩
    · exact ⟨t, step_near_of_act hact, hinv,
        fun hpos => (hf0 hpos).move_writer (by omega) hs hmove,
        fun hpos => (hf1 hpos).move_reader (hlwm hpos) hs hmove⟩
  | far =>
    obtain ⟨t, e, hact, hinv, rfl | hmove⟩ := hs.swap.act hx
    · exact ⟨s, step_far_of_act hact, hs, hf0, hf1⟩
    · exact ⟨t.swap, step_far_of_act hact, hinv.swap,
        fun hpos => move_reader (s := s.swap) (hf0 hpos) (hlwm hpos) hs.swap hmove,
        fun hpos => (hf1 hpos).move_writer (by omega) hs.swap hmove⟩

lemma flowControlled (h : Both lwm hwm s) (hlwm : 0 < lwm) (hle : lwm ≤ hwm) :
    s.FlowControlled hwm := by
  refine ⟨?_, fun _ hblocked => ?_⟩
  · have := h.2.conserved
    have := h.2.credit
    have := h.2.window.seen_le_now
    omega
  · by_cases hrep : s.ReportInFlight
    · exact .inl hrep
    · exact .inr (drain_reports h hlwm hle hblocked hrep)

end FlowInv

/-- **Flow control.** In every exchange of data, in each direction with a positive high watermark, at
most that many complete messages are between the writer and the reader, and a writer that is blocked
will be told to go on: the report is in flight, or the reader sends it when it reads what it has. -/
theorem credit_flow_control (hwm0 hwm1 : ℤ) (acts : List (Side × EndAct))
    (hdata : ∀ x ∈ acts, x.2.IsData) :
    ∃ s, (Link.pipepair hwm0 hwm1).run acts = .ok s ∧
      (0 < hwm0 → s.FlowControlled hwm0) ∧ (0 < hwm1 → s.swap.FlowControlled hwm1) := by
  have hinit : ∀ h0 h1 : ℤ, 0 < h0 →
      FlowInv (Link.computeLwm h0).toNat h0.toNat (Link.pipepair h0 h1) := by
    intro h0 h1 hpos
    obtain ⟨hlwm, -⟩ := FlowInv.computeLwm_bounds hpos
    refine ⟨?_, ?_, rfl, Window.zero (by omega), zero_le _, fun ho => ?_, fun hi => ?_,
      fun _ => rfl⟩
    · exact (Int.toNat_of_nonneg (a := h0) (by omega)).symm
    · exact (Int.toNat_of_nonneg (a := Link.computeLwm h0) (by omega)).symm
    · simp [Link.pipepair, Link.newEndpoint, Link.newPipe] at ho
    · simp [Link.pipepair, Link.newEndpoint, Link.newPipe] at hi
  have hinit' : 0 < hwm1 → FlowInv (Link.computeLwm hwm1).toNat hwm1.toNat
      (Link.pipepair hwm0 hwm1).swap := by
    intro hpos
    refine (hinit hwm1 hwm0 hpos).congr rfl rfl rfl rfl rfl rfl rfl rfl id rfl
  have hmeet : StepsMeet Link.step (fun _ x => x.2.IsData) (Link.pipepair hwm0 hwm1) acts :=
    stepsMeet_of_forall (fun x hx _ => hdata x hx) _
  obtain ⟨s, hrun, hs, hf0, hf1⟩ := runSteps_invariant
    (I := fun s => DataInv s ∧
      (0 < hwm0 → FlowInv (Link.computeLwm hwm0).toNat hwm0.toNat s) ∧
      (0 < hwm1 → FlowInv (Link.computeLwm hwm1).toNat hwm1.toNat s.swap))
    (fun s x h hx => FlowInv.step_pair h.1 h.2.1 h.2.2 hx)
    ⟨DataInv.pipepair hwm0 hwm1, hinit hwm0 hwm1, hinit'⟩ hmeet
  refine ⟨s, hrun, fun hpos => ?_, fun hpos => ?_⟩
  · obtain ⟨hlwm, hle⟩ := FlowInv.computeLwm_bounds hpos
    have := FlowInv.flowControlled ⟨hs, hf0 hpos⟩ (by omega) (by omega)
    rwa [Int.toNat_of_nonneg (by omega)] at this
  · obtain ⟨hlwm, hle⟩ := FlowInv.computeLwm_bounds hpos
    have := FlowInv.flowControlled ⟨hs.swap, hf1 hpos⟩ (by omega) (by omega)
    rwa [Int.toNat_of_nonneg (by omega)] at this

/-- A writer with a high watermark of one is blocked by its first message. -/
theorem credit_flow_control_blocked :
    ∃ s, (Link.pipepair 1 0).run [(.near, .write MsgFlags.none []), (.near, .checkWrite)] = .ok s ∧
      (0 < (1 : ℤ) → s.FlowControlled 1) ∧ (0 < (0 : ℤ) → s.swap.FlowControlled 0) :=
  credit_flow_control 1 0 _ (by simp [EndAct.IsData, MsgFlags.none])

end Zmq
