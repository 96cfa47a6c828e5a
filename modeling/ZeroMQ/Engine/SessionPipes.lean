import ZeroMQ.Engine.Session

/-!
# The pipes of a session

What the later file needs to know of a single pipe of a session: its socket never hiccups, the pipe to
the ZAP socket is never full, and once the unfinished message is taken back no other begins without an
engine.
-/

namespace Zmq

open Foundation List Function

namespace Link

variable {s t : Link} {a : EndAct} {e : Option SinkEvent}

/-- The end is not bounded, and an active end can be written to. -/
structure Unbounded (p : Pipe) : Prop where
  hwm : p.hwm = 0
  outActive : p.state = .active → p.outActive = true

lemma Unbounded.not_unblocks {p : Pipe} (h : Unbounded p) : unblocks p = false := by
  by_cases hst : p.state = .active
  · simp [unblocks, h.outActive hst]
  · simp [unblocks, hst]

lemma Unbounded.not_full {p : Pipe} (h : Unbounded p) : full p = false := by
  simp [full, h.hwm]

lemma Move.unbounded (hmove : s.Move a t e) (h : Unbounded s.near.pipe) : Unbounded t.near.pipe := by
  cases hmove with
  | readDelimiter | readLastDelimiter | terminateNow | pipeTermWait | pipeTermAck | pipeTermCross =>
    exact ⟨h.hwm, fun hst => (by cases hst)⟩
  | readFrame credential creds m ms hcan hfl hcreds hm =>
    rw [countRead_near]
    exact ⟨h.hwm, h.outActive⟩
  | fill ha hout hst hfull =>
    rw [h.not_full] at hfull
    exact absurd hfull (by decide)
  | writeFrame i flags body ho hst hfull hi =>
    rw [countWrite_eq]
    exact ⟨h.hwm, h.outActive⟩
  | flush i hi => split <;> exact h
  | terminate delay i hi hst =>
    rw [closeOut_near]
    exact ⟨h.hwm, fun hst => (by cases hst)⟩
  | terminateWaiting i hi hst =>
    rw [closeOut_near]
    refine ⟨h.hwm, fun hst' => ?_⟩
    simp [markTerminate, hst] at hst'
  | hiccup hst =>
    have hout := h.outActive hst
    simp only [Link.hiccup, hst, ne_eq, not_true_eq_false, ↓reduceIte]
    exact ⟨h.hwm, fun _ => hout⟩
  | activateWrite cs n hin =>
    refine ⟨h.hwm, fun hst => ?_⟩
    simp [h.outActive hst]
  | plug => exact ⟨h.hwm, fun _ => rfl⟩
  | _ => exact ⟨h.hwm, h.outActive⟩

/-! ### No unfinished message -/

/-- The near end has no unfinished message in its outbound pipe. -/
def OutClean (s : Link) : Prop :=
  ∀ i, s.near.pipe.outpipe = some i → (s.upipes i).queue.incomplete = []

lemma OutClean.pipepair (hwm0 hwm1 : ℤ) : OutClean (Link.pipepair hwm0 hwm1) := fun _ _ => rfl

lemma OutClean.near (h : OutClean s) (hmove : s.Move a t e) (ha : ∀ flags body, a ≠ .write flags body)
    (hno : ∀ p, Command.hiccup p ∉ s.near.inbox) : OutClean t := by
  have hstore : ∀ {i : ℕ} (j : ℕ) (u : Upipe Msg), s.near.pipe.outpipe = some i →
      u.incomplete = (s.upipes j).queue.incomplete ∨ u.incomplete = [] →
      ((s.store j u).upipes i).queue.incomplete = [] := by
    intro i j u hi hu
    by_cases hij : i = j
    · rw [hij, store_queue_self]
      rcases hu with hu | hu
      · rw [hu, ← hij]
        exact h i hi
      · exact hu
    · rw [store_queue_of_ne s hij]
      exact h i hi
  have hread : ∀ {i : ℕ} (c : List UInt8) (fl : List Msg) (b : Bool), s.near.pipe.outpipe = some i →
      ((s.setInQueue c { s.inQueue with flushed := fl, asleep := b }).upipes i).queue.incomplete = [] :=
    fun c fl b hi => hstore _ _ hi (.inl rfl)
  cases hmove with
  | readEmpty credential ha' hcan hfl => exact fun i hi => hread credential [] true hi
  | readDelimiter credential creds m ms ha' hcan hfl hcreds hm hst =>
    exact fun i hi => hread credential ms _ hi
  | readLastDelimiter | terminateNow | pipeTermAck | pipeTermCross | ackAnswer => exact fun i hi => (by cases hi)
  | readFrame credential creds m ms hcan hfl hcreds hm =>
    intro i hi
    rw [countRead_upipes]
    rw [countRead_near] at hi
    exact hread credential ms _ hi
  | writeFrame i flags body ho hst hfull hi => exact absurd rfl (ha flags body)
  | rollback j hj => exact fun i hi => hstore j _ hi (.inr rfl)
  | flush j hj =>
    have hinc := Upipe.flush_incomplete (s.upipes j).queue
    split
    · exact fun i hi => hstore j _ hi (.inl hinc)
    · exact fun i hi => hstore j _ hi (.inl hinc)
  | terminate delay j hj hst | terminateWaiting j hj hst =>
    intro i hi
    rw [closeOut_queue]
    rw [closeOut_near] at hi
    exact hstore j _ hi (.inr rfl)
  | hiccup hst =>
    intro i hi
    have hup : s.hiccup.upipes = update s.upipes s.fresh ⟨Upipe.empty, 0⟩ := by
      simp [Link.hiccup, hst]
    have hout : s.hiccup.near.pipe.outpipe = s.near.pipe.outpipe := by simp [Link.hiccup, hst]
    rw [hout] at hi
    rw [hup]
    by_cases hfresh : i = s.fresh
    · rw [hfresh, update_self]
      rfl
    · rw [update_of_ne hfresh]
      exact h i hi
  | plug cs i j hin hi =>
    refine absurd ?_ (hno (some j))
    rw [hin]
    exact mem_cons_self
  | ackLast cs hin hst =>
    intro i hi
    change (((Link.store (s.popInbox cs) s.near.pipe.inpipe _).free s.near.pipe.inpipe).upipes
      i).queue.incomplete = []
    rw [free_queue]
    exact hstore _ { s.inQueue with flushed := [], asleep := true } hi (.inl rfl)
  | _ => exact fun i hi => h i hi

lemma outpipe_ne_outpipe (h : ShutdownInv s) {i : ℕ} (hi : s.near.pipe.outpipe = some i) :
    s.far.pipe.outpipe ≠ some i := by
  intro hfar
  have hnear : i ∈ route s.near s.far := by simp [route, hi]
  have hfar' : i ∈ route s.far s.near := by simp [route, hfar]
  exact (nodup_append.mp h.nodup).2.2 i hnear i hfar' rfl

lemma OutClean.far (h : OutClean s) (hs : ShutdownInv s) (hmove : s.swap.Move a t e) :
    OutClean t.swap := by
  intro i hi
  obtain ⟨cs, hfar⟩ := hmove.far_eq
  have hpipe : t.swap.near.pipe = s.near.pipe := by rw [swap_near, hfar]; rfl
  rw [hpipe] at hi
  obtain ⟨-, -, hinc⟩ | ⟨-, hempty⟩ := hmove.queue_of_ne (outpipe_ne_outpipe hs hi)
  · rw [swap_upipes, hinc]
    exact h i hi
  · rw [swap_upipes, hempty]
    rfl

lemma OutClean.of_rollback (h : ShutdownInv s) :
    ∃ t, s.rollback = .ok t ∧ OutClean t ∧ (t = s ∨ s.Move .rollback t none) := by
  cases hi : s.near.pipe.outpipe with
  | none =>
    refine ⟨s, rollback_of_none hi, fun i hi' => ?_, .inl rfl⟩
    rw [hi] at hi'
    cases hi'
  | some i =>
    have hlive := h.outpipe_live hi
    refine ⟨_, rollback_of_live hi hlive (h.more i), fun j hj => ?_, .inr (.rollback i hi)⟩
    rw [store_near, hi] at hj
    obtain rfl := Option.some.inj hj
    rw [store_queue_self]

lemma Move.near_eq (hmove : s.Move a t e) (ha : a = .rollback ∨ a = .flush) : t.near = s.near := by
  cases hmove with
  | rollback i hi => rfl
  | flush i hi => split <;> rfl
  | readEmpty credential ha' | readDelimiter credential creds m ms ha'
  | readLastDelimiter credential creds m ms ha' => rcases ha' with rfl | rfl <;> simp at ha
  | fill ha' => rcases ha' with rfl | ⟨flags, body, rfl⟩ <;> simp at ha
  | _ => simp at ha

lemma Move.not_hiccuped (hmove : s.Move a t e) (hno : ∀ p, Command.hiccup p ∉ s.near.inbox) :
    e ≠ some .hiccuped := by
  cases hmove with
  | activateRead | activateWrite => split <;> simp
  | plug cs i j hin hi =>
    refine absurd ?_ (hno (some j))
    rw [hin]
    exact mem_cons_self
  | _ => simp

lemma Move.of_readActivated (hmove : s.Move a t e) (he : e = some .readActivated) :
    s.near.inbox.head? = some .activateRead ∧ wakes s.near.pipe = true := by
  cases hmove with
  | activateRead cs hin =>
    split at he
    · next hw => exact ⟨by rw [hin]; rfl, hw⟩
    · simp at he
  | activateWrite | plug => split at he <;> simp at he
  | _ => simp at he

lemma read_some (hlive : (s.upipes s.near.pipe.inpipe).frees = 0) {m : Msg}
    (hread : s.read = .ok (some m, t)) :
    t.near.pipe.state = s.near.pipe.state ∧
      t.inQueue.flushed.length < s.inQueue.flushed.length := by
  obtain ⟨-, heq⟩ | ⟨-, -, heq⟩ | ⟨hcan, m', ms, -, -, heq⟩ | ⟨-, m', ms, hk, -, heq⟩ := read_cases hlive
  · rw [hread] at heq
    cases heq
  · rw [hread] at heq
    cases heq
  · obtain ⟨u, hd, -⟩ := Inbound.processDelimiter_inQueue (u := s.setInQueue
      (skipCredentials s.near.pipe.credential s.inQueue.flushed).1 { s.inQueue with flushed := ms }) hcan
    rw [hread] at heq
    erw [hd] at heq
    cases heq
  · rw [hread] at heq
    obtain ⟨-, rfl⟩ := Prod.mk.inj (Except.ok.inj heq)
    obtain ⟨creds, hsplit, -⟩ := skipCredentials_spec s.near.pipe.credential s.inQueue.flushed
    have hk' : (skipCredentials s.near.pipe.credential s.inQueue.flushed).2 = m' :: ms := hk
    have hq : ((s.setInQueue (skipCredentials s.near.pipe.credential s.inQueue.flushed).1
        { s.inQueue with flushed := ms }).countRead m').inQueue = { s.inQueue with flushed := ms } := by
      rw [inQueue, countRead_upipes, countRead_near]
      exact setInQueue_inQueue s _ _
    refine ⟨by rw [countRead_near]; rfl, ?_⟩
    erw [hq]
    rw [hsplit, hk']
    simp only [length_append, length_cons]
    omega

end Link

/-! ### The invariant of a pipe -/

/-- A pipe of a session. -/
structure LinkOk (l : Link) : Prop where
  shutdown : ShutdownInv l
  noHiccup : ∀ p, Command.hiccup p ∉ l.near.inbox

/-- The pipe to the socket. `quiet` means that both directions are at the boundary of a message. -/
structure PipeOk (l : Link) (g : Traffic) (incompleteIn : Bool) (quiet : Prop) : Prop where
  reads : Reads l g
  inActive : g.pulling ≠ [] → l.near.pipe.inActive = true
  agrees : incompleteIn = !g.pulling.isEmpty
  pulling : quiet → g.pulling = []
  clean : quiet → l.OutClean

namespace LinkOk

variable {l t : Link} {a : EndAct} {e : Option SinkEvent}

open Link

lemma pipepair (hwm0 hwm1 : ℤ) : LinkOk (Link.pipepair hwm0 hwm1) :=
  ⟨ShutdownInv.pipepair hwm0 hwm1, by simp [Link.pipepair, newEndpoint]⟩

lemma near (h : LinkOk l) (halive : l.near.frees = 0) (hmove : t = l ∨ l.Move a t e) : LinkOk t := by
  rcases hmove with rfl | hmove
  · exact h
  · exact ⟨h.shutdown.move halive hmove, fun p hp => h.noHiccup p (hmove.inbox_subset _ hp)⟩

lemma far (h : LinkOk l) (ha : a.OfSocket) (halive : l.far.frees = 0) (hmove : l.swap.Move a t e) :
    LinkOk t.swap := by
  refine ⟨(h.shutdown.swap.move halive hmove).swap, hmove.hiccup_notMem ?_ h.noHiccup⟩
  rintro rfl
  exact ha

end LinkOk

namespace PipeOk

variable {l t : Link} {g : Traffic} {b : Bool} {quiet quiet' : Prop} {a : EndAct} {e : Option SinkEvent}

open Link

lemma mono (h : PipeOk l g b quiet) (hq : quiet' → quiet) : PipeOk l g b quiet' :=
  ⟨h.reads, h.inActive, h.agrees, fun q => h.pulling (hq q), fun q => h.clean (hq q)⟩

lemma pipepair (hwm0 hwm1 : ℤ) : PipeOk (Link.pipepair hwm0 hwm1) Traffic.none false quiet :=
  ⟨Reads.pipepair hwm0 hwm1, fun h => absurd rfl h, rfl, fun _ => rfl, fun _ => OutClean.pipepair hwm0 hwm1⟩

lemma keep (h : PipeOk l g b quiet) (hl : LinkOk l) (halive : l.near.frees = 0) (ha : a.KeepsInput)
    (hwrite : (∃ flags body, a = .write flags body) → ¬quiet) (hmove : t = l ∨ l.Move a t e) :
    PipeOk t g b quiet := by
  rcases hmove with rfl | hmove
  · exact h
  have hframe := hmove.inFrame hl.shutdown halive ha
  refine ⟨h.reads.keep halive ha hmove, fun hne => hframe.inActive (h.inActive hne), h.agrees,
    h.pulling, fun q => (h.clean q).near hmove (fun flags body heq => ?_) hl.noHiccup⟩
  exact hwrite ⟨flags, body, heq⟩ q

lemma checkRead (h : PipeOk l g b quiet) (hl : LinkOk l) (halive : l.near.frees = 0) :
    ∃ c t, l.checkRead = .ok (c, t) ∧ PipeOk t g b quiet ∧ (t = l ∨ l.Move .checkRead t none) := by
  obtain ⟨c, t, heq, ht, -, hmid⟩ := h.reads.checkRead halive
  have hmove := move_of_checkRead hl.shutdown halive heq
  refine ⟨c, t, heq, ⟨ht, fun hne => ?_, h.agrees, h.pulling, fun q => ?_⟩, hmove⟩
  · rw [hmid hne]
    exact h.inActive hne
  · rcases hmove with rfl | hmove
    · exact h.clean q
    · exact (h.clean q).near hmove (by simp) hl.noHiccup

lemma hiccup (h : PipeOk l g b quiet) (hl : LinkOk l) (halive : l.near.frees = 0)
    (hnil : g.pulling = []) : PipeOk l.hiccup g b quiet := by
  refine ⟨h.reads.hiccup halive hnil, fun hne => absurd hnil hne, h.agrees, h.pulling, fun q => ?_⟩
  by_cases hst : l.near.pipe.state = .active
  · exact (h.clean q).near (.hiccup hst) (by simp) hl.noHiccup
  · rw [Link.hiccup, if_pos hst]
    exact h.clean q

lemma far (h : PipeOk l g b quiet) (ha : a.OfSocket)
    (hbetween : a = .deliver → hiccupNext l.far = true → g.writing = [])
    (hact : l.swap.act a = .ok (t, e)) (hmove : t = l.swap ∨ l.swap.Move a t e) :
    PipeOk t.swap (g.far l a) b quiet := by
  obtain ⟨t', e', hact', hreads, hpipe, -⟩ := h.reads.far ha hbetween
  rw [hact] at hact'
  obtain ⟨rfl, -⟩ := Prod.mk.inj (Except.ok.inj hact')
  refine ⟨hreads, fun hne => ?_, h.agrees, h.pulling, fun q => ?_⟩
  · rw [hpipe]
    exact h.inActive hne
  · rcases hmove with rfl | hmove
    · exact h.clean q
    · exact (h.clean q).far h.reads.shutdown hmove

end PipeOk

end Zmq
