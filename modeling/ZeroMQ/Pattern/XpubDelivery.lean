import ZeroMQ.Pattern.XpubSteps

/-!
# Who gets what a publisher sends

The pipes of a message are marked in the distributor when its first frame is sent, and the marks are
removed after the last one. If the first frame is refused with `EAGAIN` the marks stay, and if the
application then sends another message it goes to these pipes too. As long as this does not happen
every message goes to the pipes that were writable and subscribed to a prefix of its first frame, and
to no others.
-/

namespace Zmq

open Foundation List Prod

variable {s t : XpubSystem} {m : Msg}

/-- The message in progress goes to those of its audience that are still there. -/
structure InProgress (s : XpubSystem) (pub : Publication) : Prop where
  frames : pub.frames ≠ []
  lt_count : ∀ q ∈ pub.audience, q < s.count
  matching : ∀ q, s.xpub.dist.IsMatching q → q ∈ pub.audience
  ready : ∀ q ∈ pub.audience, s.Alive q → (s.links q).near.pipe.state = .active →
    s.xpub.dist.IsMatching q ∧ Ready (s.links q).near.pipe

/-- All messages went where they should go. -/
structure XpubDelivery (s : XpubSystem) : Prop where
  core : XpubCore s
  sent : ∀ pub ∈ s.sent, pub.Selective
  progress : s.xpub.more = true → ∃ pub rest, s.sent = pub :: rest ∧ InProgress s pub

lemma mem_writtenTo {log : List (ℕ × Bool)} (hnodup : (log.map fst).Nodup) (q : ℕ) :
    q ∈ (log.filter snd).map fst ↔ log.lookup q = some true := by
  induction log with
  | nil => simp
  | cons x log ih =>
    obtain ⟨p, ok⟩ := x
    rw [map_cons, nodup_cons] at hnodup
    by_cases hqp : q = p
    · subst hqp
      have hnone : q ∉ (log.filter snd).map fst := by
        intro hmem
        obtain ⟨x, hx, heq⟩ := mem_map.1 hmem
        exact hnodup.1 (mem_map.2 ⟨x, (mem_filter.1 hx).1, heq⟩)
      cases ok with
      | true => simp
      | false => simpa using hnone
    · rw [lookup_cons, beq_false_of_ne hqp, ← ih hnodup.2]
      cases ok with
      | true => simp [hqp]
      | false => simp

namespace XpubSystem

lemma mem_opened (s : XpubSystem) (q : ℕ) : q ∈ s.opened ↔ s.Alive q ∧ (s.links q).near.pipe.state = .active := by
  simp only [opened, mem_filter, mem_range, decide_eq_true_iff]
  exact ⟨fun h => h.2, fun h => ⟨h.1.1, h⟩⟩

lemma mem_audience (s : XpubSystem) (body : List UInt8) (q : ℕ) :
    q ∈ s.audience body ↔ s.Alive q ∧ Outbound.Writable (s.links q).near.pipe ∧ s.subscribed.Matches q body := by
  simp only [audience, mem_filter, mem_range, decide_eq_true_iff, Outbound.checkWrite_iff]
  exact ⟨fun h => h.2, fun h => ⟨h.1.1, h⟩⟩

end XpubSystem

namespace XpubDelivery

lemma new (pub : Bool) : XpubDelivery (XpubSystem.new pub) where
  core := XpubCore.new pub
  sent := by simp [XpubSystem.new]
  progress h := by cases h

lemma calm (h : XpubDelivery s) (hcalm : Calm s t) : XpubDelivery t where
  core := hcalm.core
  sent := hcalm.sent ▸ h.sent
  progress hmore := by
    have hmore' : s.xpub.more = true := hcalm.more ▸ hmore
    obtain ⟨pub, rest, hsent, hprog⟩ := h.progress hmore'
    refine ⟨pub, rest, hcalm.sent.trans hsent, hprog.frames,
      fun q hq => (hprog.lt_count q hq).trans_le hcalm.count, fun q hq => ?_, fun q hq halive hst => ?_⟩
    · exact hprog.matching q ((hcalm.matching hmore' q).1 hq).1
    · obtain ⟨halive', hst', hready⟩ := hcalm.pipes q (hprog.lt_count q hq) halive hst
      obtain ⟨hmatching, hr⟩ := hprog.ready q hq halive' hst'
      exact ⟨(hcalm.matching hmore' q).2 ⟨hmatching, (hcalm.core.alive_iff q).1 halive⟩, hready hr⟩

lemma target_first (h : XpubCore s) {flags : MsgFlags} {body : List UInt8}
    (hfresh : s.Fresh (.send flags body)) (hmore : s.xpub.more = false) (q : ℕ) :
    s.Target body q ∧ Outbound.Writable (s.links q).near.pipe ↔ q ∈ s.audience body := by
  rw [XpubSystem.mem_audience, h.alive_iff]
  constructor
  · rintro ⟨hmatching | ⟨-, hmatches, helig⟩, hw⟩
    · refine ⟨hmatching.1, hw, hfresh hmore q ?_ (Outbound.checkWrite_iff.2 hw)⟩
      have hat := h.fanout.dist.pipes.at_index hmatching.1
      exact mem_of_getElem? (i := s.xpub.dist.pipes.index q) (by rw [getElem?_take_of_lt hmatching.2]; exact hat)
    · exact ⟨helig.1, hw, hmatches⟩
  · rintro ⟨hmem, hw, hmatches⟩
    refine ⟨.inr ⟨hmore, hmatches, ?_⟩, hw⟩
    by_contra helig
    have := h.passive q hmem helig hw.2.1
    rw [hw.1] at this
    cases this

lemma target_next (h : XpubCore s) {pub : Publication} (hprog : InProgress s pub)
    (hmore : s.xpub.more = true) (body : List UInt8) (q : ℕ) :
    s.Target body q ∧ Outbound.Writable (s.links q).near.pipe ↔ q ∈ pub.audience ∧ q ∈ s.opened := by
  rw [XpubSystem.mem_opened]
  simp only [XpubSystem.Target, hmore, Bool.true_eq_false, false_and, or_false]
  constructor
  · rintro ⟨hmatching, hw⟩
    exact ⟨hprog.matching q hmatching, (h.alive_iff q).2 hmatching.1, hw.2.1⟩
  rintro ⟨hq, halive, hst⟩
  obtain ⟨hmatching, hready⟩ := hprog.ready q hq halive hst
  obtain ⟨hout, hroom⟩ := hready hst
  exact ⟨hmatching, hout, hst, (h.fanout.outlet_of_mem hmatching.1).ahead.full_iff.2 hroom⟩

lemma inProgress (hd : Delivered s m t) (hm : m.more = true) {pub : Publication}
    (hframes : pub.frames ≠ []) (hlt : ∀ q ∈ pub.audience, q < s.count)
    (hto : ∀ q, s.Target m.body q ∧ Outbound.Writable (s.links q).near.pipe → q ∈ pub.audience)
    (hfrom : ∀ q ∈ pub.audience, s.Alive q → (s.links q).near.pipe.state = .active →
      s.Target m.body q ∧ Outbound.Writable (s.links q).near.pipe) : InProgress t pub where
  frames := hframes
  lt_count := hd.count ▸ hlt
  matching q hq := hto q ((hd.matching hm q).1 hq)
  ready q hq halive hst := by
    have halive' := (hd.alive q).1 halive
    rw [hd.state q halive'] at hst
    have hboth := hfrom q hq halive' hst
    exact ⟨(hd.matching hm q).2 hboth, hd.ready hm q hboth.1 hboth.2⟩

lemma delivered (h : XpubDelivery s) {flags : MsgFlags} {body : List UInt8}
    (hfresh : s.Fresh (.send flags body)) (hd : Delivered s ⟨.data, flags, body⟩ t) :
    XpubDelivery t := by
  generalize hm : (⟨.data, flags, body⟩ : Msg) = m at hd
  have hbody : m.body = body := by rw [← hm]
  obtain ⟨log, hsent, hnodup, hlog⟩ := hd.sent
  have hwritten : ∀ q, q ∈ (log.filter snd).map fst ↔
      s.Target m.body q ∧ Outbound.Writable (s.links q).near.pipe := fun q =>
    (mem_writtenTo hnodup q).trans (hlog q)
  have honce : ((log.filter snd).map fst).Nodup := hnodup.sublist (filter_sublist.map fst)
  cases hmore : s.xpub.more with
  | false =>
    have htarget := target_first h.core hfresh hmore
    rw [← hbody] at htarget
    simp only [XpubSystem.publish, hmore] at hsent
    have hopened : ∀ q ∈ s.audience m.body, q ∈ s.opened := by
      intro q hq
      rw [XpubSystem.mem_audience] at hq
      exact (s.mem_opened q).2 ⟨hq.1, hq.2.1.2.1⟩
    refine ⟨hd.core, fun pub hpub => ?_, fun hmore' => ⟨_, _, hsent, ?_⟩⟩
    · rw [hsent] at hpub
      rcases mem_cons.1 hpub with rfl | hpub
      · refine ⟨?_, ?_, ?_⟩
        · rintro f ⟨⟩ q
          exact (hwritten q).trans (htarget q)
        · intro f hf q
          rw [mem_singleton.1 hf]
          refine (hwritten q).trans ((htarget q).trans ?_)
          exact ⟨fun hq => ⟨hq, hopened q hq⟩, And.left⟩
        · intro f hf
          rw [mem_singleton.1 hf]
          exact honce
      · exact h.sent pub hpub
    · refine inProgress hd (hd.more ▸ hmore') (by simp) (fun q hq => ?_) (fun q => (htarget q).1)
        fun q hq _ _ => (htarget q).2 hq
      exact ((s.mem_audience m.body q).1 hq).1.1
  | true =>
    obtain ⟨pub, rest, hpubs, hprog⟩ := h.progress hmore
    have htarget := target_next h.core hprog hmore m.body
    simp only [XpubSystem.publish, hmore, hpubs] at hsent
    have hold := h.sent pub (by rw [hpubs]; exact mem_cons_self)
    refine ⟨hd.core, fun pub' hpub' => ?_, fun hmore' => ⟨_, _, hsent, ?_⟩⟩
    · rw [hsent] at hpub'
      rcases mem_cons.1 hpub' with rfl | hpub'
      · refine ⟨fun f hf => ?_, fun f hf q => ?_, fun f hf => ?_⟩
        · rw [head?_append_of_ne_nil _ hprog.frames] at hf
          exact hold.first f hf
        · rcases mem_append.1 hf with hf | hf
          · exact hold.all f hf q
          · rw [mem_singleton.1 hf]
            exact (hwritten q).trans (htarget q)
        · rcases mem_append.1 hf with hf | hf
          · exact hold.once f hf
          · rw [mem_singleton.1 hf]
            exact honce
      · exact h.sent pub' (by rw [hpubs]; exact mem_cons_of_mem pub hpub')
    · refine inProgress hd (hd.more ▸ hmore') (by simp) hprog.lt_count (fun q hq => ?_) fun q hq halive hst => ?_
      · exact ((htarget q).1 hq).1
      · exact (htarget q).2 ⟨hq, (s.mem_opened q).2 ⟨halive, hst⟩⟩

lemma step (h : XpubDelivery s) (a : XpubAct) (hfresh : s.Fresh a) (hstep : s.step a = .ok t) :
    XpubDelivery t := by
  obtain ⟨hfail, -⟩ | ⟨t', hstep', -, hcalm | ⟨flags, body, rfl, hd⟩⟩ := h.core.step a
  · rw [hfail] at hstep
    cases hstep
  · obtain rfl : t' = t := Except.ok.inj (hstep'.symm.trans hstep)
    exact h.calm hcalm
  · obtain rfl : t' = t := Except.ok.inj (hstep'.symm.trans hstep)
    exact h.delivered hfresh hd

end XpubDelivery

/-- **Selective delivery.** In every run in which no pipe is marked as matching at the first frame of a
message that can be written to and is not subscribed to a prefix of it, every message goes to the pipes
that were writable and subscribed to a prefix of the first frame when that was accepted, and to no
others. -/
theorem xpub_selective (pub : Bool) (acts : List XpubAct)
    (hfresh : StepsMeet XpubSystem.step XpubSystem.Fresh (XpubSystem.new pub) acts) (s : XpubSystem)
    (hrun : (XpubSystem.new pub).run acts = .ok s) : ∀ p ∈ s.sent, p.Selective :=
  (runSteps_preserves (I := XpubDelivery) (fun _ a _ h hf hstep => h.step a hf hstep)
    (XpubDelivery.new pub) hfresh hrun).sent

/-- Two pipes with different subscriptions. The first message fills one of them, the next one is refused
and sent again after the pipe was read, and a message of two frames goes to the other. -/
theorem xpub_selective_resent :
    ∃ s, (XpubSystem.new false).run [.attach 2 1 false, .attach 0 0 false,
        .peer 0 (.write MsgFlags.none [1, 97]), .peer 0 .flush, .read 0,
        .peer 1 (.write MsgFlags.none [1, 98]), .peer 1 .flush, .read 1, .setNodrop true,
        .send MsgFlags.none [97, 1], .send MsgFlags.none [97, 2], .peer 0 .read,
        .owner 0 ⟨.deliver, trivial⟩, .send MsgFlags.none [97, 2], .send (frameFlags true) [98],
        .send MsgFlags.none [99]] = .ok s ∧
      s.sent.map Publication.audience = [[1], [0], [0]] ∧ ∀ p ∈ s.sent, p.Selective :=
  okAnd.exists_and (by decide +kernel) fun s hs => xpub_selective false _ (by decide +kernel) s hs

/-- A message for one pipe is refused with `EAGAIN`. After the pipe was read the application sends a
message for the other pipe, and it goes to both. -/
theorem xpub_not_selective :
    ∃ s, (XpubSystem.new false).run [.attach 2 1 false, .attach 0 0 false,
        .peer 0 (.write MsgFlags.none [1, 97]), .peer 0 .flush, .read 0,
        .peer 1 (.write MsgFlags.none [1, 98]), .peer 1 .flush, .read 1, .setNodrop true,
        .send MsgFlags.none [97, 1], .send MsgFlags.none [97, 2], .peer 0 .read,
        .owner 0 ⟨.deliver, trivial⟩, .send MsgFlags.none [98]] = .ok s ∧
      ¬∀ p ∈ s.sent, p.Selective := by
  refine okAnd.exists_imp (P := fun s => ∃ p ∈ s.sent, ∃ f ∈ p.frames, ∃ q ∈ f.writtenTo, q ∉ p.audience)
    (by decide +kernel) ?_
  rintro s - ⟨p, hp, f, hf, q, hq, hno⟩ h
  exact hno (((h p hp).all f hf q).1 hq).1

end Zmq
