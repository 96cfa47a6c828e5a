import ZeroMQ.Pattern.Xsub

/-!
# The distributor of a subscriber

The subscriptions for a new pipe, or for one that hiccuped, are written to it without the distributor.
If one of them is refused the distributor still takes the pipe for one that can be written to, and if
they all fit into a passive pipe it still takes it for a passive one. As long as neither happens the
parts of the distributor are what they should be.
-/

namespace Zmq

open Foundation Function List

variable {s : Link}

lemma Xsub.counted_subscription (key : List UInt8) : Link.counted (subscription key) = 1 := rfl

namespace Outlet

lemma sendSubscriptions_refused (h : Outlet s) (halive : s.near.frees = 0)
    (hw : ¬Outbound.Writable s.near.pipe) (keys : List (List UInt8)) :
    ∃ t, s.sendSubscriptions keys = .ok (replicate keys.length false, t) ∧ Outlet t ∧
      t.near.frees = s.near.frees ∧ t.near.pipe.state = s.near.pipe.state := by
  induction keys generalizing s with
  | nil => exact ⟨s, rfl, h, rfl, rfl⟩
  | cons key keys ih =>
    obtain ⟨t, hwrite, ht, hfrees, hstate, hw'⟩ := h.refuse halive hw
    obtain ⟨u, hsend, hu, hfrees', hstate'⟩ :=
      ih ht (hfrees.trans halive) (Outbound.not_writable_of_closed hw')
    refine ⟨u, ?_, hu, hfrees'.trans hfrees, hstate'.trans hstate⟩
    simp only [Link.sendSubscriptions, hwrite, hsend, length_cons, replicate_succ]
    rfl

lemma sendSubscriptions (h : Outlet s) (halive : s.near.frees = 0)
    (hst : s.near.pipe.state = .active) (hout : s.near.pipe.outActive = true)
    (keys : List (List UInt8)) :
    ∃ results t, s.sendSubscriptions keys = .ok (results, t) ∧ Outlet t ∧
      t.near.frees = s.near.frees ∧ t.near.pipe.state = .active ∧
      (HasRoomFor keys.length s.near.pipe →
        t.near.pipe.outActive = true ∧ results = replicate keys.length true) ∧
      (¬HasRoomFor keys.length s.near.pipe → results.getLast? = some false) := by
  induction keys generalizing s with
  | nil =>
    refine ⟨[], s, rfl, h, rfl, hst, fun _ => ⟨hout, rfl⟩, fun hno => absurd (fun hpos => ?_) hno⟩
    have := h.ahead.credit hpos
    simpa using this
  | cons key keys ih =>
    by_cases hw : Outbound.Writable s.near.pipe
    · obtain ⟨t, hwrite, ht, hnear⟩ := h.write (m := Xsub.subscription key) halive rfl hw
      rw [Xsub.counted_subscription] at hnear
      obtain ⟨results, u, hsend, hu, hfrees, hstate, hfit, hfull⟩ :=
        ih ht (by rw [hnear]; exact halive) (by rw [hnear]; exact hst) (by rw [hnear]; exact hout)
      have hroom : HasRoomFor keys.length t.near.pipe ↔
          HasRoomFor (key :: keys).length s.near.pipe := by
        simp only [HasRoomFor, hnear, length_cons, Nat.cast_add, Nat.cast_one]
        constructor <;> intro hle hpos <;> have := hle hpos <;> omega
      refine ⟨true :: results, u, ?_, hu, ?_, hstate, fun hr => ?_, fun hr => ?_⟩
      · simp only [Link.sendSubscriptions, hwrite, hsend]
        rfl
      · rw [hfrees, hnear]
      · obtain ⟨hactive, hall⟩ := hfit (hroom.2 hr)
        exact ⟨hactive, by rw [hall]; rfl⟩
      · have hlast := hfull (fun hr' => hr (hroom.1 hr'))
        rw [getLast?_cons, hlast]
        rfl
    · obtain ⟨t, hwrite, ht, hfrees, hstate, hw'⟩ := h.refuse halive hw
      obtain ⟨u, hsend, hu, hfrees', hstate'⟩ :=
        ht.sendSubscriptions_refused (hfrees.trans halive) (Outbound.not_writable_of_closed hw') keys
      have hnot : ¬HasRoomFor (key :: keys).length s.near.pipe := by
        intro hr
        refine hw ⟨hout, hst, h.ahead.full_iff.2 fun hpos => ?_⟩
        have := hr hpos
        simp only [length_cons] at this
        omega
      refine ⟨false :: replicate keys.length false, u, ?_, hu, hfrees'.trans hfrees,
        (hstate'.trans hstate).trans hst, fun hr => absurd hr hnot, fun _ => ?_⟩
      · simp only [Link.sendSubscriptions, hwrite, hsend]
        rfl
      · rw [← replicate_succ, getLast?_replicate]
        rfl

end Outlet

namespace XsubSystem

lemma resend_cases (s : XsubSystem) {p : ℕ} (hl : Outlet (s.links p))
    (halive : (s.links p).near.frees = 0) (hst : (s.links p).near.pipe.state = .active)
    (hout : (s.links p).near.pipe.outActive = true) :
    (∃ e, s.resend p = .error (.trie e)) ∨
    ∃ l b, s.resend p = .ok { s with
        links := update s.links p l
        blocked := update s.blocked p b } ∧
      Outlet l ∧ l.near.frees = 0 ∧
      (HasRoomFor s.xsub.cached (s.links p).near.pipe → Link.unblocks l.near.pipe = false ∧
        b = if s.xsub.cached = 0 then s.blocked p else false) ∧
      (¬HasRoomFor s.xsub.cached (s.links p).near.pipe → b = true) := by
  unfold resend Xsub.cached
  cases s.xsub.subscriptions.apply with
  | error e => exact .inl ⟨e, rfl⟩
  | ok keys =>
    obtain ⟨results, t, hsend, ht, hfrees, hstate, hfit, hfull⟩ :=
      hl.sendSubscriptions halive hst hout keys
    obtain ⟨u, hflush, hu, hnear⟩ := ht.flush (hfrees.trans halive) hstate
    refine .inr ⟨u, blockedAfter (s.blocked p) results, ?_, hu, ?_, fun hr => ⟨?_, ?_⟩, fun hr => ?_⟩
    · simp only [hsend, hflush]
    · rw [hnear, hfrees, halive]
    · simp [Link.unblocks, hnear, (hfit hr).1]
    · rw [(hfit hr).2]
      cases keys with
      | nil => rfl
      | cons key keys => simp [blockedAfter, getLast?_replicate]
    · simp [blockedAfter, hfull hr]

end XsubSystem

/-! ### The invariant -/

/-- The passive pipes are the blocked ones. -/
structure XsubInv (s : XsubSystem) : Prop where
  fanout : Fanout s.xsub.dist s.links s.count
  passive : ∀ p, s.xsub.dist.Mem p → (s.blocked p = true ↔ ¬s.xsub.dist.IsEligible p)
  misused : s.misused = false

namespace XsubInv

variable {s : XsubSystem}

lemma new : XsubInv XsubSystem.new where
  fanout := Fanout.new _
  passive p hp := absurd hp (by simp [XsubSystem.new, Xsub.new, Dist.new, Dist.Mem, PipeArray.empty])
  misused := rfl

section

variable (h : XsubInv s)

include h

lemma not_blocked {p : ℕ} (hp : s.xsub.dist.IsEligible p) : s.blocked p = false := by
  have := h.passive p hp.1
  simpa [hp] using this

lemma attach (hwm0 hwm1 : ℤ) (hgood : s.Good (.attach hwm0 hwm1)) :
    (∃ t, s.step (.attach hwm0 hwm1) = .ok t ∧ XsubInv t) ∨
      ∃ e, s.step (.attach hwm0 hwm1) = .error (.trie e) := by
  generalize hl : Link.pipepair hwm0 hwm1 = l at *
  have hpair : Outlet l := hl ▸ Outlet.pipepair hwm0 hwm1
  have hfresh : l.near.frees = 0 ∧ l.near.pipe.state = .active ∧ l.near.pipe.outActive = true := by
    rw [← hl]
    exact ⟨rfl, rfl, rfl⟩
  obtain ⟨d, hd, -⟩ := h.fanout.dist.attach h.fanout.count_notMem
  generalize hs1 : ({ s with
      xsub := { s.xsub with dist := d }
      links := update s.links s.count l
      count := s.count + 1
      blocked := update s.blocked s.count false } : XsubSystem) = s1
  have hstep : s.step (.attach hwm0 hwm1) = s1.resend s.count := by
    simp only [XsubSystem.step, XsubSystem.xattachPipe, hd, hl, hs1]
  have hlink : s1.links s.count = l := by
    rw [← hs1]
    exact update_self ..
  have hold : s1.blocked s.count = false := by
    rw [← hs1]
    exact update_self ..
  rw [hstep]
  obtain hfail | ⟨l', b, hresend, hl', hfrees, hfit, -⟩ := s1.resend_cases (p := s.count)
    (by rw [hlink]; exact hpair) (by rw [hlink]; exact hfresh.1) (by rw [hlink]; exact hfresh.2.1)
    (by rw [hlink]; exact hfresh.2.2)
  · exact .inr hfail
  have hroom : HasRoomFor s1.xsub.cached (s1.links s.count).near.pipe := by
    rw [hlink, ← hs1, ← hl]
    exact hgood
  obtain ⟨hawake, hb⟩ := hfit hroom
  obtain rfl : b = false := by
    rw [hb, hold, ite_self]
  obtain ⟨d', hd', -, hholds, hfanout⟩ := h.fanout.attach hfrees hl' hawake
  obtain rfl : d' = d := Option.some.inj (hd'.symm.trans hd)
  refine .inl ⟨_, hresend, ?_, fun q hq => ?_, ?_⟩
  · rw [← hs1]
    simp only [update_idem]
    exact hfanout
  · have hq' : d'.Mem q := by
      rw [← hs1] at hq
      exact hq
    have helig := hholds.eligible_iff q
    rw [← hs1]
    simp only [update_idem]
    by_cases hqc : q = s.count
    · rw [hqc] at helig ⊢
      simp [helig]
    · rw [update_of_ne hqc, helig, h.passive q (((hholds.mem_iff q).1 hq').resolve_right hqc)]
      simp [hqc]
  · rw [← hs1]
    exact h.misused

lemma send (flags : MsgFlags) (body : List UInt8) :
    (∃ t, s.step (.send flags body) = .ok t ∧ XsubInv t) ∨
      ∃ e, s.step (.send flags body) = .error (.trie e) := by
  generalize hm : (⟨.data, flags, body⟩ : Msg) = m
  have hdata : m.type = .data := by rw [← hm]
  simp only [XsubSystem.step, Xsub.xsend, hm]
  cases Xsub.forward s.xsub.subscriptions body with
  | error e => exact .inr ⟨e, rfl⟩
  | ok r =>
    obtain ⟨forward, t⟩ := r
    cases forward with
    | false => exact .inl ⟨_, rfl, h.fanout, h.passive, h.misused⟩
    | true =>
      obtain ⟨taken, log, d, links, hsend, -, hholds, hfanout, -, hin, hout⟩ :=
        h.fanout.sendToAll hdata
      refine .inl ⟨{ s with
        xsub := { s.xsub with subscriptions := t, dist := d }
        links := links
        blocked := fun q => XsubSystem.blockedAfter (s.blocked q) (log.lookup q).toList }, ?_, hfanout,
        fun q hq => ?_, h.misused⟩
      · simp only [hsend]
      · have hold := h.passive q ((hholds.mem_iff q).1 hq)
        have helig := hholds.eligible_iff q
        simp only [helig]
        by_cases hq' : s.xsub.dist.IsActive q
        · simp [(hin q hq').2, XsubSystem.blockedAfter, hq', hq'.isEligible h.fanout.dist]
        · simpa [(hout q hq').2, XsubSystem.blockedAfter, hq'] using hold

lemma hiccuped {p : ℕ} {l : Link} (hp : p < s.count)
    (halive : (s.links p).near.frees = 0) (hl : Outlet l) (hfrees : l.near.frees = 0)
    (hst : l.near.pipe.state = .active) (hout : l.near.pipe.outActive = true)
    (hgood : s.xsub.immediate = false →
      if s.xsub.dist.pipes.index p < s.xsub.dist.eligible then HasRoomFor s.xsub.cached l.near.pipe
      else s.xsub.cached = 0 ∨ ¬HasRoomFor s.xsub.cached l.near.pipe) :
    (∃ t, XsubSystem.hiccuped { s with links := update s.links p l } p = .ok t ∧ XsubInv t) ∨
      ∃ e, XsubSystem.hiccuped { s with links := update s.links p l } p =
        .error (.trie e) := by
  generalize hs1 : ({ s with links := update s.links p l } : XsubSystem) = s1
  have hlink : s1.links p = l := by
    rw [← hs1]
    exact update_self ..
  have hmem : s.xsub.dist.Mem p := (h.fanout.mem_iff p).2 ⟨hp, halive⟩
  have hsame : ∀ {l' : Link}, l'.near.frees = 0 → l'.near.frees = (s.links p).near.frees :=
    fun hl' => hl'.trans halive.symm
  unfold XsubSystem.hiccuped
  split_ifs with himm
  · obtain ⟨t, hterm, ht, htfrees, hawake, -⟩ := hl.terminate hfrees hst false
    refine .inl ⟨{ s1 with links := update s1.links p t }, ?_, ?_⟩
    · rw [hlink, hterm]
    · rw [← hs1]
      simp only [update_idem]
      exact ⟨h.fanout.update (hsame htfrees) ht fun _ => hawake, h.passive, h.misused⟩
  · have hgood := hgood (by
      rw [← hs1] at himm
      simpa using himm)
    obtain hfail | ⟨l', b, hresend, hl', hfrees', hfit, hfull⟩ := s1.resend_cases (p := p)
      (by rw [hlink]; exact hl) (by rw [hlink]; exact hfrees) (by rw [hlink]; exact hst)
      (by rw [hlink]; exact hout)
    · exact .inr hfail
    rw [hlink, ← hs1] at hfit hfull
    refine .inl ⟨_, hresend, ?_⟩
    rw [← hs1]
    simp only [update_idem]
    -- The last subscription was refused exactly if the pipe is passive.
    have hb : b = true ↔ ¬s.xsub.dist.IsEligible p := by
      have hold := h.passive p hmem
      by_cases hidx : s.xsub.dist.pipes.index p < s.xsub.dist.eligible
      · rw [if_pos hidx] at hgood
        have helig : s.xsub.dist.IsEligible p := ⟨hmem, hidx⟩
        rw [(hfit hgood).2, h.not_blocked helig, ite_self]
        simp [helig]
      · rw [if_neg hidx] at hgood
        have hpassive : ¬s.xsub.dist.IsEligible p := fun helig => hidx helig.2
        simp only [hpassive, not_false_iff, iff_true] at hold ⊢
        by_cases hroom : HasRoomFor s.xsub.cached l.near.pipe
        · rw [(hfit hroom).2, if_pos (hgood.resolve_right (not_not_intro hroom))]
          exact hold
        · exact hfull hroom
    refine ⟨h.fanout.update (hsame hfrees') hl' fun helig => ?_, fun q hq => ?_, h.misused⟩
    · by_contra hblocked
      have hroom : ¬HasRoomFor s.xsub.cached l.near.pipe := fun hr => hblocked (hfit hr).1
      exact hb.1 (hfull hroom) helig
    · by_cases hqp : q = p
      · subst hqp
        simpa using hb
      · simp only [update_of_ne hqp]
        exact h.passive q hq

lemma owner (p : ℕ) (a : { a : EndAct // a.KeepsOutput })
    (hgood : s.Good (.owner p a)) :
    (∃ t, s.step (.owner p a) = .ok t ∧ XsubInv t) ∨
      ∃ e, s.step (.owner p a) = .error (.trie e) := by
  simp only [XsubSystem.step]
  split_ifs with hp
  swap
  · exact .inl ⟨s, rfl, h⟩
  obtain ⟨l, e, hact, hacted⟩ := (h.fanout.outlet p hp).act a.2
  simp only [hact]
  by_cases halive : (s.links p).near.frees = 0
  swap
  · obtain ⟨rfl, rfl⟩ := hacted.dead halive
    rw [update_eq_self]
    exact .inl ⟨s, rfl, h⟩
  have hmem : s.xsub.dist.Mem p := (h.fanout.mem_iff p).2 ⟨hp, halive⟩
  have hfrees : e ≠ some .pipeTerminated → l.near.frees = (s.links p).near.frees := fun hne =>
    (not_not.1 (mt (hacted.gone halive).1 hne)).trans halive.symm
  have hquiet : e ≠ some .pipeTerminated → e ≠ some .hiccuped →
      XsubInv { s with links := update s.links p l } := fun hterm hhic =>
    ⟨h.fanout.update (hfrees hterm) hacted.outlet fun helig =>
      hacted.keeps hhic (h.fanout.awake p helig), h.passive, h.misused⟩
  rcases e with _ | e
  · exact .inl ⟨_, rfl, hquiet (by decide) (by decide)⟩
  cases e with
  | readActivated => exact .inl ⟨_, rfl, hquiet (by decide) (by decide)⟩
  | writeActivated =>
    obtain ⟨hunblocks, hawake⟩ := hacted.unblocked rfl
    have hpassive : ¬s.xsub.dist.IsEligible p := by
      intro helig
      rw [h.fanout.awake p helig] at hunblocks
      cases hunblocks
    obtain ⟨d, hd, -, hholds⟩ := h.fanout.dist.activated hmem hpassive
    have hidx : ¬s.xsub.dist.pipes.index p < s.xsub.dist.eligible := fun hlt => hpassive ⟨hmem, hlt⟩
    refine .inl ⟨{ s with
      xsub := { s.xsub with dist := d }
      links := update s.links p l
      blocked := update s.blocked p false
      misused := s.misused || s.xsub.dist.pipes.index p < s.xsub.dist.eligible }, ?_, ?_,
      fun q hq => ?_, ?_⟩
    · simp only [XsubSystem.react, XsubSystem.xwriteActivated, hd]
    · refine h.fanout.set hholds (hfrees (by decide)) hacted.outlet ?_ fun _ => hawake
      rintro q (hq | hq) hqp
      · exact hq
      · exact absurd hq hqp
    · have helig := hholds.eligible_iff q
      simp only [helig]
      by_cases hqp : q = p
      · subst hqp
        simp
      · simp only [update_of_ne hqp, hqp, or_false]
        exact h.passive q ((hholds.mem_iff q).1 hq)
    · simpa [h.misused] using hidx
  | pipeTerminated =>
    obtain ⟨d, hd, -, hholds, hfanout⟩ :=
      h.fanout.pipeTerminated hmem ((hacted.gone halive).2 rfl) hacted.outlet
    refine .inl ⟨{ s with
      xsub := { s.xsub with dist := d }
      links := update s.links p l }, ?_, hfanout, fun q hq => ?_, h.misused⟩
    · simp only [XsubSystem.react, XsubSystem.xpipeTerminated, hd]
    · obtain ⟨hq, hqp⟩ := (hholds.mem_iff q).1 hq
      have helig := hholds.eligible_iff q
      simp only [helig]
      simpa [hqp] using h.passive q hq
  | hiccuped =>
    obtain ⟨ha, ⟨j, hin⟩, hst, hst', hout, hhwm, hwritten, hread⟩ := hacted.hiccuped rfl
    have hhic : (s.links p).hiccups = true := by
      unfold Link.hiccups
      cases hbox : (s.links p).near.inbox with
      | nil => simp [hbox] at hin
      | cons c cs =>
        rw [hbox, head?_cons, Option.some.injEq] at hin
        rw [hin]
    have hroom : ∀ n, HasRoomFor n l.near.pipe ↔ HasRoomFor n (s.links p).near.pipe := by
      intro n
      simp only [HasRoomFor, hhwm, hwritten, hread]
    refine h.hiccuped hp halive hacted.outlet ((hfrees (by decide)).trans halive) hst' hout fun himm => ?_
    have := hgood ha hhic hst himm
    simpa only [hroom] using this

lemma peer (p : ℕ) (a : EndAct) : ∃ t, s.step (.peer p a) = .ok t ∧ XsubInv t := by
  simp only [XsubSystem.step]
  split_ifs with hp
  · obtain ⟨t, e, hact, hoff, hpipe, hfrees⟩ := (h.fanout.outlet p hp).far a
    rw [hact]
    refine ⟨_, rfl, h.fanout.update hfrees hoff fun helig => ?_, h.passive, h.misused⟩
    rw [hpipe]
    exact h.fanout.awake p helig
  · exact ⟨s, rfl, h⟩

lemma step (a : XsubAct) (hgood : s.Good a) :
    (∃ t, s.step a = .ok t ∧ XsubInv t) ∨ ∃ e, s.step a = .error (.trie e) := by
  cases a with
  | attach hwm0 hwm1 => exact h.attach hwm0 hwm1 hgood
  | setImmediate immediate => exact .inl ⟨_, rfl, h.fanout, h.passive, h.misused⟩
  | send flags body => exact h.send flags body
  | owner p a => exact h.owner p a hgood
  | peer p a => exact .inl (h.peer p a)

lemma partitioned : s.Partitioned where
  matching := h.fanout.dist.matching
  active := h.fanout.dist.active
  eligible := h.fanout.dist.eligible
  index := h.fanout.dist.pipes
  passive p hp := by
    rw [h.passive p hp, Dist.IsEligible]
    simp [show s.xsub.dist.Mem p from hp]
  misused := h.misused

end

end XsubInv

/-- **The distributor of a subscriber keeps its parts.** In every run in which the subscriptions fit into
each new pipe and each hiccuped pipe that is not passive, and do not all fit into a hiccuped pipe that is
passive, no access is out of bounds, the parts of the array are in order, the passive pipes are the ones
that were last found unwritable, and only passive pipes are activated. -/
theorem xsub_dist_partitioned (acts : List XsubAct)
    (hgood : StepsMeet XsubSystem.step XsubSystem.Good XsubSystem.new acts) :
    (∀ e, XsubSystem.new.run acts ≠ .error (.pattern e)) ∧
      ∀ s, XsubSystem.new.run acts = .ok s → s.Partitioned := by
  have hstep : ∀ s a, XsubInv s → s.Good a → (∃ t, s.step a = .ok t ∧ XsubInv t) ∨
      ∃ e, s.step a = .error e ∧ ∃ e', e = .trie e' := by
    intro s a h hg
    obtain hok | ⟨e, he⟩ := h.step a hg
    · exact .inl hok
    · exact .inr ⟨_, he, e, rfl⟩
  unfold XsubSystem.run
  obtain ⟨s, hrun, hs⟩ | ⟨e, hrun, e', rfl⟩ := runSteps_outcome hstep XsubInv.new hgood
  · refine ⟨fun e he => ?_, fun t ht => ?_⟩
    · rw [hrun] at he
      cases he
    · obtain rfl : s = t := Except.ok.inj (hrun.symm.trans ht)
      exact hs.partitioned
  · refine ⟨fun e he => ?_, fun t ht => ?_⟩
    · rw [hrun] at he
      cases he
    · rw [hrun] at ht
      cases ht

/-- A subscription and a message fill a new pipe, and the next message is refused. The peer reads, the
pipe is activated and then hiccups. -/
theorem xsub_dist_partitioned_full :
    ∃ s, XsubSystem.new.run [.send MsgFlags.none [1, 65], .attach 2 1, .send MsgFlags.none [7],
        .send MsgFlags.none [8], .peer 0 .read, .owner 0 ⟨.deliver, trivial⟩, .peer 0 .hiccup,
        .owner 0 ⟨.deliver, trivial⟩, .send MsgFlags.none [9]] = .ok s ∧ s.Partitioned :=
  okAnd.exists_imp (P := fun _ => True) (by decide) fun s hs _ => (xsub_dist_partitioned _ (by decide)).2 s hs

/-- A new pipe has room for one of two subscriptions only. It refuses the other one, and the distributor
takes it for an active one. When the peer has read the first, the pipe is activated although it is not
passive, and the array is accessed outside of its bounds. -/
theorem xsub_dist_not_partitioned :
    (∃ s, XsubSystem.new.run [.send MsgFlags.none [1, 65], .send MsgFlags.none [1, 66], .attach 1 1] =
      .ok s ∧ ¬s.Partitioned) ∧
    XsubSystem.new.run [.send MsgFlags.none [1, 65], .send MsgFlags.none [1, 66], .attach 1 1,
      .peer 0 .read, .owner 0 ⟨.deliver, trivial⟩] = .error (.pattern .outOfBounds) := by
  refine ⟨⟨_, rfl, fun h => ?_⟩, rfl⟩
  have hpassive := (h.passive 0 (mem_of_getElem? (i := 0) rfl)).2 rfl
  exact absurd hpassive (by decide)

end Zmq
