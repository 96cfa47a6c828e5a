import ZeroMQ.Pattern.XpubSteps
import ZeroMQ.Pipe.Watermarks

/-!
# A publisher that does not drop

With `ZMQ_XPUB_NODROP` a publisher asks all pipes a frame goes to for room before it sends the frame. The
question is not the one a write asks itself: `pipe_t::check_write` finds an end full when the counters
differ by the high watermark, and `pipe_t::check_hwm` when they differ by one less.

The two agree unless the counters differ by one less than the watermark. An end with a high watermark of
one is never found to have room.
-/

namespace Zmq

open Foundation Function List Except Prod

namespace Link

/-! ### The two tests -/

/-- The two tests give the same answer for an active end with these counters. A writer that was stopped
before is not asked again until it is activated, which the counters do not tell. -/
def TestsAgree (s : Link) : Prop := s.checkHwm = (s.modifyPipe fun p => { p with outActive := true }).checkWrite.1

instance (s : Link) : Decidable s.TestsAgree := inferInstanceAs (Decidable (_ = _))

/-- There is room for one message. -/
def OneShort (s : Link) : Prop :=
  0 < s.near.pipe.hwm ∧ (s.near.pipe.msgsWritten : ℤ) - s.near.pipe.peersMsgsRead = s.near.pipe.hwm - 1

/-- The peer has read all messages that were written, and everything it has to say about that has
arrived. -/
def Drained (s : Link) : Prop :=
  s.near.pipe.msgsWritten = s.far.pipe.msgsRead ∧ ∀ n, .activateWrite n ∉ s.near.inbox

variable {s : Link}

lemma checkHwm_eq_false (h : Ahead s) : s.checkHwm = false ↔ full s.near.pipe = true ∨ s.OneShort := by
  have hcredit := h.credit
  simp only [checkHwm, full, OneShort, Bool.not_eq_false', decide_eq_true_eq]
  omega

lemma testsAgree_iff (h : Ahead s) (hst : s.near.pipe.state = .active) : s.TestsAgree ↔ ¬s.OneShort := by
  have hwrite : (s.modifyPipe fun p => { p with outActive := true }).checkWrite.1 = true ↔
      full s.near.pipe = false := by
    rw [Outbound.checkWrite_iff]
    exact ⟨fun hw => hw.2.2, fun hroom => ⟨rfl, hst, hroom⟩⟩
  have hhwm : s.checkHwm = true ↔ full s.near.pipe = false ∧ ¬s.OneShort := by
    rw [← Bool.not_eq_false, checkHwm_eq_false h, not_or, Bool.not_eq_true]
  have hapart : s.OneShort → full s.near.pipe = false := by
    intro hone
    have := hone.2
    simp only [full, decide_eq_false_iff_not]
    omega
  rw [TestsAgree, Bool.eq_iff_iff, hwrite, hhwm]
  constructor
  · intro hiff hone
    exact (hiff.2 (hapart hone)).2 hone
  · exact fun hno => and_iff_left hno

lemma computeLwm_lt {hwm : ℤ} (h : 1 < hwm) : computeLwm hwm < hwm := by
  unfold computeLwm maxWmDelta
  split
  · omega
  · rw [Int.tdiv_eq_ediv_of_nonneg (by omega)]
    omega

lemma checkHwm_of_drained (h : Accounted s) (hdrained : s.Drained) : s.checkHwm = true ↔ s.near.pipe.hwm ≠ 1 := by
  have hnil : reports s.near.inbox = [] := by
    rw [eq_nil_iff_forall_not_mem]
    exact fun n hn => hdrained.2 n (mem_reports.1 hn)
  have hwritten := hdrained.1
  have hseen := h.ahead.reports.seen_le_now
  have hroom : 1 < s.near.pipe.hwm →
      (s.near.pipe.msgsWritten : ℤ) - s.near.pipe.peersMsgsRead < s.near.pipe.hwm - 1 := by
    intro hpos
    have hwindow := h.window (by omega)
    rw [hnil] at hwindow
    have hbehind : s.far.pipe.msgsRead < s.near.pipe.peersMsgsRead + s.far.pipe.lwm.toNat := by
      by_contra hge
      obtain ⟨n, hn, -⟩ := hwindow.exists_newer (by omega)
      exact not_mem_nil hn
    have hlwm := computeLwm_lt hpos
    have hnear : 0 < s.near.pipe.hwm := by omega
    have hbounds := (FlowInv.computeLwm_bounds hnear).1
    have hlwm_eq := h.lwm_eq
    omega
  simp only [checkHwm, Bool.not_eq_true', decide_eq_false_iff_not]
  omega

end Link

lemma Dist.WF.mem_take {d : Dist} (h : d.WF) (p : ℕ) : p ∈ d.pipes.items.take d.matching ↔ d.IsMatching p := by
  rw [List.mem_take_iff_getElem, Dist.IsMatching, Dist.Mem]
  constructor
  · rintro ⟨i, hi, hget⟩
    have hget' : d.pipes.items[i]? = some p := List.getElem?_eq_some_iff.2 ⟨by omega, hget⟩
    refine ⟨List.mem_of_getElem? hget', ?_⟩
    rw [h.pipes i p hget']
    omega
  · rintro ⟨hmem, hlt⟩
    obtain ⟨hbound, hget⟩ := List.getElem?_eq_some_iff.1 (h.pipes.at_index hmem)
    exact ⟨d.pipes.index p, by omega, hget⟩

namespace Stopped

variable {s t : Link} {a : EndAct} {m : Msg}

open Link

lemma flush (h : Stopped s) (hs : ShutdownInv s) (halive : s.near.frees = 0) (hflush : s.flush = .ok t) :
    Stopped t := by
  refine h.act (a := .flush) (e := none) hs ?_
  simp only [Link.act, Link.call, halive, if_true, hflush]
  rfl

lemma offer (h : Stopped s) (hs : Outlet s) (halive : s.near.frees = 0) (hm : m.type = .data)
    {taken : Bool} (hoffer : s.offer m = .ok (taken, t)) : Stopped t := by
  obtain ⟨type, flags, body⟩ := m
  obtain rfl : type = .data := hm
  have hact : ∀ {b u}, s.write ⟨.data, flags, body⟩ = .ok (b, u) → Stopped u := by
    intro b u hwrite
    refine h.act (a := .write flags body) (e := none) hs.shutdown ?_
    simp only [Link.act, Link.call, halive, if_true, hwrite]
    rfl
  unfold Link.offer at hoffer
  by_cases hw : Outbound.Writable s.near.pipe
  · obtain ⟨u, hwrite, hu, hnear⟩ := hs.write halive (m := ⟨.data, flags, body⟩) rfl hw
    have hstopped := hact hwrite
    rw [hwrite] at hoffer
    dsimp only at hoffer
    split at hoffer
    · obtain ⟨rfl, rfl⟩ := mk.inj (ok.inj hoffer)
      exact hstopped
    have hlive : u.near.frees = 0 := by
      rw [hnear]
      exact halive
    cases hflush : u.flush with
    | error e =>
      rw [hflush] at hoffer
      cases hoffer
    | ok v =>
      rw [hflush] at hoffer
      obtain ⟨rfl, rfl⟩ := mk.inj (ok.inj hoffer)
      exact hstopped.flush hu.shutdown hlive hflush
  · obtain ⟨u, hwrite, -⟩ := hs.refuse halive hw
    have hstopped := hact (hwrite ⟨.data, flags, body⟩)
    rw [hwrite] at hoffer
    obtain ⟨rfl, rfl⟩ := mk.inj (ok.inj hoffer)
    exact hstopped

lemma socketAct (h : Stopped s) (hs : Outlet s) (ha : a.KeepsOutput) {e : Option SinkEvent}
    (hact : s.socketAct a = .ok (t, e)) : Stopped t := by
  obtain ⟨u, e', hact', hu⟩ := hs.act ha
  have hstopped := h.act hs.shutdown hact'
  simp only [Link.socketAct, hact'] at hact
  by_cases he : e' = some .hiccuped
  · subst he
    obtain ⟨-, -, hst, hst', -⟩ := hu.hiccuped rfl
    have halive : s.near.frees = 0 := by
      by_contra hne
      exact absurd (hu.dead hne).2 (by simp)
    have halive' : u.near.frees = 0 := by
      by_contra hne
      exact absurd ((hu.gone halive).1 hne) (by simp)
    obtain ⟨v, hterm, -, -, -, hclosed⟩ := hu.outlet.terminate halive' hst' false
    simp only [hterm] at hact
    obtain ⟨rfl, rfl⟩ := mk.inj (ok.inj hact)
    intro hactive
    exact absurd (hclosed.symm.trans hactive) (by decide)
  · have hsame : (.ok (u, e') : Except PipeFault _) = .ok (t, e) := by
      rw [← hact]
      split
      next heq => cases heq
      next heq => exact absurd (mk.inj (ok.inj heq)).2 he
      next heq => exact heq.symm ▸ rfl
    obtain ⟨rfl, rfl⟩ := mk.inj (ok.inj hsame)
    exact hstopped

end Stopped

/-! ### The publisher -/

namespace XpubSystem

/-- The pipes a frame is for: the marked ones, and for the first frame of a message those that are
subscribed to a prefix of it. -/
def Concerns (s : XpubSystem) (body : List UInt8) (p : ℕ) : Prop :=
  s.xpub.dist.IsMatching p ∨ (s.xpub.more = false ∧ s.Alive p ∧ s.subscribed.Matches p body)

/-- `xpub_t::xsend` returns `EAGAIN`. -/
def Again (s : XpubSystem) (flags : MsgFlags) (body : List UInt8) : Prop :=
  ∃ x links, s.xpub.xsend ⟨.data, flags, body⟩ s.links = .ok (none, x, links)

/-- Some pipe the frame is for would refuse it. -/
def WouldDrop (s : XpubSystem) (body : List UInt8) : Prop :=
  ∃ p, s.Concerns body p ∧ (s.links p).checkWrite.1 = false

/-- A pipe is full or being closed. -/
def Refuses (s : XpubSystem) (p : ℕ) : Prop :=
  Link.full (s.links p).near.pipe = true ∨ (s.links p).near.pipe.state ≠ .active

/-- Where the publisher goes by the right pipes: if one it asks has room for one message only, another the
frame is for is full or being closed; and if one is being closed, or full and not asked, another one that
is asked has room for one message at most. -/
structure Clear (s : XpubSystem) (body : List UInt8) : Prop where
  short : ∀ p, s.Target body p → (s.links p).OneShort → ∃ q, s.Concerns body q ∧ s.Refuses q
  apart : ∀ p, s.Concerns body p → s.Refuses p →
    (s.links p).near.pipe.state ≠ .active ∨ ¬s.Target body p →
    ∃ q, s.Target body q ∧ (Link.full (s.links q).near.pipe = true ∨ (s.links q).OneShort)

end XpubSystem

/-- The invariant of the publisher, with what is known of its pipes. -/
structure XpubNodrop (s : XpubSystem) : Prop where
  core : XpubCore s
  stopped : ∀ p < s.count, Stopped (s.links p)

namespace XpubNodrop

variable {s t : XpubSystem} {p : ℕ} {l : Link}

lemma new (pub : Bool) : XpubNodrop (XpubSystem.new pub) := ⟨.new pub, fun p hp => absurd hp (Nat.not_lt_zero p)⟩

lemma stopped_update (h : XpubNodrop s) (hl : Stopped l) :
    ∀ q < s.count, Stopped (update s.links p l q) := fun _ hq =>
  Pipes.update_of_imp (P := Stopped) (fun _ => hl) (h.stopped _ hq)

lemma stopped_send (h : XpubNodrop s) {d d' : Dist} {m : Msg} {log : List (ℕ × Bool)} {links : Pipes}
    (hd : Fanout d s.links s.count) (hm : m.type = .data)
    (hsend : d.sendToMatching m s.links = .ok (log, d', links)) : ∀ q < s.count, Stopped (links q) := by
  have hex : ∀ q, ∃ r : Bool × Link, d.IsMatching q → (s.links q).offer m = .ok r ∧ Stopped r.2 := by
    intro q
    by_cases hq : d.IsMatching q
    · have hout := hd.outlet_of_mem hq.1
      obtain ⟨taken, u, hoffer, -⟩ := hout.offer (hd.alive hq.1) hm
      have hlt := ((hd.mem_iff q).1 hq.1).1
      exact ⟨(taken, u), fun _ => ⟨hoffer, (h.stopped q hlt).offer hout (hd.alive hq.1) hm hoffer⟩⟩
    · exact ⟨(false, s.links q), fun hq' => absurd hq' hq⟩
  choose r hr using hex
  obtain ⟨log', d'', links', hsend', -, -, -, hin, hout⟩ :=
    Dist.WF.sendToMatching (t := fun q => (r q).1) (a := fun q => (r q).2) hd.dist (fun q hq => (hr q hq).1)
  rw [hsend] at hsend'
  obtain ⟨-, -, rfl⟩ : log = log' ∧ d' = d'' ∧ links = links' := by
    simpa only [ok.injEq, mk.injEq] using hsend'
  intro q hq
  by_cases hmatch : d.IsMatching q
  · rw [(hin q hmatch).1]
    exact (hr q hmatch).2
  · rw [(hout q hmatch).1]
    exact h.stopped q hq

lemma attach_links {hwm0 hwm1 : ℤ} {subscribeToAll : Bool} (hstep : s.step (.attach hwm0 hwm1 subscribeToAll) = .ok t) :
    t.links = update s.links s.count (Link.pipepair hwm0 hwm1) ∧ t.count = s.count + 1 := by
  simp only [XpubSystem.step, XpubSystem.xattachPipe] at hstep
  split at hstep
  · cases hstep
  split at hstep
  · split at hstep
    · cases hstep
    · rw [← ok.inj hstep]
      exact ⟨rfl, rfl⟩
  · rw [← ok.inj hstep]
    exact ⟨rfl, rfl⟩

lemma react_links {e : Option SinkEvent} (hreact : s.react p e = .ok t) : t.links = s.links ∧ t.count = s.count := by
  simp only [XpubSystem.react] at hreact
  split at hreact
  · split at hreact
    · cases hreact
    · rw [← ok.inj hreact]
      exact ⟨rfl, rfl⟩
  · split at hreact
    · cases hreact
    · rw [← ok.inj hreact]
      exact ⟨rfl, rfl⟩
  · rw [← ok.inj hreact]
    exact ⟨rfl, rfl⟩

lemma stopped_step (h : XpubNodrop s) {a : XpubAct} (hstep : s.step a = .ok t) :
    ∀ q < t.count, Stopped (t.links q) := by
  cases a with
  | attach hwm0 hwm1 subscribeToAll =>
    have hnew := attach_links hstep
    rw [hnew.1, hnew.2]
    intro q hq
    by_cases hqc : q = s.count
    · rw [hqc, update_self]
      exact .pipepair hwm0 hwm1
    · rw [update_of_ne hqc]
      exact h.stopped q (by omega)
  | setVerbose verbose | setNodrop nodrop =>
    rw [← ok.inj hstep]
    exact h.stopped
  | recv =>
    simp only [XpubSystem.step] at hstep
    split at hstep <;>
    · rw [← ok.inj hstep]
      exact h.stopped
  | send flags body =>
    obtain ⟨d, hmark, hmore, hholds⟩ := h.core.mark body
    have hfanout : Fanout d s.links s.count :=
      ⟨hholds.wf, fun q => (hholds.mem_iff q).trans (h.core.fanout.mem_iff q), h.core.fanout.outlet,
        fun q hq => h.core.fanout.awake q ((hholds.eligible_iff q).1 hq)⟩
    simp only [XpubSystem.step, Xpub.xsend, hmark] at hstep
    by_cases hhwm : (s.xpub.lossy || d.checkHwm s.links) = true
    · rw [if_pos hhwm] at hstep
      cases hsend : d.sendToMatching ⟨.data, flags, body⟩ s.links with
      | error e =>
        rw [hsend] at hstep
        cases hstep
      | ok r =>
        rw [hsend] at hstep
        rw [← ok.inj hstep]
        exact h.stopped_send hfanout rfl hsend
    · rw [if_neg hhwm] at hstep
      rw [← ok.inj hstep]
      exact h.stopped
  | read p =>
    simp only [XpubSystem.step] at hstep
    split_ifs at hstep with hp
    swap
    · rw [← ok.inj hstep]
      exact h.stopped
    have hread : ∀ {r l}, (s.links p).read = .ok (r, l) → Stopped l := by
      intro r l hread
      refine (h.stopped p hp.1).act (a := .read) (e := none) (h.core.fanout.outlet p hp.1).shutdown ?_
      simp only [Link.act, Link.call, hp.2, if_true, hread]
      rfl
    simp only [XpubSystem.xread] at hstep
    split at hstep
    next => cases hstep
    next hr =>
      rw [← ok.inj hstep]
      exact h.stopped_update (hread hr)
    next hr =>
      split at hstep
      · cases hstep
      · rw [← ok.inj hstep]
        exact h.stopped_update (hread hr)
  | owner p a =>
    simp only [XpubSystem.step] at hstep
    split_ifs at hstep with hp
    swap
    · rw [← ok.inj hstep]
      exact h.stopped
    split at hstep
    next => cases hstep
    next l e hact =>
      have hl := (h.stopped p hp).socketAct (h.core.fanout.outlet p hp) a.2.keepsOutput hact
      have hsame := react_links hstep
      rw [hsame.1, hsame.2]
      exact h.stopped_update hl
  | peer p a =>
    simp only [XpubSystem.step] at hstep
    split_ifs at hstep with hp
    swap
    · rw [← ok.inj hstep]
      exact h.stopped
    obtain ⟨l, e, hact, -, hpipe, -⟩ := (h.core.fanout.outlet p hp).far a
    rw [hact] at hstep
    rw [← ok.inj hstep]
    exact h.stopped_update ((h.stopped p hp).congr hpipe)

lemma step (h : XpubNodrop s) {a : XpubAct} (hstep : s.step a = .ok t) : XpubNodrop t := by
  refine ⟨?_, h.stopped_step hstep⟩
  obtain ⟨hfail, -⟩ | ⟨t', hstep', -, hcalm | ⟨flags, body, -, hdelivered⟩⟩ := h.core.step a
  · rw [hfail] at hstep
    cases hstep
  · exact ok.inj (hstep'.symm.trans hstep) ▸ hcalm.core
  · exact ok.inj (hstep'.symm.trans hstep) ▸ hdelivered.core

lemma run {pub : Bool} {acts : List XpubAct} (hrun : (XpubSystem.new pub).run acts = .ok s) :
    XpubNodrop s := by
  have hgood : StepsMeet XpubSystem.step (fun _ _ => True) (XpubSystem.new pub) acts :=
    stepsMeet_of_forall (fun _ _ _ => trivial) _
  exact runSteps_preserves (fun _ _ _ h _ hstep => h.step hstep) (new pub) hgood hrun

/-! ### Refusals -/

lemma concerns_of_target (h : XpubNodrop s) {body : List UInt8} (hp : s.Target body p) : s.Concerns body p :=
  hp.imp_right fun hnew => ⟨hnew.1, (h.core.alive_iff p).2 hnew.2.2.1, hnew.2.1⟩

lemma lt_count (h : XpubNodrop s) {body : List UInt8} (hp : s.Concerns body p) : p < s.count := by
  rcases hp with hmatch | hnew
  · exact ((h.core.fanout.mem_iff p).1 hmatch.1).1
  · exact hnew.2.1.1

lemma checkWrite_iff (h : XpubNodrop s) (hp : p < s.count) : (s.links p).checkWrite.1 = false ↔ s.Refuses p := by
  rw [← Bool.not_eq_true, Outbound.checkWrite_iff, XpubSystem.Refuses]
  constructor
  · intro hno
    by_contra hboth
    rw [not_or, not_not] at hboth
    have hroom : Link.full (s.links p).near.pipe = false := by simpa using hboth.1
    refine hno ⟨?_, hboth.2, hroom⟩
    by_contra hout
    have hfull := h.stopped p hp hboth.2 (by simpa using hout)
    exact hboth.1 hfull
  · rintro (hfull | hst) hw
    · exact absurd (hfull.symm.trans hw.2.2) (by decide)
    · exact hst hw.2.1

/-- The publisher returns `EAGAIN` if one of the pipes it offers the frame to has room for one message at
most. -/
lemma again_iff (h : XpubNodrop s) (hnodrop : s.xpub.lossy = false) (flags : MsgFlags)
    (body : List UInt8) : s.Again flags body ↔
      ∃ p, s.Target body p ∧ (Link.full (s.links p).near.pipe = true ∨ (s.links p).OneShort) := by
  obtain ⟨d, hmark, hmore, hholds⟩ := h.core.mark body
  have hfanout : Fanout d s.links s.count :=
    ⟨hholds.wf, fun q => (hholds.mem_iff q).trans (h.core.fanout.mem_iff q), h.core.fanout.outlet,
      fun q hq => h.core.fanout.awake q ((hholds.eligible_iff q).1 hq)⟩
  have hcheck : d.checkHwm s.links = false ↔
      ∃ p, s.Target body p ∧ (Link.full (s.links p).near.pipe = true ∨ (s.links p).OneShort) := by
    rw [Dist.checkHwm, all_eq_false]
    refine exists_congr fun p => ?_
    rw [hholds.wf.mem_take, hholds.matching_iff]
    refine and_congr_right fun hp => ?_
    have hout := h.core.fanout.outlet p (h.lt_count (h.concerns_of_target hp))
    rw [Bool.not_eq_true, Link.checkHwm_eq_false hout.ahead]
  rw [← hcheck, XpubSystem.Again]
  simp only [Xpub.xsend, hmark, hnodrop, Bool.false_or]
  cases hc : d.checkHwm s.links with
  | true =>
    obtain ⟨taken, log, d', links, hsend, -⟩ := hfanout.sendToMatching (m := ⟨.data, flags, body⟩) rfl
    simp [hsend]
  | false => simp

/-- The publisher returns `EAGAIN` exactly when a pipe would refuse the frame, if it goes by the right
pipes. -/
lemma again_iff_wouldDrop (h : XpubNodrop s) (hnodrop : s.xpub.lossy = false) (flags : MsgFlags)
    (body : List UInt8) : (s.Again flags body ↔ s.WouldDrop body) ↔ s.Clear body := by
  have hdrop : s.WouldDrop body ↔ ∃ p, s.Concerns body p ∧ s.Refuses p := by
    refine exists_congr fun p => and_congr_right fun hp => ?_
    exact h.checkWrite_iff (h.lt_count hp)
  rw [h.again_iff hnodrop, hdrop]
  constructor
  · exact fun hiff => ⟨fun p hp hone => hiff.1 ⟨p, hp, .inr hone⟩, fun p hp hrefuse _ => hiff.2 ⟨p, hp, hrefuse⟩⟩
  intro hclear
  constructor
  · rintro ⟨p, hp, hfull | hone⟩
    · exact ⟨p, h.concerns_of_target hp, .inl hfull⟩
    · exact hclear.short p hp hone
  · rintro ⟨p, hp, hrefuse⟩
    by_cases hasked : (s.links p).near.pipe.state = .active ∧ s.Target body p
    · exact ⟨p, hasked.2, .inl (hrefuse.resolve_right (not_not_intro hasked.1))⟩
    · rw [not_and_or] at hasked
      exact hclear.apart p hp hrefuse hasked

end XpubNodrop

/-- **The two tests for room.** In every run of a pair of pipe ends, whatever their watermarks are and also
if they change when a socket binds, the difference of the counters is not negative, the two tests agree for
an active end unless it has room for exactly one message, and when the peer has read everything there is
room unless the watermark is one. In every state a publisher that does not drop can reach, it returns
`EAGAIN` exactly when some pipe the frame is for would refuse it, if and only if it goes by the right
pipes. -/
theorem hwm_tests_iff (hwm0 hwm1 : ℤ) (pub : Bool) :
    (∀ acts : List PairAct,
      StepsMeet Link.pairStep Link.Unread (Link.pipepair hwm0 hwm1) acts →
      ∃ s, runSteps Link.pairStep (Link.pipepair hwm0 hwm1) acts = .ok s ∧
        ∀ u ∈ [s, s.swap], u.near.pipe.peersMsgsRead ≤ u.near.pipe.msgsWritten ∧
          (u.near.pipe.state = .active → (u.TestsAgree ↔ ¬u.OneShort)) ∧
          (u.Drained → (u.checkHwm = true ↔ u.near.pipe.hwm ≠ 1))) ∧
    ∀ (acts : List XpubAct) (s : XpubSystem), (XpubSystem.new pub).run acts = .ok s →
      s.xpub.lossy = false → ∀ (flags : MsgFlags) (body : List UInt8),
        ((s.Again flags body ↔ s.WouldDrop body) ↔ s.Clear body) := by
  constructor
  · intro acts hread
    obtain ⟨s, hrun, hs⟩ := PairInv.run hwm0 hwm1 hread
    have hend : ∀ u, PairInv u → u.near.pipe.peersMsgsRead ≤ u.near.pipe.msgsWritten ∧
        (u.near.pipe.state = .active → (u.TestsAgree ↔ ¬u.OneShort)) ∧
        (u.Drained → (u.checkHwm = true ↔ u.near.pipe.hwm ≠ 1)) := fun u hu =>
      ⟨hu.near.ahead.reports.seen_le_now.trans hu.near.read_le,
        fun hst => Link.testsAgree_iff hu.near.ahead hst, fun hd => Link.checkHwm_of_drained hu.near hd⟩
    refine ⟨s, hrun, fun u hu => ?_⟩
    simp only [mem_cons, not_mem_nil, or_false] at hu
    rcases hu with rfl | rfl
    · exact hend u hs
    · exact hend _ hs.swap
  · intro acts s hrun hnodrop flags body
    exact (XpubNodrop.run hrun).again_iff_wouldDrop hnodrop flags body

/-- A new pipe with a high watermark of one has room for a message, but not according to `check_hwm`: a
publisher that does not drop cannot send anything to it, ever. -/
theorem not_hwm_tests_agree :
    (∃ s, runSteps Link.pairStep (Link.pipepair 1 1) [] = .ok s ∧ s.near.pipe.state = .active ∧
      s.Drained ∧ s.checkHwm = false ∧ s.checkWrite.1 = true ∧ ¬s.TestsAgree) ∧
    ∃ s, (XpubSystem.new false).run [.attach 1 1 true, .setNodrop true] = .ok s ∧
      s.xpub.lossy = false ∧ s.Again MsgFlags.none [97] ∧ ¬s.WouldDrop [97] := by
  constructor
  · exact ⟨_, rfl, rfl, ⟨rfl, fun n hn => absurd hn not_mem_nil⟩, by decide, by decide, by decide⟩
  have hrun : okAnd ((XpubSystem.new false).run [.attach 1 1 true, .setNodrop true]) fun s =>
      s.xpub.lossy = false ∧ s.count = 1 ∧ (s.links 0).checkWrite.1 = true ∧
        okAnd (s.xpub.xsend ⟨.data, MsgFlags.none, [97]⟩ s.links) fun r => r.1 = none := by
    decide +kernel
  obtain ⟨s, hs, hnodrop, hcount, hroom, hagain⟩ := hrun.exists
  refine ⟨s, hs, hnodrop, ?_, ?_⟩
  · obtain ⟨⟨_, x, links⟩, hsend, rfl⟩ := hagain.exists
    exact ⟨x, links, hsend⟩
  rintro ⟨p, hp, hrefused⟩
  have hlt := (XpubNodrop.run hs).lt_count hp
  obtain rfl : p = 0 := by omega
  exact absurd (hroom.symm.trans hrefused) (by decide)

end Zmq
