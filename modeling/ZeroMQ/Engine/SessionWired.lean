import ZeroMQ.Engine.SessionPipes

/-!
# The invariant of a session

`Session.Wired` says that the session refers to the pipes that are there and to no others, that
`incomplete_in` agrees with the position of the session in its pipe, and, if the session is `quiet`, that
both directions of the pipe are at the boundary of a message. Every function of the session keeps it; for
`clean_pipes` the pipe must still be readable in the middle of a message.
-/

namespace Zmq

open Foundation Option Except Nat

/-- Assertions about calls the session has no part in: an engine is attached to a session that has one, a
second ZAP pipe is asked for, and a request is written to a ZAP socket that is gone. -/
def SessionFault.Elsewhere (e : SessionFault) : Prop :=
  e = .assertFailed .processAttach ∨ e = .assertFailed .zapConnect ∨ e = .assertFailed .writeZapMsg

namespace Session

/-! ### The invariant -/

/-- There is no engine, and none was closed by the session. -/
def Idle (s : Session) : Prop := s.engine = false ∧ s.engineClosed = false

instance (s : Session) : Decidable s.Idle :=
  inferInstanceAs (Decidable (s.engine = false ∧ s.engineClosed = false))

/-- The record of the messages. -/
def record (s : Session) (g : Traffic) (incompleteIn : Bool) : Session :=
  { s with traffic := g, incompleteIn := incompleteIn }

/-- The session refers to the pipes that are there and to no others. -/
structure Wired (quiet : Prop) (s : Session) : Prop where
  links : ∀ p, LinkOk (s.links p)
  owned : ∀ p < s.count, (s.links p).near.frees = 0 → s.owns p = true
  pipe : ∀ p, s.pipe = some p → p < s.count ∧ (s.links p).near.frees = 0
  pipeOk : ∀ p, s.pipe = some p → PipeOk (s.links p) s.traffic s.incompleteIn quiet
  zap : ∀ p, s.zapPipe = some p → p < s.count ∧ (s.links p).near.frees = 0
  zapOk : ∀ p, s.zapPipe = some p → s.pipe ≠ some p ∧ Link.Unbounded (s.links p).near.pipe
  detached : ∀ p ∈ s.terminatingPipes, p < s.count ∧ (s.links p).near.frees = 0
  apart : ∀ p ∈ s.terminatingPipes, s.pipe ≠ some p ∧ s.zapPipe ≠ some p
  pending : s.pending = true → s.termReceived = true ∧ s.terminating = false
  timer : s.hasLingerTimer = true → s.termReceived = true
  terminating : s.terminating = true → s.termReceived = true

/-- What a call of the engine or an event of a pipe comes to: the session goes on, or a fault occurs that it
has no part in. -/
def Stays (quiet : Prop) (s : Session) (r : Except SessionFault Session) : Prop :=
  Yields r (fun t => Wired quiet t ∧ t.Idle = s.Idle) SessionFault.Elsewhere

namespace Wired

variable {s t : Session} {quiet quiet' : Prop} {p : ℕ} {l : Link} {a : EndAct} {o : SessionOptions}

open Link

lemma mono (h : Wired quiet s) (hq : quiet' → quiet) : Wired quiet' s :=
  { h with pipeOk := fun p hp => (h.pipeOk p hp).mono hq }

lemma alive (h : Wired quiet s) (ho : s.owns p = true) : p < s.count ∧ (s.links p).near.frees = 0 := by
  simp only [owns, Bool.or_eq_true, decide_eq_true_eq] at ho
  rcases ho with (ho | ho) | ho
  · exact h.pipe p ho
  · exact h.zap p ho
  · exact h.detached p ho

lemma owns_pipe (hp : s.pipe = some p) : s.owns p = true := by simp [owns, hp]

lemma owns_zap (hp : s.zapPipe = some p) : s.owns p = true := by simp [owns, hp]

lemma set (h : Wired quiet s) (hl : LinkOk l) (hfrees : l.near.frees = (s.links p).near.frees)
    {g : Traffic} {b : Bool}
    (hpipe : ∀ q, s.pipe = some q → PipeOk ((s.setLink p l).links q) g b quiet')
    (hzap : s.zapPipe = some p → Unbounded l.near.pipe) :
    Wired quiet' ((s.setLink p l).record g b) := by
  have hsame : ∀ q, ((s.setLink p l).links q).near.frees = (s.links q).near.frees := by
    intro q
    by_cases hq : q = p
    · rw [hq, setLink_self, hfrees]
    · rw [s.setLink_of_ne hq]
  refine ⟨fun q => ?_, fun q hlt hf => h.owned q hlt ((hsame q).symm.trans hf), fun q hq => ?_, hpipe,
    fun q hq => ?_, fun q hq => ⟨(h.zapOk q hq).1, ?_⟩, fun q hq => ?_, h.apart, h.pending, h.timer,
    h.terminating⟩
  · change LinkOk ((s.setLink p l).links q)
    by_cases hq : q = p
    · rw [hq, setLink_self]
      exact hl
    · rw [s.setLink_of_ne hq]
      exact h.links q
  · exact ⟨(h.pipe q hq).1, (hsame q).trans (h.pipe q hq).2⟩
  · exact ⟨(h.zap q hq).1, (hsame q).trans (h.zap q hq).2⟩
  · change Unbounded ((s.setLink p l).links q).near.pipe
    by_cases hqp : q = p
    · subst hqp
      rw [setLink_self]
      exact hzap hq
    · rw [s.setLink_of_ne hqp]
      exact (h.zapOk q hq).2
  · exact ⟨(h.detached q hq).1, (hsame q).trans (h.detached q hq).2⟩

lemma move (h : Wired quiet s) (ho : s.owns p = true) (hmove : l = s.links p ∨ (s.links p).Move a l none)
    (hpipe : s.pipe = some p → PipeOk l s.traffic s.incompleteIn quiet) : Wired quiet (s.setLink p l) := by
  have halive := (h.alive ho).2
  refine h.set ((h.links p).near halive hmove) ?_ (fun q hq => ?_) fun hz => ?_
  · rcases hmove with rfl | hmove
    · rfl
    · exact hmove.frees_eq (by simp)
  · by_cases hqp : q = p
    · subst hqp
      rw [setLink_self]
      exact hpipe hq
    · rw [s.setLink_of_ne hqp]
      exact h.pipeOk q hq
  · rcases hmove with rfl | hmove
    · exact (h.zapOk p hz).2
    · exact hmove.unbounded (h.zapOk p hz).2

lemma call (h : Wired quiet s) (ho : s.owns p = true) {r : Except PipeFault Link}
    (hr : (s.links p).Succeeds a r) (ha : a.KeepsInput)
    (hwrite : (∃ flags body, a = .write flags body) → s.pipe = some p → ¬quiet) :
    ∃ l, r = .ok l ∧ Wired quiet (s.setLink p l) ∧ (l = s.links p ∨ (s.links p).Move a l none) := by
  obtain ⟨l, heq, hmove⟩ := hr
  refine ⟨l, heq, h.move ho hmove fun hp => ?_, hmove⟩
  exact (h.pipeOk p hp).keep (h.links p) (h.alive ho).2 ha (fun hw => hwrite hw hp) hmove

lemma checkRead (h : Wired quiet s) (ho : s.owns p = true) :
    ∃ l, s.checkRead p = .ok (s.setLink p l) ∧ Wired quiet (s.setLink p l) := by
  have halive := (h.alive ho).2
  by_cases hp : s.pipe = some p
  · obtain ⟨c, l, heq, hl, hmove⟩ := (h.pipeOk p hp).checkRead (h.links p) halive
    refine ⟨l, ?_, h.move ho hmove fun _ => hl⟩
    rw [Session.checkRead, heq]
    rfl
  · obtain ⟨l, heq, hmove⟩ := checkRead_succeeds ((h.links p).shutdown.inpipe_live halive)
    refine ⟨l, ?_, h.move ho hmove fun hcon => absurd hcon hp⟩
    rw [Session.checkRead, heq]
    rfl

lemma checkReadOf (h : Wired quiet s) {q : Option ℕ} (ho : ∀ p ∈ q, s.owns p = true) :
    ∃ t, s.checkReadOf q = .ok t ∧ Wired quiet t ∧ t.zapPipe = s.zapPipe := by
  cases q with
  | none => exact ⟨s, rfl, h, rfl⟩
  | some p =>
    obtain ⟨l, heq, hl⟩ := h.checkRead (ho p rfl)
    exact ⟨_, heq, hl, rfl⟩

lemma detach (h : Wired quiet s) (hp : s.pipe = some p) :
    Wired quiet' { s with terminatingPipes := insert p s.terminatingPipes, pipe := none } := by
  have hnozap : s.zapPipe ≠ some p := fun hz => (h.zapOk p hz).1 hp
  refine ⟨h.links, fun q hlt hf => ?_, fun q hq => (by cases hq), fun q hq => (by cases hq), h.zap,
    fun q hq => ⟨by simp, (h.zapOk q hq).2⟩, fun q hq => ?_, fun q hq => ⟨by simp, ?_⟩, h.pending, h.timer,
    h.terminating⟩
  · have ho := h.owned q hlt hf
    simp only [owns, Bool.or_eq_true, decide_eq_true_eq, Finset.mem_insert] at ho ⊢
    rcases ho with (ho | ho) | ho
    · exact .inr (.inl (some.inj (ho.symm.trans hp)))
    · exact .inl (.inr ho)
    · exact .inr (.inr ho)
  · rcases Finset.mem_insert.mp hq with rfl | hq
    · exact h.pipe q hp
    · exact h.detached q hq
  · rcases Finset.mem_insert.mp hq with rfl | hq
    · exact hnozap
    · exact (h.apart q hq).2

/-- A frame of the pipe is pulled, or nothing happens. In the middle of a message there is a frame as long
as the pipe can be read. -/
lemma pullMsg (h : Wired quiet s) (hq : ¬quiet) (hp : s.pipe = some p) :
    (∃ l, s.pullMsg = .ok (none, s.setLink p l) ∧ Wired quiet (s.setLink p l) ∧
      (s.incompleteIn = true → reading (s.links p).near.pipe = false)) ∨
    (∃ m l, s.pullMsg = .ok (some m, (s.setLink p l).tookFrame m) ∧
      Wired quiet ((s.setLink p l).tookFrame m) ∧ (s.links p).read = .ok (some m, l) ∧
        (s.links p).Move .read l none) := by
  have halive := (h.pipe p hp).2
  have hok := h.pipeOk p hp
  have hnozap : s.zapPipe ≠ some p := fun hz => (h.zapOk p hz).1 hp
  obtain ⟨l, heq, hl, hfrees, hmid⟩ | ⟨m, l, heq, hl, hfrees, hact⟩ := hok.reads.read halive hok.inActive
  · left
    refine ⟨l, ?_, h.move (owns_pipe hp) (move_of_read (h.links p).shutdown halive heq) fun _ => ?_, ?_⟩
    · simp only [Session.pullMsg, hp, heq]
    · refine ⟨hl, fun hne => ?_, hok.agrees, hok.pulling, fun q => absurd q hq⟩
      rw [(hmid hne).2]
      exact hok.inActive hne
    · intro hinc
      refine (hmid fun hnil => ?_).1
      rw [hok.agrees, hnil] at hinc
      exact absurd hinc (by decide)
  · right
    have hmove : (s.links p).Move .read l none := by
      rcases move_of_read (h.links p).shutdown halive heq with rfl | hmove
      · exact absurd (read_some ((h.links p).shutdown.inpipe_live halive) heq).2 (by simp)
      · exact hmove
    refine ⟨m, l, ?_, h.set ((h.links p).near halive (.inr hmove)) (hfrees.trans halive.symm)
      (fun q hq' => ?_) fun hz => absurd hz hnozap, heq, hmove⟩
    · simp only [Session.pullMsg, hp, heq]
    obtain rfl : p = q := some.inj (hp.symm.trans hq')
    rw [setLink_self]
    refine ⟨hl, fun _ => hact, ?_, fun q => absurd q hq, fun q => absurd q hq⟩
    cases hm : m.more with
    | true | false => simp [Traffic.take, hm]

lemma dropIncomplete (h : Wired False s) (hp : s.pipe = some p) (hclean : (s.links p).OutClean)
    (hread : s.incompleteIn = true → reading (s.links p).near.pipe = true) {n : ℕ}
    (hn : (s.links p).inQueue.flushed.length < n) :
    ∃ t, s.dropIncomplete n = .ok t ∧ Wired True t := by
  -- every round takes a frame out of the pipe
  induction n generalizing s with
  | zero => exact absurd hn (not_lt_zero _)
  | succ n ih =>
    rw [Session.dropIncomplete]
    by_cases hinc : s.incompleteIn = true
    · rw [if_pos hinc]
      obtain ⟨l, -, -, hmid⟩ | ⟨m, l, heq, hl, hget, hmove⟩ := h.pullMsg id hp
      · rw [hmid hinc] at hread
        exact absurd (hread hinc) (by decide)
      rw [heq]
      obtain ⟨hst, hlen⟩ := read_some ((h.links p).shutdown.inpipe_live (h.pipe p hp).2) hget
      have hlink : ((s.setLink p l).tookFrame m).links p = l := setLink_self s p l
      refine ih hl hp ?_ (fun _ => ?_) ?_
      · rw [hlink]
        exact hclean.near hmove (by simp) (h.links p).noHiccup
      · rw [hlink]
        have hold := hread hinc
        simp only [reading, hst] at hold ⊢
        exact hold
      · rw [hlink]
        omega
    · rw [if_neg hinc]
      refine ⟨s, rfl, { h with pipeOk := fun q hq => ?_ }⟩
      obtain rfl : p = q := some.inj (hp.symm.trans hq)
      have hok := h.pipeOk p hp
      refine ⟨hok.reads, hok.inActive, hok.agrees, fun _ => ?_, fun _ => hclean⟩
      have hagrees := hok.agrees
      by_contra hne
      cases hpull : s.traffic.pulling with
      | nil => exact hne hpull
      | cons m ms =>
        rw [hpull] at hagrees
        exact hinc hagrees

/-! ### The end of an engine -/

lemma cleanPipes (h : Wired quiet s) (hp : s.pipe = some p)
    (hread : s.incompleteIn = true → reading (s.links p).near.pipe = true) :
    ∃ t, s.cleanPipes = .ok t ∧ Wired True t := by
  have h0 : Wired False s := h.mono False.elim
  obtain ⟨l1, hroll, hclean, hmove1⟩ := OutClean.of_rollback (h.links p).shutdown
  obtain ⟨l, heq1, h1, -⟩ := h0.call (owns_pipe hp) ⟨l1, hroll, hmove1⟩ trivial (by simp)
  obtain rfl : l1 = l := ok.inj (hroll.symm.trans heq1)
  have hp1 : (s.setLink p l1).pipe = some p := hp
  have hflush : ((s.setLink p l1).links p).Succeeds .flush l1.flush := by
    have hdone := (h1.links p).shutdown.flush_succeeds
    rw [setLink_self] at hdone ⊢
    exact hdone
  obtain ⟨l2, heq2, h2, hmove2⟩ := h1.call (owns_pipe hp1) hflush trivial (by simp)
  have hnear : l2.near = (s.links p).near := by
    rw [setLink_self] at hmove2
    have hnear2 : l2.near = l1.near := by
      rcases hmove2 with rfl | hmove2
      · rfl
      · exact hmove2.near_eq (.inr rfl)
    rcases hmove1 with rfl | hmove1
    · exact hnear2
    · exact hnear2.trans (hmove1.near_eq (.inl rfl))
  have hclean2 : OutClean l2 := by
    rw [setLink_self] at hmove2
    rcases hmove2 with rfl | hmove2
    · exact hclean
    · have hno := (h1.links p).noHiccup
      rw [setLink_self] at hno
      exact hclean.near hmove2 (by simp) hno
  obtain ⟨t, heq, ht⟩ := h2.dropIncomplete hp1 (by rw [setLink_self]; exact hclean2)
    (by rw [setLink_self, hnear]; exact hread) (lt_succ_self _)
  refine ⟨t, ?_, ht⟩
  simp only [Session.cleanPipes, hp, heq1, bind, Except.bind, onPipe, setLink_self, heq2]
  rw [← heq, setLink_self]

lemma reconnect (h : Wired True s) : ∃ t, s.reconnect o = .ok t ∧ Wired True t := by
  unfold Session.reconnect
  cases hp : s.pipe with
  | none => exact ⟨s, rfl, h⟩
  | some p =>
    have hl := h.links p
    have halive := (h.pipe p hp).2
    have hmove : (s.links p).hiccup = s.links p ∨ (s.links p).Move .hiccup (s.links p).hiccup none := by
      obtain ⟨l, heq, hmove⟩ := ShutdownInv.hiccup_succeeds (s := s.links p)
      rw [← ok.inj heq] at hmove
      exact hmove
    have h1 : Wired True (s.setLink p (s.links p).hiccup) :=
      h.move (owns_pipe hp) hmove fun _ =>
        (h.pipeOk p hp).hiccup hl halive ((h.pipeOk p hp).pulling trivial)
    simp only
    split
    · have hp1 : (s.setLink p (s.links p).hiccup).pipe = some p := hp
      have hterm := (h1.links p).shutdown.terminate_succeeds (h1.pipe p hp1).2 false
      obtain ⟨l, heq, h2, -⟩ := h1.call (owns_pipe hp1) hterm trivial (by simp)
      rw [setLink_self] at heq
      rw [setLink_setLink] at h2
      refine ⟨_, ?_, h2.detach hp⟩
      rw [heq]
      rfl
    · split
      · exact ⟨_, rfl, h1⟩
      · exact ⟨s, rfl, h⟩

lemma switchReason (h : Wired True s) (reason : EngineErrorReason) :
    ∃ t, s.switchReason o reason = .ok t ∧ Wired True t := by
  have hactive : ∃ t, (if o.active then s.reconnect o else .ok s) = .ok t ∧ Wired True t := by
    split
    · exact h.reconnect
    · exact ⟨s, rfl, h⟩
  cases reason with
  | protocolError => exact ⟨s, rfl, h⟩
  | connectionError | timeoutError => exact hactive

lemma cleanPipesIfAny (h : Wired quiet s)
    (hread : s.incompleteIn = true → ∀ p ∈ s.pipe, reading (s.links p).near.pipe = true) :
    ∃ t, s.cleanPipesIfAny = .ok t ∧ Wired True t := by
  unfold Session.cleanPipesIfAny
  split
  · next hp =>
    refine ⟨s, rfl, { h with pipeOk := fun p hp' => ?_ }⟩
    rw [hp] at hp'
    cases hp'
  · next hp =>
    obtain ⟨p, hp⟩ := ne_none_iff_exists'.mp hp
    exact h.cleanPipes hp fun hinc => hread hinc p hp

lemma engineError (h : Wired quiet s) (reason : EngineErrorReason)
    (hread : s.incompleteIn = true → ∀ p ∈ s.pipe, reading (s.links p).near.pipe = true) :
    ∃ t, s.engineError o reason = .ok t ∧ Wired True t := by
  have hlost : Wired quiet { s with engine := false } := { h with }
  obtain ⟨t1, heq1, h1⟩ := hlost.cleanPipesIfAny hread
  obtain ⟨t2, heq2, h2⟩ := h1.switchReason (o := o) reason
  obtain ⟨t3, heq3, h3, -⟩ := h2.checkReadOf fun p hp => owns_pipe hp
  obtain ⟨t4, heq4, h4, -⟩ := h3.checkReadOf fun p hp => owns_zap hp
  refine ⟨t4, ?_, h4⟩
  simp only [Session.engineError, bind, Except.bind, heq1, heq2, heq3, heq4]

/-! ### New pipes -/

lemma newPair_self (s : Session) (l : Link) : (s.newPair l).links s.count = l := setLink_self s s.count l

lemma newPair_of_lt (s : Session) (l : Link) (hp : p < s.count) : (s.newPair l).links p = s.links p :=
  s.setLink_of_ne (Nat.ne_of_lt hp) l

lemma newPair_linkOk (h : Wired quiet s) (hl : LinkOk l) (q : ℕ) : LinkOk ((s.newPair l).links q) := by
  by_cases hq : q = s.count
  · rw [hq, newPair_self]
    exact hl
  · have hlink : (s.newPair l).links q = s.links q := s.setLink_of_ne hq l
    rw [hlink]
    exact h.links q

lemma newPair_alive (l : Link) {q : ℕ} (hq : q < s.count ∧ (s.links q).near.frees = 0) :
    q < s.count + 1 ∧ ((s.newPair l).links q).near.frees = 0 := by
  rw [newPair_of_lt s l hq.1]
  exact ⟨lt_succ_of_lt hq.1, hq.2⟩

lemma newPair_owned (h : Wired quiet s) (l : Link) {q : ℕ} (hlt : q < s.count + 1)
    (hf : ((s.newPair l).links q).near.frees = 0) : q = s.count ∨ (q < s.count ∧ s.owns q = true) := by
  rcases Nat.lt_succ_iff_lt_or_eq.mp hlt with hlt | hq
  · rw [newPair_of_lt s l hlt] at hf
    exact Or.inr ⟨hlt, h.owned q hlt hf⟩
  · exact Or.inl hq

lemma attachNew (h : Wired quiet s) (hp : s.pipe = none) (hinc : s.incompleteIn = false) (hwm0 hwm1 : ℤ) :
    Wired quiet' (s.newPipe (Link.pipepair hwm0 hwm1)) := by
  have hne : ∀ {q}, q < s.count → some s.count ≠ some q := fun hlt hcon =>
    absurd (some.inj hcon) (ne_of_gt hlt)
  refine ⟨h.newPair_linkOk (LinkOk.pipepair hwm0 hwm1), fun q hlt hf => ?_, fun q hq => ?_, fun q hq => ?_,
    fun q hq => newPair_alive _ (h.zap q hq), fun q hq => ⟨hne (h.zap q hq).1, ?_⟩,
    fun q hq => newPair_alive _ (h.detached q hq),
    fun q hq => ⟨hne (h.detached q hq).1, (h.apart q hq).2⟩, h.pending, h.timer, h.terminating⟩
  · obtain rfl | ⟨-, ho⟩ := h.newPair_owned _ hlt hf
    · exact owns_pipe rfl
    · simp only [owns, hp, reduceCtorEq, Bool.or_eq_true, decide_eq_true_eq, false_or] at ho
      simp only [owns, Bool.or_eq_true, decide_eq_true_eq]
      exact ho.elim (fun hz => .inl (.inr hz)) .inr
  · obtain rfl := some.inj hq
    refine ⟨lt_succ_self _, ?_⟩
    change ((s.newPair (Link.pipepair hwm0 hwm1)).links s.count).near.frees = 0
    rw [newPair_self]
    rfl
  · obtain rfl := some.inj hq
    change PipeOk ((s.newPair (Link.pipepair hwm0 hwm1)).links s.count) Traffic.none s.incompleteIn quiet'
    rw [newPair_self, hinc]
    exact PipeOk.pipepair hwm0 hwm1
  · change Unbounded ((s.newPair (Link.pipepair hwm0 hwm1)).links q).near.pipe
    rw [newPair_of_lt s _ (h.zap q hq).1]
    exact (h.zapOk q hq).2

lemma attachZap (h : Wired quiet s) (hz : s.zapPipe = none) (hl : LinkOk l) (hfrees : l.near.frees = 0)
    (hub : Unbounded l.near.pipe) : Wired quiet (s.newZapPipe l) := by
  have hne : ∀ {q}, q < s.count → some s.count ≠ some q := fun hlt hcon =>
    absurd (some.inj hcon) (ne_of_gt hlt)
  refine ⟨h.newPair_linkOk hl, fun q hlt hf => ?_, fun q hq => newPair_alive _ (h.pipe q hq),
    fun q hq => ?_, fun q hq => ?_, fun q hq => ?_, fun q hq => newPair_alive _ (h.detached q hq),
    fun q hq => ⟨(h.apart q hq).1, hne (h.detached q hq).1⟩, h.pending, h.timer, h.terminating⟩
  · obtain rfl | ⟨-, ho⟩ := h.newPair_owned _ hlt hf
    · exact owns_zap rfl
    · simp only [owns, hz, reduceCtorEq, Bool.or_eq_true, decide_eq_true_eq, or_false] at ho
      simp only [owns, Bool.or_eq_true, decide_eq_true_eq]
      exact ho.elim (fun hp => .inl (.inl hp)) .inr
  · change PipeOk ((s.newPair l).links q) s.traffic s.incompleteIn quiet
    rw [newPair_of_lt s _ (h.pipe q hq).1]
    exact h.pipeOk q hq
  · obtain rfl := some.inj hq
    refine ⟨lt_succ_self _, ?_⟩
    change ((s.newPair l).links s.count).near.frees = 0
    rw [newPair_self]
    exact hfrees
  · obtain rfl := some.inj hq
    refine ⟨fun hcon => absurd (h.pipe _ hcon).1 (lt_irrefl _), ?_⟩
    change Unbounded ((s.newPair l).links s.count).near.pipe
    rw [newPair_self]
    exact hub

lemma processAttach (h : Wired s.Idle s)
    (hgood : s.pipe = none → s.terminating = false → s.incompleteIn = false) :
    Yields (s.processAttach o) (fun t => Wired t.Idle t) SessionFault.Elsewhere := by
  have hdone : ∀ {u : Session}, Wired True u ∨ (Wired s.Idle u) →
      Yields (if u.engine then .error (.assertFailed .processAttach) else .ok { u with engine := true })
        (fun t => Wired t.Idle t) SessionFault.Elsewhere := by
    intro u hu
    split
    · exact .inl rfl
    have hidle : ¬({ u with engine := true } : Session).Idle := fun hcon => (by cases hcon.1)
    rcases hu with hu | hu
    · exact { hu.mono (fun q => absurd q hidle) with }
    · exact { hu.mono (fun q => absurd q hidle) with }
  unfold Session.processAttach
  split
  · next hnew =>
    simp only [Bool.and_eq_true, decide_eq_true_eq, Bool.not_eq_true'] at hnew
    exact hdone (.inl (h.attachNew hnew.1 (hgood hnew.1 hnew.2) _ _))
  · exact hdone (.inr h)

/-! ### Calls of the engine -/

section

variable (h : Wired quiet s)

include h

lemma write_cases (ho : s.owns p = true) (flags : MsgFlags) (body : List UInt8) :
    ∃ b l, (s.links p).write ⟨.data, flags, body⟩ = .ok (b, l) ∧
      (s.links p).Succeeds (.write flags body) (.ok l) := by
  obtain ⟨l, heq, hmove⟩ := write_succeeds flags body
    fun hst => (h.links p).shutdown.exists_live_outpipe (h.alive ho).2 (by rw [hst]; rfl)
  cases hw : (s.links p).write ⟨.data, flags, body⟩ with
  | error f =>
    rw [hw] at heq
    cases heq
  | ok r =>
    rw [hw] at heq
    exact ⟨r.1, r.2, rfl, l, heq, hmove⟩

lemma pushMsg (hq : ¬quiet) (flags : MsgFlags) (body : List UInt8) :
    Stays quiet s (s.pushMsg ⟨.data, flags, body⟩) := by
  unfold Session.pushMsg
  split
  · exact ⟨h, rfl⟩
  next p hp =>
  obtain ⟨b, l, heq, hl⟩ := h.write_cases (owns_pipe hp) flags body
  obtain ⟨l', heq', h', -⟩ := h.call (owns_pipe hp) hl trivial fun _ _ => hq
  obtain rfl : l = l' := ok.inj heq'
  rw [heq]
  exact ⟨h', rfl⟩

lemma flush_link (ho : s.owns p = true) : ∃ l, (s.links p).flush = .ok l ∧ Wired quiet (s.setLink p l) := by
  obtain ⟨l, heq, h', -⟩ := h.call ho (h.links p).shutdown.flush_succeeds trivial (by simp)
  exact ⟨l, heq, h'⟩

lemma flush : Stays quiet s s.flush := by
  unfold Session.flush
  split
  · exact ⟨h, rfl⟩
  next p hp =>
  obtain ⟨l, heq, h'⟩ := h.flush_link (owns_pipe hp)
  rw [heq]
  exact ⟨h', rfl⟩

lemma write_flush (hz : s.zapPipe = some p) (flags : MsgFlags) (body : List UInt8)
    (hflush : Bool) :
    ∃ b l, (s.links p).write ⟨.data, flags, body⟩ = .ok (b, l) ∧
      Stays quiet s (if hflush then (s.setLink p l).onPipe p l.flush else .ok (s.setLink p l)) := by
  have hp : s.pipe ≠ some p := (h.zapOk p hz).1
  obtain ⟨b, l, heq, hl⟩ := h.write_cases (owns_zap hz) flags body
  obtain ⟨l1, heq1, h1, -⟩ := h.call (owns_zap hz) hl trivial fun _ hcon => absurd hcon hp
  obtain rfl : l = l1 := ok.inj heq1
  have hz1 : (s.setLink p l).zapPipe = some p := hz
  obtain ⟨l2, heq2, h2⟩ := h1.flush_link (owns_zap hz1)
  rw [setLink_self] at heq2
  refine ⟨b, l, heq, ?_⟩
  split
  · rw [heq2]
    exact ⟨h2, rfl⟩
  · exact ⟨h1, rfl⟩

lemma writeZapMsg (flags : MsgFlags) (body : List UInt8) :
    Stays quiet s (s.writeZapMsg ⟨.data, flags, body⟩) := by
  unfold Session.writeZapMsg
  split
  · exact ⟨h, rfl⟩
  next p hz =>
  obtain ⟨b, l, heq, hl⟩ := h.write_flush hz flags body (!flags.more)
  rw [heq]
  cases b with
  | false => exact .inr (.inr rfl)
  | true =>
    have hm : (⟨.data, flags, body⟩ : Msg).more = flags.more := rfl
    simp only [hm]
    cases hmore : flags.more with
    | true | false => simpa [hmore] using hl

lemma readZapMsg : Stays quiet s s.readZapMsg := by
  unfold Session.readZapMsg
  split
  · exact ⟨h, rfl⟩
  next p hz =>
  have halive := (h.zap p hz).2
  obtain ⟨l, heq, hmove⟩ := read_succeeds ((h.links p).shutdown.inpipe_live halive)
  rw [heq]
  exact ⟨h.move (owns_zap hz) hmove fun hp => absurd hp (h.zapOk p hz).1, rfl⟩

lemma zapConnect (recvIdentity : Option Bool) : Stays quiet s (s.zapConnect recvIdentity) := by
  unfold Session.zapConnect
  split
  · exact .inr (.inl rfl)
  next hz =>
  rw [ne_eq, not_not] at hz
  cases recvIdentity with
  | none => exact ⟨h, rfl⟩
  | some identity =>
    have hpair : LinkOk (Link.pipepair 0 0).setNodelay := (LinkOk.pipepair 0 0).near rfl (.inr .setNodelay)
    have h1 := h.attachZap hz hpair rfl ⟨rfl, fun _ => rfl⟩
    simp only
    split
    · obtain ⟨b, l, heq, hl⟩ := h1.write_flush rfl { MsgFlags.none with identity := true } [] true
      have hwrite : ((s.newZapPipe (Link.pipepair 0 0).setNodelay).links s.count).write emptyIdentity =
          .ok (b, l) := heq
      rw [hwrite]
      cases b with
      | false => exact .inr (.inl rfl)
      | true => exact hl
    · exact ⟨h1, rfl⟩

end

/-! ### Termination -/

lemma ownProcessTerm (h : Wired quiet s) (ht : s.terminating = false) (hr : s.termReceived = true)
    (hp : s.pending = false) : Stays quiet s s.ownProcessTerm := by
  unfold Session.ownProcessTerm
  rw [ht]
  refine ⟨{ h with pending := fun hcon => ?_, terminating := fun _ => hr }, rfl⟩
  exact absurd (hp.symm.trans hcon) (by decide)

lemma terminate (h : Wired quiet s) (ho : s.owns p = true) (delay : Bool) :
    ∃ l, (s.links p).terminate delay = .ok l ∧ Wired quiet (s.setLink p l) := by
  obtain ⟨l, heq, h', -⟩ := h.call ho ((h.links p).shutdown.terminate_succeeds (h.alive ho).2 delay) trivial
    (by simp)
  exact ⟨l, heq, h'⟩

lemma lingerPipe (h : Wired quiet s) (hr : s.termReceived = true) (ht : s.hasLingerTimer = false)
    (linger : ℤ) : ∃ t, s.lingerPipe linger = .ok t ∧ Wired quiet t ∧ t.Idle = s.Idle := by
  unfold Session.lingerPipe
  cases hp : s.pipe with
  | none => exact ⟨s, rfl, h, rfl⟩
  | some p =>
    have h1 : Wired quiet (s.setLingerTimer (s.hasLingerTimer || decide (0 < linger))) :=
      { h with timer := fun _ => hr }
    obtain ⟨l2, heq2, h2⟩ := h1.terminate (p := p) (owns_pipe hp) (linger ≠ 0)
    obtain ⟨l3, heq3, h3⟩ := h2.checkRead (p := p) (owns_pipe hp)
    refine ⟨_, ?_, h3, rfl⟩
    simp only
    rw [if_neg (by simp [ht])]
    simp only [bind, Except.bind, heq2, onPipe, heq3]

lemma processTerm (h : Wired quiet s) (hr : s.termReceived = true) (hp : s.pending = false)
    (ht : s.terminating = false) (htimer : s.hasLingerTimer = false) (linger : ℤ) :
    Stays quiet s (s.processTerm linger) := by
  unfold Session.processTerm
  rw [hp, if_neg (by decide)]
  split
  · exact h.ownProcessTerm ht hr hp
  have h1 : Wired quiet { s with pending := true } := { h with pending := fun _ => ⟨hr, ht⟩ }
  obtain ⟨t, heq, h2, hidle⟩ := h1.lingerPipe hr htimer linger
  simp only [bind, Except.bind, heq]
  split
  · exact ⟨h2, hidle⟩
  next z hz =>
  obtain ⟨l, hterm, h3⟩ := h2.terminate (owns_zap hz) false
  rw [hterm]
  exact ⟨h3, hidle⟩

lemma timerEvent (h : Wired quiet s) (hp : s.pipe ≠ none) : Stays quiet s s.timerEvent := by
  obtain ⟨p, hp⟩ := ne_none_iff_exists'.mp hp
  have h1 : Wired quiet (s.setLingerTimer false) := { h with timer := fun hcon => (by cases hcon) }
  have hp1 : (s.setLingerTimer false).pipe = some p := hp
  obtain ⟨l, heq, h2⟩ := h1.terminate (owns_pipe hp1) false
  simp only [Session.timerEvent, hp1, heq, onPipe]
  exact ⟨h2, rfl⟩

end Wired

end Session

end Zmq
