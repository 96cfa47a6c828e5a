import ZeroMQ.Engine.SessionWired

/-!
# Between two engines

When an engine is lost, `clean_pipes` brings both directions of the pipe to the boundary of a message,
and the next engine begins there. The session relies on a pipe that can still be read in the middle of a
message, and that is not always so: its own termination closes the pipe at once, and with it the rest of a
message that is half pulled.

`Session.Orderly` says when each act goes well, and `session_restarts` that in every run of such acts no
assertion about the pipes fails, no NULL pipe is used and a session without an engine is at the boundary
of a message in both directions.
-/

namespace Zmq

open Foundation Option

open scoped List

namespace Session

/-- Both directions of the pipe are at the boundary of a message: what was pulled are whole messages of
the socket, and no unfinished message is in the outbound pipe. -/
structure AtBoundary (s : Session) (p : ℕ) : Prop where
  incompleteIn : s.incompleteIn = false
  pulling : s.traffic.pulling = []
  pulled : s.traffic.pulled <+ s.traffic.written
  clean : (s.links p).OutClean

/-- The acts the session can cope with.

* A new pipe is made only when the last message was pulled completely.
* When an engine is lost in the middle of a message, the pipe can still be read.
* When the linger timer expires, there is a pipe.
* When there is something to read from the ZAP pipe and no engine, there is a pipe.
* The socket hears of a hiccup between two messages. -/
def Orderly (s : Session) : SessionAct → Prop
  | .processAttach => s.pipe = none → s.terminating = false → s.incompleteIn = false
  | .engineError _ => s.engine = true → s.incompleteIn = true →
    ∀ p ∈ s.pipe, Link.reading (s.links p).near.pipe = true
  | .timerEvent => s.hasLingerTimer = true → s.pipe ≠ none
  | .deliver p => s.zapPipe = some p → s.engine = false →
    (s.links p).near.inbox.head? = some .activateRead → Link.wakes (s.links p).near.pipe = true →
    s.pipe ≠ none
  | .socket p a => a.1 = .deliver → s.pipe = some p → Link.hiccupNext (s.links p).far = true →
    s.traffic.writing = []
  | _ => True

instance (s : Session) (a : SessionAct) : Decidable (s.Orderly a) :=
  match a with
  | .processAttach => inferInstanceAs (Decidable (_ → _ → _))
  | .engineError _ => inferInstanceAs (Decidable (_ → _ → ∀ p ∈ s.pipe, _))
  | .timerEvent => inferInstanceAs (Decidable (_ → _))
  | .deliver _ => inferInstanceAs (Decidable (_ → _ → _ → _ → _))
  | .socket _ _ => inferInstanceAs (Decidable (_ → _ → _ → _))
  | .pullMsg | .pushMsg _ _ | .flush | .zapConnect _ | .readZapMsg | .writeZapMsg _ _
  | .processTerm _ => inferInstanceAs (Decidable True)

namespace Wired

variable {s t : Session} {quiet quiet' : Prop} {p : ℕ} {l : Link} {a : EndAct} {o : SessionOptions}

open Link

/-! ### Events of the pipes -/

lemma readActivated (h : Wired quiet s) (ho : s.owns p = true)
    (hzap : s.zapPipe = some p → s.engine = false → s.pipe ≠ none) :
    Stays quiet s (s.readActivated p) := by
  unfold Session.readActivated
  split
  · next hother =>
    simp only [owns, hother.1, hother.2, decide_false, Bool.or_self, Bool.false_or, decide_eq_true_eq] at ho
    rw [if_pos ho]
    exact ⟨h, rfl⟩
  · next hours =>
    split
    · next heng =>
      have hpipe : s.pipe ≠ none := by
        by_cases hp : s.pipe = some p
        · rw [hp]
          simp
        · refine hzap ?_ (by simpa using heng)
          by_contra hz
          exact hours ⟨hp, hz⟩
      obtain ⟨q, hq⟩ := ne_none_iff_exists'.mp hpipe
      obtain ⟨l, heq, hl⟩ := h.checkRead (owns_pipe hq)
      rw [hq]
      simp only [heq]
      exact ⟨hl, rfl⟩
    · exact ⟨h, rfl⟩

lemma writeActivated (h : Wired quiet s) (ho : s.owns p = true) (hzap : s.zapPipe ≠ some p) :
    Stays quiet s (s.writeActivated p) := by
  unfold Session.writeActivated
  split
  · next hother =>
    simp only [owns, hother, hzap, decide_false, Bool.or_self, Bool.false_or, decide_eq_true_eq] at ho
    rw [if_pos ho]
    exact ⟨h, rfl⟩
  · exact ⟨h, rfl⟩

lemma drop (h : Wired quiet s) (hl : LinkOk l) (hgone : l.near.frees ≠ 0)
    (hlinks : t.links = (s.setLink p l).links) (hcount : t.count = s.count)
    (hpipe : ∀ q, t.pipe = some q ↔ s.pipe = some q ∧ q ≠ p)
    (hzap : ∀ q, t.zapPipe = some q ↔ s.zapPipe = some q ∧ q ≠ p)
    (hdetached : ∀ q, q ∈ t.terminatingPipes ↔ q ∈ s.terminatingPipes ∧ q ≠ p)
    (hrecord : t.traffic = s.traffic ∧ t.incompleteIn = s.incompleteIn)
    (hflags : t.pending = s.pending ∧ t.termReceived = s.termReceived ∧ t.terminating = s.terminating)
    (htimer : t.hasLingerTimer = true → s.hasLingerTimer = true) : Wired quiet t := by
  have hother : ∀ {q}, q ≠ p → t.links q = s.links q := by
    intro q hq
    rw [hlinks, s.setLink_of_ne hq]
  have halive : ∀ {q}, q ≠ p → q < s.count ∧ (s.links q).near.frees = 0 →
      q < t.count ∧ (t.links q).near.frees = 0 := by
    intro q hq hold
    rw [hcount, hother hq]
    exact hold
  refine ⟨fun q => ?_, fun q hlt hf => ?_, fun q hq => ?_, fun q hq => ?_, fun q hq => ?_, fun q hq => ?_,
    fun q hq => ?_, fun q hq => ?_, ?_, fun ht => ?_, ?_⟩
  · by_cases hq : q = p
    · rw [hlinks, hq, setLink_self]
      exact hl
    · rw [hother hq]
      exact h.links q
  · have hq : q ≠ p := by
      rintro rfl
      rw [hlinks, setLink_self] at hf
      exact hgone hf
    rw [hother hq] at hf
    have ho := h.owned q (hcount ▸ hlt) hf
    simp only [owns, Bool.or_eq_true, decide_eq_true_eq] at ho ⊢
    rcases ho with (ho | ho) | ho
    · exact .inl (.inl ((hpipe q).mpr ⟨ho, hq⟩))
    · exact .inl (.inr ((hzap q).mpr ⟨ho, hq⟩))
    · exact .inr ((hdetached q).mpr ⟨ho, hq⟩)
  · obtain ⟨hq, hne⟩ := (hpipe q).mp hq
    exact halive hne (h.pipe q hq)
  · obtain ⟨hq, hne⟩ := (hpipe q).mp hq
    rw [hother hne, hrecord.1, hrecord.2]
    exact h.pipeOk q hq
  · obtain ⟨hq, hne⟩ := (hzap q).mp hq
    exact halive hne (h.zap q hq)
  · obtain ⟨hq, hne⟩ := (hzap q).mp hq
    rw [hother hne]
    exact ⟨fun hcon => (h.zapOk q hq).1 ((hpipe q).mp hcon).1, (h.zapOk q hq).2⟩
  · obtain ⟨hq, hne⟩ := (hdetached q).mp hq
    exact halive hne (h.detached q hq)
  · obtain ⟨hq, -⟩ := (hdetached q).mp hq
    exact ⟨fun hcon => (h.apart q hq).1 ((hpipe q).mp hcon).1, fun hcon => (h.apart q hq).2 ((hzap q).mp hcon).1⟩
  · rw [hflags.1, hflags.2.1, hflags.2.2]
    exact h.pending
  · rw [hflags.2.1]
    exact h.timer (htimer ht)
  · rw [hflags.2.1, hflags.2.2]
    exact h.terminating

lemma dropPipe (h : Wired quiet s) (hl : LinkOk l) (hgone : l.near.frees ≠ 0) :
    Wired quiet ((s.setLink p l).dropPipe p) := by
  have hne : ∀ {x : Option ℕ}, x ≠ some p → ∀ q, x = some q ↔ x = some q ∧ q ≠ p := by
    refine fun hx q => ⟨fun hq => ⟨hq, ?_⟩, fun hq => hq.1⟩
    rintro rfl
    exact hx hq
  have hgone' : ∀ {x : Option ℕ}, x = some p → ∀ q, (none : Option ℕ) = some q ↔ x = some q ∧ q ≠ p := by
    refine fun hx q => ⟨fun hq => (by cases hq), fun hq => absurd ?_ hq.2⟩
    exact some.inj (hq.1.symm.trans hx)
  have hmem : ∀ {x : Finset ℕ}, p ∉ x → ∀ q, q ∈ x ↔ q ∈ x ∧ q ≠ p := by
    refine fun hx q => ⟨fun hq => ⟨hq, ?_⟩, fun hq => hq.1⟩
    rintro rfl
    exact hx hq
  unfold Session.dropPipe
  split
  · next hp =>
    refine h.drop hl hgone rfl rfl (hgone' hp) (hne fun hz => (h.zapOk p hz).1 hp)
      (hmem fun hd => (h.apart p hd).1 hp) ⟨rfl, rfl⟩ ⟨rfl, rfl, rfl⟩ (fun hcon => (by cases hcon))
  · next hp =>
    split
    · next hz =>
      exact h.drop hl hgone rfl rfl (hne hp) (hgone' hz) (hmem fun hd => (h.apart p hd).2 hz) ⟨rfl, rfl⟩
        ⟨rfl, rfl, rfl⟩ id
    · next hz =>
      refine h.drop hl hgone rfl rfl (hne hp) (hne hz) (fun q => ?_) ⟨rfl, rfl⟩ ⟨rfl, rfl, rfl⟩ id
      rw [Finset.mem_erase, and_comm]
      rfl

/-- The invariant of the session is the one of a session that is at the boundary of a message whenever it is
idle. -/
lemma settle {r : Except SessionFault Session} (h : Stays s.Idle s r) :
    Yields r (fun t => Wired t.Idle t) SessionFault.Elsewhere :=
  h.mono fun t ht => by
    rw [ht.2]
    exact ht.1

lemma pipeTerminated (h : Wired s.Idle s) (ho : s.owns p = true) (hl : LinkOk l)
    (hgone : l.near.frees ≠ 0) :
    Yields ((s.setLink p l).pipeTerminated o p) (fun t => Wired t.Idle t) SessionFault.Elsewhere := by
  have h1 : Wired s.Idle ((s.setLink p l).dropPipe p) := h.dropPipe hl hgone
  have hsame : ((s.setLink p l).dropPipe p).engine = s.engine ∧
      ((s.setLink p l).dropPipe p).engineClosed = s.engineClosed := by
    unfold Session.dropPipe
    split
    · exact ⟨rfl, rfl⟩
    · split <;> exact ⟨rfl, rfl⟩
  have ho' : (s.setLink p l).owns p = true := ho
  unfold Session.pipeTerminated
  rw [ho']
  simp only [Bool.not_true, Bool.false_eq_true, ↓reduceIte]
  generalize (s.setLink p l).dropPipe p = u at h1 hsame ⊢
  -- a raw socket closes its engine, and that is recorded
  have h2 : ∀ v : Session, (v = u ∨ v = { u with
      engine := false, engineClosed := u.engineClosed || u.engine }) → Wired v.Idle v := by
    rintro v (rfl | rfl)
    · refine h1.mono fun hidle => ?_
      exact ⟨hsame.1.symm.trans hidle.1, hsame.2.symm.trans hidle.2⟩
    refine { h1.mono (fun hidle => ?_) with }
    have hclosed : (u.engineClosed || u.engine) = false := hidle.2
    rw [Bool.or_eq_false_iff] at hclosed
    exact ⟨hsame.1.symm.trans hclosed.2, hsame.2.symm.trans hclosed.1⟩
  have h3 : ∀ v : Session, (v = u ∨ v = { u with
      engine := false, engineClosed := u.engineClosed || u.engine }) →
      Yields (if v.pending && v.noPipes then Session.ownProcessTerm { v with pending := false } else .ok v)
        (fun t => Wired t.Idle t) SessionFault.Elsewhere := by
    intro v hv
    have hw := h2 v hv
    split
    · next hpend =>
      rw [Bool.and_eq_true] at hpend
      obtain ⟨hr, ht⟩ := hw.pending hpend.1
      have hw' : Wired v.Idle { v with pending := false } := { hw with pending := fun hcon => (by cases hcon) }
      exact settle (hw'.ownProcessTerm ht hr rfl)
    · exact hw
  split
  · exact h3 _ (.inr rfl)
  · exact h3 _ (.inl rfl)

/-! ### Steps and runs -/

lemma react (h : Wired s.Idle s) (ho : s.owns p = true) {e : SinkEvent} (hevent : e ≠ .pipeTerminated)
    (hhiccup : e ≠ .hiccuped) (hwrite : e = .writeActivated → s.zapPipe ≠ some p)
    (hread : e = .readActivated → s.zapPipe = some p → s.engine = false → s.pipe ≠ none) :
    Yields (s.react o p (some e)) (fun t => Wired t.Idle t) SessionFault.Elsewhere := by
  cases e with
  | readActivated => exact settle (h.readActivated ho (hread rfl))
  | writeActivated => exact settle (h.writeActivated ho (hwrite rfl))
  | hiccuped => exact absurd rfl hhiccup
  | pipeTerminated => exact absurd rfl hevent

lemma deliver (h : Wired s.Idle s) (hgood : s.Orderly (.deliver p)) :
    Yields (s.step o (.deliver p)) (fun t => Wired t.Idle t) SessionFault.Elsewhere := by
  simp only [Session.step]
  split
  swap
  · exact h
  next hlt =>
  obtain ⟨l, e, hact, hmove⟩ := (h.links p).shutdown.exists_move .deliver
  change (s.links p).deliver = .ok (l, e) at hact
  rw [hact]
  rcases hmove with ⟨rfl, rfl⟩ | ⟨halive, hmove⟩
  · have hself : s.setLink p (s.links p) = s := by simp [setLink]
    simp only [Session.react, hself]
    exact h
  have ho := h.owned p hlt halive
  have hl : LinkOk l := (h.links p).near halive (.inr hmove)
  have hkeeps : EndAct.KeepsInput .deliver := trivial
  by_cases hgone : e = some .pipeTerminated
  · subst hgone
    exact h.pipeTerminated ho hl ((hmove.inFrame (h.links p).shutdown halive hkeeps).gone.mpr rfl)
  have h1 : Wired s.Idle (s.setLink p l) := by
    refine h.set hl (hmove.frees_eq hgone) (fun q hq => ?_) fun hz => hmove.unbounded (h.zapOk p hz).2
    by_cases hqp : q = p
    · subst hqp
      rw [setLink_self]
      exact (h.pipeOk q hq).keep (h.links q) halive hkeeps (by simp) (.inr hmove)
    · rw [s.setLink_of_ne hqp]
      exact h.pipeOk q hq
  cases e with
  | none => exact h1
  | some e =>
    refine Wired.react (s := s.setLink p l) h1 ho (fun he => hgone (congrArg some he))
      (fun he => hmove.not_hiccuped (h.links p).noHiccup (congrArg some he)) (fun he hz => ?_) fun he hz heng => ?_
    · have hout : EndAct.KeepsOutput .deliver := trivial
      have hun := ((hmove.outFrame halive hout).unblocked (congrArg some he)).1
      rw [(h.zapOk p hz).2.not_unblocks] at hun
      exact absurd hun (by decide)
    · obtain ⟨hhead, hwakes⟩ := hmove.of_readActivated (congrArg some he)
      exact hgood hz heng hhead hwakes

lemma socket (h : Wired s.Idle s) (a : { a : EndAct // a.OfSocket }) (hgood : s.Orderly (.socket p a)) :
    Yields (s.step o (.socket p a)) (fun t => Wired t.Idle t) SessionFault.Elsewhere := by
  simp only [Session.step]
  split
  swap
  · exact h
  obtain ⟨l, e, hact, hmove⟩ := (h.links p).shutdown.swap.exists_move a.1
  rw [hact]
  have hmove' : l = (s.links p).swap ∨ (s.links p).swap.Move a.1 l e := hmove.imp And.left And.right
  have hnear : l.swap.near.pipe = (s.links p).near.pipe ∧ l.swap.near.frees = (s.links p).near.frees := by
    rcases hmove' with rfl | hmove
    · exact ⟨rfl, rfl⟩
    · obtain ⟨cs, hfar⟩ := hmove.far_eq
      rw [swap_near, hfar]
      exact ⟨rfl, rfl⟩
  have hl : LinkOk l.swap := by
    rcases hmove with ⟨rfl, -⟩ | ⟨halive, hmove⟩
    · exact h.links p
    · exact (h.links p).far a.2 halive hmove
  have hset : Wired s.Idle ((s.setLink p l.swap).record
      (if s.pipe = some p then s.traffic.far (s.links p) a.1 else s.traffic) s.incompleteIn) := by
    refine h.set hl hnear.2 (fun q hq => ?_) fun hz => ?_
    · by_cases hqp : q = p
      · subst hqp
        rw [setLink_self, if_pos hq]
        exact (h.pipeOk q hq).far a.2 (fun ha hnext => hgood ha hq hnext) hact hmove'
      · rw [s.setLink_of_ne hqp, if_neg fun hcon => hqp (some.inj (hq.symm.trans hcon))]
        exact h.pipeOk q hq
    · rw [hnear.1]
      exact (h.zapOk p hz).2
  exact hset

lemma step (h : Wired s.Idle s) (a : SessionAct) (hgood : s.Orderly a) :
    Yields (s.step o a) (fun t => Wired t.Idle t) SessionFault.Elsewhere := by
  have hcall : ∀ {r : Except SessionFault Session}, (¬s.Idle → Stays s.Idle s r) →
      Yields (if s.engine then r else .ok s) (fun t => Wired t.Idle t) SessionFault.Elsewhere := by
    intro r hr
    split
    · next heng => exact settle (hr fun hidle => absurd (hidle.1.symm.trans heng) (by decide))
    · exact h
  cases a with
  | processAttach => exact h.processAttach hgood
  | pullMsg =>
    refine hcall fun hq => ?_
    cases hp : s.pipe with
    | none =>
      simp only [Session.pullMsg, hp]
      exact ⟨h, rfl⟩
    | some p =>
      obtain ⟨l, heq, hl, -⟩ | ⟨m, l, heq, hl, -⟩ := h.pullMsg hq hp
      · rw [heq]
        exact ⟨hl, rfl⟩
      · rw [heq]
        exact ⟨hl, rfl⟩
  | pushMsg flags body => exact hcall fun hq => h.pushMsg hq flags body
  | flush => exact hcall fun _ => h.flush
  | zapConnect recvIdentity => exact hcall fun _ => h.zapConnect recvIdentity
  | readZapMsg => exact hcall fun _ => h.readZapMsg
  | writeZapMsg flags body => exact hcall fun _ => h.writeZapMsg flags body
  | engineError reason =>
    simp only [Session.step]
    split
    · next heng =>
      obtain ⟨t, heq, ht⟩ := h.engineError (o := o) reason (hgood heng)
      rw [heq]
      exact ht.mono fun _ => trivial
    · exact h
  | processTerm linger =>
    simp only [Session.step]
    split
    · exact h
    next hr =>
    have hnone : ∀ {b : Bool}, (b = true → s.termReceived = true) → b = false := by
      intro b hb
      cases b with
      | false => rfl
      | true => exact absurd (hb rfl) hr
    have h1 : Wired s.Idle { s with termReceived := true } :=
      { h with
        pending := fun hp => ⟨rfl, (h.pending hp).2⟩
        timer := fun _ => rfl
        terminating := fun _ => rfl }
    exact settle (h1.processTerm rfl (hnone fun hp => (h.pending hp).1) (hnone h.terminating)
      (hnone h.timer) linger)
  | timerEvent =>
    simp only [Session.step]
    split
    · next ht => exact settle (h.timerEvent (hgood ht))
    · exact h
  | deliver p => exact h.deliver hgood
  | socket p a => exact h.socket a hgood

lemma new (o : SessionOptions) (attached : Bool) : Wired quiet (Session.new o attached) := by
  have hlinks : ∀ p, LinkOk ((Session.new o attached).links p) := fun _ => LinkOk.pipepair _ _
  cases attached with
  | false =>
    refine ⟨hlinks, fun p hp => absurd hp (Nat.not_lt_zero p), ?_, ?_, ?_, ?_, ?_, ?_, ?_, ?_, ?_⟩ <;>
      simp [Session.new]
  | true =>
    refine ⟨hlinks, fun p hp _ => ?_, fun p hp => ?_, fun p hp => ?_, ?_, ?_, ?_, ?_, ?_, ?_, ?_⟩
    · obtain rfl : p = 0 := Nat.lt_one_iff.mp hp
      exact owns_pipe rfl
    · obtain rfl := some.inj hp
      exact ⟨Nat.one_pos, rfl⟩
    · exact PipeOk.pipepair _ _
    all_goals simp [Session.new]

end Wired

/-! ### The result -/

/-- **Between two engines.** In every run in which a session is never in the middle of a message when its
pipe cannot be read any more, and the other acts are orderly, no assertion about the pipes fails and no
NULL pipe is used; and whenever there is no engine, because it was lost or because there was none yet, both
directions of the pipe are at the boundary of a message. -/
theorem session_restarts (o : SessionOptions) (attached : Bool) (acts : List SessionAct)
    (h : StepsMeet (step o) Orderly (new o attached) acts) :
    Yields (run o attached acts) (fun s => s.Idle → ∀ p ∈ s.pipe, s.AtBoundary p) SessionFault.Elsewhere := by
  have hstep : ∀ s a, Wired s.Idle s → s.Orderly a →
      Yields (step o s a) (fun t => Wired t.Idle t) SessionFault.Elsewhere := fun s a hs hgood =>
    hs.step a hgood
  have hrun : Yields (run o attached acts) (fun s => Wired s.Idle s) SessionFault.Elsewhere :=
    Yields.runSteps hstep (Wired.new o attached) h
  refine hrun.mono fun s hs hidle p hp => ?_
  have hok := hs.pipeOk p hp
  have hnil := hok.pulling hidle
  refine ⟨?_, hnil, hok.reads.sublist, hok.clean hidle⟩
  rw [hok.agrees, hnil]
  rfl

/-- The socket writes a frame. -/
def socketWrite (p : ℕ) (more : Bool) (byte : UInt8) : SessionAct :=
  .socket p ⟨.write (frameFlags more) [byte], rfl⟩

/-- The socket flushes its end. -/
def socketFlush (p : ℕ) : SessionAct := .socket p ⟨.flush, trivial⟩

/-- The end of the socket receives a command. -/
def socketDeliver (p : ℕ) : SessionAct := .socket p ⟨.deliver, trivial⟩

/-- The connection is lost in the middle of a message of two frames, and the rest of the message is
dropped. -/
theorem session_restarts_mid_message :
    ∃ s, run ⟨true, false, false, false, 1000, 1000⟩ true [.processAttach, socketWrite 0 true 1,
      socketWrite 0 false 2, socketFlush 0, .pullMsg, .engineError .connectionError] = .ok s ∧
      s.pipe = some 0 ∧ s.traffic.pulled.length = 1 ∧ s.AtBoundary 0 := by
  refine okAnd.exists_imp (P := fun s => s.Idle ∧ s.pipe = some 0 ∧ s.traffic.pulled.length = 1)
    (by decide +kernel) fun s hs hend => ⟨hend.2.1, hend.2.2, ?_⟩
  have hall := session_restarts ⟨true, false, false, false, 1000, 1000⟩ true [.processAttach,
    socketWrite 0 true 1, socketWrite 0 false 2, socketFlush 0, .pullMsg, .engineError .connectionError]
    (by decide +kernel)
  rw [hs] at hall
  exact hall hend.1 0 hend.2.1

/-- What goes wrong without these conditions.

* The owner terminates the session in the middle of a message, and then the connection is lost.
* The socket terminates the pipe, the connection is lost, and then the ZAP socket answers.
* The owner terminates the session with a finite linger, the connection is lost, and the session gives up
  its pipe; then the timer expires.
* The session is terminated in the middle of a message while its ZAP pipe holds it; it gets a new pipe and
  loses its second engine.
* The session of a subscriber reconnects while the socket is in the middle of a message: the next engine
  gets the end of it. -/
theorem session_restart_faults :
    run ⟨false, false, false, false, 1000, 1000⟩ false [.processAttach, socketWrite 0 true 1,
      socketWrite 0 false 2, socketFlush 0, .pullMsg, .processTerm (-1), .engineError .connectionError] =
        .error (.assertFailed .cleanPipesPull) ∧
    run ⟨false, false, false, false, 1000, 1000⟩ false [.processAttach, .zapConnect (some true),
      .readZapMsg, .socket 0 ⟨.terminate false, trivial⟩, .deliver 0, .pullMsg, socketDeliver 0, .deliver 0,
      .deliver 0, .engineError .protocolError, socketWrite 1 false 1, socketFlush 1, .deliver 1] =
        .error .nullPipe ∧
    run ⟨true, true, false, false, 1000, 1000⟩ true [.processAttach, .processTerm 100,
      .engineError .connectionError, .timerEvent] = .error (.assertFailed .timerEvent) ∧
    run ⟨true, false, false, false, 1000, 1000⟩ true [.processAttach, .zapConnect (some true),
      socketWrite 0 true 1, socketWrite 0 false 2, socketFlush 0, .pullMsg, .processTerm 0, socketDeliver 0,
      .socket 0 ⟨.read, trivial⟩, .deliver 0, .engineError .connectionError, .processAttach,
      .engineError .connectionError] = .error (.assertFailed .cleanPipesPull) ∧
    okAnd (run ⟨true, false, true, false, 1000, 1000⟩ true [.processAttach, socketWrite 0 true 1,
      .engineError .connectionError, socketDeliver 0, socketWrite 0 false 2, socketFlush 0, .processAttach,
      .deliver 0, .pullMsg, .engineError .connectionError]) (fun s => s.Idle ∧ s.pipe = some 0 ∧
        ¬s.traffic.pulled <+ s.traffic.written) := by
  refine ⟨rfl, rfl, rfl, rfl, ?_⟩
  decide +kernel

end Session

end Zmq
