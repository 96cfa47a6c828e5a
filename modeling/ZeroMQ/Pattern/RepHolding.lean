import ZeroMQ.Pattern.RouterQuiet

/-!
# The message in progress of a REP socket

The output side of a REP socket holds the beginning of a reply from the moment the identity of the peer
is copied to it. `Holding` says that the pipe of the ROUTER's message in progress is the one the reply
belongs to, and that the frames that wait there are the envelope and the reply so far. Every call of
`router_t::xsend` keeps it, and so does `router_t::rollback` if the pipe is there.
-/

namespace Zmq

open Foundation Function Option Except

namespace Written

variable {s t : Link} {w part : List Msg} {m : Msg}

open Link

lemma outbox_write (h : Written s w part) (hw : Outbound.Writable s.near.pipe)
    (ht : s.write m = .ok (true, t)) :
    t.outbox = s.outbox ++ if m.more then [] else part ++ [m] := by
  obtain ⟨i, hi, -, -, hinc, -⟩ := h.waiting hw.2.1
  have hwrite := write_of_checkWrite m (Outbound.checkWrite_of_writable hw) hi (h.out.shutdown.outpipe_live hi)
  rw [hwrite, countWrite_eq] at ht
  obtain ⟨-, rfl⟩ := Prod.mk.inj (ok.inj ht)
  have hout : (s.store i ((s.upipes i).queue.write m m.more)).near.pipe.outpipe = some i := hi
  simp only [outbox, hi, modifyPipe, hout, store_queue_self, Upipe.write_readable, hinc]
  split <;> simp

lemma outbox_flush (h : Written s w part) (hst : s.near.pipe.state = .active)
    (ht : s.flush = .ok t) : t.outbox = s.outbox := by
  obtain ⟨i, hi, -⟩ := h.waiting hst
  have hflush := flush_of_live (by rw [hst]; decide) hi (h.out.shutdown.outpipe_live hi)
  rw [hflush] at ht
  obtain rfl := ok.inj ht
  have hout : (s.store i (s.upipes i).queue.flush.2).near.pipe.outpipe = some i := hi
  split <;> simp only [outbox, hi, send, hout, store_queue_self, Upipe.flush_readable]

lemma rollback (h : Written s w part) (halive : s.near.frees = 0) :
    ∃ t, s.rollback = .ok t ∧ t.near = s.near ∧ Written t w [] := by
  cases hi : s.near.pipe.outpipe with
  | none =>
    refine ⟨s, rollback_of_none hi, rfl, h.out, fun hst => ?_, h.ahead⟩
    obtain ⟨i, hi', -⟩ := h.waiting hst
    rw [hi] at hi'
    cases hi'
  | some i =>
    have hroll := rollback_of_live hi (h.out.shutdown.outpipe_live hi) (h.out.shutdown.more i)
    have hmove : s.Move .rollback _ none := .rollback i hi
    refine ⟨_, hroll, rfl, ⟨h.out.shutdown.move halive hmove, h.out.hiccup_notMem, fun j hj => ?_⟩, ?_,
      h.ahead.near hmove⟩
    · obtain ⟨n, hn⟩ := h.out.readable j hj
      refine ⟨n, ?_⟩
      by_cases hji : j = i
      · subst hji
        rw [store_queue_self]
        exact hn
      · rw [store_queue_of_ne s hji]
        exact hn
    · exact h.waiting.store hi rfl ⟨rfl, rfl, rfl⟩ fun hsuf _ => ⟨hsuf, rfl⟩

end Written

/-! ### Sending a part -/

namespace Router

variable {s : Router} {m : Msg} {p : ℕ} {l l' : Link}

section

variable (hc : s.Cooked) (hmore : s.moreOut = true)

include hc hmore

lemma xsend_dropped (hcur : s.currentOut = none) (m : Msg) :
    s.xsend m = .ok (.ok (), { s with moreOut := m.more, currentOut := none }) := by
  simp [xsend, hmore, hc.2, hcur]

lemma xsend_refused (hcur : s.currentOut = some p)
    (hwrite : (s.inp.links p).write m = .ok (false, s.inp.links p)) :
    s.xsend m = .ok (.ok (), { s with moreOut := m.more, currentOut := none }) := by
  simp [xsend, sendPart, hmore, hc.1, hc.2, hcur, hwrite, setLink]

lemma xsend_more (hcur : s.currentOut = some p)
    (hwrite : (s.inp.links p).write m = .ok (true, l)) (hm : m.more = true) :
    s.xsend m = .ok (.ok (), { s with moreOut := true }.setLink p l) := by
  simp [xsend, sendPart, hmore, hc.1, hc.2, hcur, hwrite, hm, setLink]

lemma xsend_last (hcur : s.currentOut = some p)
    (hwrite : (s.inp.links p).write m = .ok (true, l)) (hm : m.more = false)
    (hflush : l.flush = .ok l') :
    s.xsend m = .ok (.ok (), { { s with moreOut := false }.setLink p l' with currentOut := none }) := by
  simp [xsend, sendPart, hmore, hc.1, hc.2, hcur, hwrite, hm, hflush, setLink]

end

lemma sendPart_settled (m : Msg) (p : ℕ) (s : Router) : Ensures (s.sendPart m p) (Settled s) := by
  have hset : ∀ (l : Link) (out : Option ℕ), Settled s { s.setLink p l with currentOut := out } :=
    fun l out => .of_eq rfl rfl rfl rfl
  unfold sendPart terminatePipe
  split
  · split
    · exact .error _
    · next t ht =>
      split at ht
      · cases ht
      · rw [← ok.inj ht]
        exact .ok (hset _ _)
  · split
    · exact .error _
    · exact .ok (hset _ _)
    · split
      · exact .ok (hset _ s.currentOut)
      · split
        · exact .error _
        · exact .ok (hset _ _)

lemma xsend_settled (m : Msg) (s : Router) : Ensures (s.xsend m) fun x => Settled s x.2 := by
  unfold xsend
  split
  · simp only
    split
    · exact .ok (.of_eq rfl rfl rfl rfl)
    split
    · exact .error _
    · next t ht =>
      have hmore : ∀ more, Settled s { s with moreOut := more } := fun _ => .of_eq rfl rfl rfl rfl
      exact .ok ((hmore _).trans (sendPart_settled _ _ _ t ht))
  · unfold sendIdentity
    split
    · exact .error _
    split
    · split
      · split
        · exact .ok (.refl s)
        · exact .ok (.of_eq rfl rfl rfl rfl)
      · next o ho =>
        split
        · exact .ok (.of_eq rfl rfl rfl rfl)
        next l hl =>
        have hmark : Settled s { s.setLink o.pipe l with
            outpipes := s.outpipes.insert m.body { o with active := false } } := by
          refine ⟨rfl, rfl, Finset.Subset.refl _, fun hs => ?_⟩
          exact ((Aside.mark ho false).pipeOf []).trans hs
        simp only
        split
        · exact .ok hmark
        · exact .ok (hmark.trans (.of_eq rfl rfl rfl rfl))
    · exact .ok (.refl s)

lemma rollback_settled (s : Router) : Ensures s.rollback fun t => Aside s t ∧ Settled s t := by
  unfold rollback
  split
  · exact .ok ⟨.refl s, .refl s⟩
  next p hcur =>
  split
  · exact .error _
  · next l hl =>
    have hset : Aside s (s.setLink p l) := .setLink (Link.Lives.rollback _ _ hl).near
    exact .ok ⟨hset.trans (.of_inp rfl rfl rfl), .of_eq rfl rfl rfl rfl⟩

lemma peerActs_near {w part : List Msg} (q : ℕ) (as : List EndAct) (hp : p < s.inp.count)
    (h : Written (s.inp.links p) w part) :
    Ensures (s.peerActs q as) fun t => (t.inp.links p).near.pipe = (s.inp.links p).near.pipe ∧
      t.probeRouter = s.probeRouter := by
  induction as generalizing s with
  | nil => exact .ok ⟨rfl, rfl⟩
  | cons a as ih =>
    unfold peerActs
    split
    · exact .error _
    next t ht =>
    have hidle := peer_idle s q a t ht
    have hnear : (t.inp.links p).near.pipe = (s.inp.links p).near.pipe ∧ t.probeRouter = s.probeRouter := by
      unfold peer FqSystem.step at ht
      simp only at ht
      split at ht
      · cases ht
      next inp hinp =>
      obtain rfl := ok.inj ht
      split at hinp
      · split at hinp
        · cases hinp
        · next l e hl =>
          obtain rfl := ok.inj hinp
          refine ⟨?_, rfl⟩
          by_cases hpq : p = q
          · subst hpq
            obtain ⟨l', e', hact, -, hpipe, -⟩ := h.far a
            obtain ⟨rfl, -⟩ := Prod.mk.inj (ok.inj (hl.symm.trans hact))
            simpa using hpipe
          · simp [update_of_ne hpq]
      · obtain rfl := ok.inj hinp
        exact ⟨rfl, rfl⟩
    have hlt : p < t.inp.count := by rwa [hidle.1.count]
    refine (ih hlt (hidle.1.links p hp _ _ h).1).mono fun u hu => ?_
    exact ⟨hu.1.trans hnear.1, hu.2.trans hnear.2⟩

lemma xattachPipe_placed (hs : s.Table (some p)) : Ensures (s.xattachPipe p) fun t =>
    ∃ u, s.probe p = .ok u ∧ Quiet u t ∧ t.inputState = u.inputState ∧
      t.inp.lastFrom = u.inp.lastFrom ∧ t.anonymousPipes ⊆ insert p u.anonymousPipes ∧
      (u.pipeOf [] = none → t.pipeOf [] = none) := by
  unfold xattachPipe
  split
  · exact .error _
  next u hu =>
  have htable := (probe_aside s p u hu).renamed.table hs
  have hatt := (htable.attached p).mp (.inr rfl)
  have hspec := identifyPeer_idle hatt.2 fun q hq => htable.listed_alive hq
  split
  · exact .error _
  · next t ht =>
    have hidle : Idle u t := hspec _ ht
    refine (fqAttach_idle t p).mono fun v hv => ?_
    obtain ⟨hquiet, hsettled⟩ := hidle.trans hv
    exact ⟨u, hu, hquiet, hsettled.inputState, hsettled.lastFrom,
      hsettled.anonymous.trans (Finset.subset_insert _ _), hsettled.unnamed⟩
  · next t ht =>
    obtain ⟨hquiet, hsettled⟩ : Idle u t := hspec _ ht
    exact .ok ⟨u, hu, hquiet.trans (.of_links rfl rfl rfl rfl), hsettled.inputState, hsettled.lastFrom,
      Finset.insert_subset_insert _ hsettled.anonymous, hsettled.unnamed⟩

lemma probe_settled (s : Router) (p : ℕ) : Ensures (s.probe p) (Settled s) := by
  unfold probe
  split
  · split
    · exact .error _
    · split
      · exact .error _
      · exact .ok (.of_eq rfl rfl rfl rfl)
  · exact .ok (.refl s)

lemma attach_input (hs : s.Table none) (hin : s.Input) (hwm0 hwm1 : ℤ) (before : List EndAct) :
    Ensures (s.step (.attach hwm0 hwm1 before)) fun t => t.Input ∧ t.inputState = s.inputState ∧
      t.inp.count = s.inp.count + 1 := by
  simp only [step]
  split
  · exact .error _
  next u hu =>
  have haside := peerActs_aside _ _ _ _ hu
  refine (xattachPipe_placed (haside.renamed.table (addPipe_table hs hwm0 hwm1))).mono fun t ht => ?_
  obtain ⟨v, hv, hquiet, hinput, hlast, hanon, hunnamed⟩ := ht
  have hadd : Settled s (s.addPipe hwm0 hwm1) := .of_eq rfl rfl rfl rfl
  have hsv : Settled s v := (hadd.trans (peerActs_idle _ _ _ _ hu).2).trans (probe_settled u _ v hv)
  have hcount : t.inp.count = s.inp.count + 1 := by
    rw [hquiet.count, (probe_aside u _ v hv).count, haside.count]
    rfl
  have hstate := hinput.trans hsv.inputState
  refine ⟨hin.of_eq hstate (fun q hq => ?_) (hunnamed (hsv.unnamed hin.unnamed)), hstate, hcount⟩
  obtain ⟨hlt, hnot⟩ := hin.known q ((hsv.lastFrom.symm.trans hlast.symm).trans hq)
  refine ⟨by omega, fun hmem => ?_⟩
  rcases Finset.mem_insert.mp (hanon hmem) with rfl | hmem
  · omega
  · exact hnot (hsv.anonymous hmem)

end Router

/-! ### The message in progress -/

namespace Rep

variable {r t : Router} {sent sent' : ℕ → List Msg} {current : Option Exchange} {e e' : Exchange} {p : ℕ}
  {m : Msg}

/-- The frames that wait in a pipe for the rest of the reply. -/
def partTo (current : Option Exchange) (p : ℕ) : List Msg :=
  match current with
  | none => []
  | some e => if e.target = some p then e.frames else []

/-- The messages `sent` were written to the pipes, and the message in progress is the beginning of the
reply. -/
structure Holding (sent : ℕ → List Msg) (current : Option Exchange) (r : Router) : Prop where
  cooked : r.Cooked
  written : ∀ p < r.inp.count, Written (r.inp.links p) (sent p) (partTo current p)
  moreOut : r.moreOut = current.isSome
  out : ∀ p, r.currentOut = some p → ∃ e, current = some e ∧ e.target = some p
  lt : ∀ e p, current = some e → e.target = some p → p < r.inp.count
  held : ∀ e p, current = some e → e.target = some p → (r.inp.links p).near.frees = 0 → r.currentOut = some p
  ready : ∀ e p, current = some e → e.target = some p → Ready (r.inp.links p).near.pipe

namespace Holding

lemma quiet (h : Holding sent current r) (hq : Router.Quiet r t) : Holding sent current t where
  cooked := hq.cooked h.cooked
  written p hp := by
    rw [hq.count] at hp
    exact (hq.links p hp _ _ (h.written p hp)).1
  moreOut := hq.moreOut.trans h.moreOut
  out p hp := h.out p (hq.out p hp)
  lt e p he hp := by
    rw [hq.count]
    exact h.lt e p he hp
  held e p he hp hfrees := hq.held p (h.held e p he hp (hq.alive p hfrees)) hfrees
  ready e p he hp := by
    have hlt := h.lt e p he hp
    exact (hq.links p hlt _ _ (h.written p hlt)).2 (h.ready e p he hp)

lemma replace (h : Holding sent (some e) r) (htarget : e'.target = e.target)
    (hframes : e'.frames = e.frames) : Holding sent (some e') r where
  cooked := h.cooked
  written p hp := by
    have hpart : partTo (some e') p = partTo (some e) p := by simp only [partTo, htarget, hframes]
    rw [hpart]
    exact h.written p hp
  moreOut := h.moreOut
  out p hp := by
    obtain ⟨_, he, htar⟩ := h.out p hp
    obtain rfl := some.inj he
    exact ⟨e', rfl, htarget.trans htar⟩
  lt _ p he hp := by
    obtain rfl := some.inj he
    exact h.lt e p rfl (htarget ▸ hp)
  held _ p he hp := by
    obtain rfl := some.inj he
    exact h.held e p rfl (htarget ▸ hp)
  ready _ p he hp := by
    obtain rfl := some.inj he
    exact h.ready e p rfl (htarget ▸ hp)

lemma currentOut_of_active (h : Holding sent (some e) r) (hp : e.target = some p)
    (hst : (r.inp.links p).near.pipe.state = .active) : r.currentOut = some p := by
  refine h.held e p rfl hp ?_
  by_contra hdead
  exact (h.written p (h.lt e p rfl hp)).not_active hdead hst

lemma partTo_begin (id : Identity) (r : Router) (p : ℕ) : partTo (some (.begin id r)) p = [] := by
  simp [partTo, Exchange.begin, Exchange.frames, envelopeOf]

lemma written_setLink (h : Holding sent current r) {l : Link} {p : ℕ} (sent' : ℕ → List Msg)
    (current' : Option Exchange) (hl : Written l (sent' p) (partTo current' p))
    (hother : ∀ q ≠ p, sent' q = sent q ∧ partTo current' q = partTo current q) :
    ∀ q < r.inp.count, Written ((r.setLink p l).inp.links q) (sent' q) (partTo current' q) := by
  intro q hq
  by_cases hqp : q = p
  · subst hqp
    simpa [Router.setLink] using hl
  · obtain ⟨hsent, hpart⟩ := hother q hqp
    rw [hsent, hpart]
    simpa [Router.setLink, hqp] using h.written q hq

lemma sendIdentity (h : Holding sent none r) (hs : r.Table none) (hm : m.more = true) :
    Ensures (r.xsend m) fun x => x.1 = .ok () → Holding sent (some (.begin m.body r)) x.2 := by
  have hnone : r.currentOut = none := by
    cases hcur : r.currentOut with
    | none => rfl
    | some p =>
      obtain ⟨e, he, -⟩ := h.out p hcur
      cases he
  -- the peer gets nothing
  have hdrop : ∀ {t : Router}, Exchange.route m.body r = none → t.Cooked → t.inp.count = r.inp.count →
      (∀ p < r.inp.count, Written (t.inp.links p) (sent p) []) → t.moreOut = true →
      t.currentOut = none → Holding sent (some (.begin m.body r)) t := by
    intro t hroute hcooked hcount hwritten hmore hcur
    have htarget : ∀ e p, some (Exchange.begin m.body r) = some e → e.target ≠ some p := by
      intro e p he hp
      obtain rfl := some.inj he
      rw [show (Exchange.begin m.body r).target = none from hroute] at hp
      cases hp
    refine ⟨hcooked, fun p hp => ?_, hmore, fun p hp => ?_, fun e p he hp => absurd hp (htarget e p he),
      fun e p he hp => absurd hp (htarget e p he), fun e p he hp => absurd hp (htarget e p he)⟩
    · rw [partTo_begin]
      exact hwritten p (hcount ▸ hp)
    · rw [hcur] at hp
      cases hp
  unfold Router.xsend
  rw [if_neg (by rw [h.moreOut]; simp)]
  unfold Router.sendIdentity
  rw [if_neg (by simp [hnone]), if_pos hm]
  split
  · next hlookup =>
    split
    · exact .ok fun hcon => (by cases hcon)
    · refine .ok fun _ => hdrop ?_ h.cooked rfl h.written rfl hnone
      simp [Exchange.route, Router.pipeOf, hlookup]
  · next o hlookup =>
    have hof : r.pipeOf m.body = some o.pipe := by simp [Router.pipeOf, hlookup]
    have hlisted : r.Listed o.pipe := ⟨m.body, hof⟩
    have halive := hs.listed_alive hlisted
    have hlt : o.pipe < r.inp.count := ((hs.attached o.pipe).mp (.inl (.inr ((hs.queued _).mp hlisted)))).1
    have hold := h.written o.pipe hlt
    by_cases hw : Outbound.Writable (r.inp.links o.pipe).near.pipe
    · have hcheck := Outbound.checkWrite_of_writable hw
      simp only [hcheck]
      have htarget : (Exchange.begin m.body r).target = some o.pipe := by
        simp [Exchange.begin, Exchange.route, hof, hcheck, Option.filter]
      have hlinks : r.setLink o.pipe (r.inp.links o.pipe) = r := by simp [Router.setLink]
      rw [hlinks]
      refine .ok fun _ => ⟨h.cooked, fun p hp => ?_, rfl, fun p hp => ?_, fun e p he hp => ?_,
        fun e p he hp _ => ?_, fun e p he hp => ?_⟩
      · rw [partTo_begin]
        exact h.written p hp
      · obtain rfl := some.inj hp
        exact ⟨_, rfl, htarget⟩
      · obtain rfl := some.inj he
        obtain rfl := some.inj (htarget.symm.trans hp)
        exact hlt
      · obtain rfl := some.inj he
        exact htarget.symm.trans hp
      · obtain rfl := some.inj he
        obtain rfl := some.inj (htarget.symm.trans hp)
        exact fun _ => ⟨hw.1, hold.ahead.full_iff.mp hw.2.2⟩
    · obtain ⟨l, hcheck, -, hfrees, hl⟩ := hold.refuse halive hw
      simp only [hcheck]
      split
      · exact .ok fun hcon => (by cases hcon)
      · refine .ok fun _ => hdrop ?_ h.cooked rfl ?_ rfl hnone
        · simp [Exchange.route, hof, hcheck, Option.filter]
        · exact h.written_setLink sent none hl fun _ _ => ⟨rfl, rfl⟩

lemma released (h : Holding sent (some e) r)
    (hclosed : ∀ p, e.target = some p → (r.inp.links p).near.pipe.state ≠ .active) :
    ∀ p < r.inp.count, Written (r.inp.links p) (sent p) [] := by
  intro p hp
  have hwritten := h.written p hp
  by_cases htarget : e.target = some p
  · exact hwritten.closed (hclosed p htarget) []
  · rwa [partTo, if_neg htarget] at hwritten

section

variable (hcooked : t.Cooked) (hcount : t.inp.count = r.inp.count) (hwritten : ∀ p < r.inp.count, Written (t.inp.links p) (sent p) [])

include hcooked hcount hwritten

lemma nothing (hmore : t.moreOut = false) (hout : t.currentOut = none) : Holding sent none t where
  cooked := hcooked
  written p hp := hwritten p (hcount ▸ hp)
  moreOut := hmore
  out p hp := by
    rw [hout] at hp
    cases hp
  lt e p he := by cases he
  held e p he := by cases he
  ready e p he := by cases he

lemma dropping (hmore : t.moreOut = true)
    (hout : t.currentOut = none) (htarget : e.target = none) : Holding sent (some e) t where
  cooked := hcooked
  written p hp := by
    rw [partTo, htarget, if_neg (by simp)]
    exact hwritten p (hcount ▸ hp)
  moreOut := hmore
  out p hp := by
    rw [hout] at hp
    cases hp
  lt e' p he hp := by
    obtain rfl := some.inj he
    simp [htarget] at hp
  held e' p he hp := by
    obtain rfl := some.inj he
    simp [htarget] at hp
  ready e' p he hp := by
    obtain rfl := some.inj he
    simp [htarget] at hp

end

/-- What the pipes were sent when the last frame of a reply is accepted. -/
def completed (sent : ℕ → List Msg) (e : Exchange) (p : ℕ) : List Msg :=
  if e.target = some p then sent p ++ e.frames else sent p

/-- A frame of a reply, or of its envelope, was accepted. -/
structure Accepts (sent : ℕ → List Msg) (e : Exchange) (m : Msg) (r t : Router) : Prop where
  holding : Holding (if m.more then sent else completed sent e) (if m.more then some e else none) t
  outbox : ∀ p < r.inp.count, (t.inp.links p).outbox = (r.inp.links p).outbox ++
    if m.more = false ∧ e.target = some p then e.frames else []

section

variable (h : Holding sent (some e) r)

include h

lemma accepts_dropped (m : Msg)
    (hclosed : ∀ p, e.target = some p → (r.inp.links p).near.pipe.state ≠ .active)
    (htarget : e'.target = none) :
    Accepts sent e' m r { r with moreOut := m.more, currentOut := none } := by
  have hwritten := h.released hclosed
  refine ⟨?_, fun p _ => by simp [htarget]⟩
  cases hm : m.more with
  | true => exact dropping (r := r) h.cooked rfl hwritten rfl rfl htarget
  | false =>
    refine nothing (r := r) h.cooked rfl (fun p hp => ?_) rfl rfl
    simpa [completed, htarget] using hwritten p hp

lemma accepts_more (hp : e.target = some p) (htarget : e'.target = some p)
    (hcur : r.currentOut = some p) (hm : m.more = true) {l : Link} (hl : Written l (sent p) e'.frames)
    (hready : Ready l.near.pipe) (hbox : l.outbox = (r.inp.links p).outbox) :
    Accepts sent e' m r ({ r with moreOut := true }.setLink p l) := by
  have hlt := h.lt e p rfl hp
  have hself : ∀ e1 q, some e' = some e1 → e1.target = some q → q = p := by
    intro e1 q he hq
    obtain rfl := some.inj he
    exact some.inj (hq.symm.trans htarget)
  refine ⟨?_, fun q hq => ?_⟩
  · rw [hm]
    refine ⟨h.cooked, ?_, rfl, fun q hq => ?_, fun e1 q he hq => ?_, fun e1 q he hq _ => ?_, fun e1 q he hq => ?_⟩
    · refine h.written_setLink sent (some e') ?_ fun q hq => ⟨rfl, ?_⟩
      · simpa [partTo, htarget] using hl
      · simp [partTo, hp, htarget, Ne.symm hq]
    · obtain rfl := some.inj (hcur.symm.trans hq)
      exact ⟨e', rfl, htarget⟩
    · rw [hself e1 q he hq]
      exact hlt
    · rw [hself e1 q he hq]
      exact hcur
    · rw [hself e1 q he hq]
      simpa [Router.setLink] using hready
  · by_cases hqp : q = p
    · subst hqp
      simpa [Router.setLink, hm] using hbox
    · simp [Router.setLink, hqp, hm]

lemma accepts_last (hp : e.target = some p) (htarget : e'.target = some p)
    (hm : m.more = false) {l : Link} (hl : Written l (sent p ++ e'.frames) [])
    (hbox : l.outbox = (r.inp.links p).outbox ++ e'.frames) :
    Accepts sent e' m r { { r with moreOut := false }.setLink p l with currentOut := none } := by
  refine ⟨?_, fun q hq => ?_⟩
  · rw [hm]
    refine nothing (r := r) h.cooked rfl (fun q hq => ?_) rfl rfl
    by_cases hqp : q = p
    · subst hqp
      simpa [Router.setLink, completed, htarget] using hl
    have hne : p ≠ q := Ne.symm hqp
    have hwritten := h.written q hq
    simp only [partTo, hp, some.injEq, hne, if_false] at hwritten
    simpa [Router.setLink, completed, htarget, hqp, hne] using hwritten
  · by_cases hqp : q = p
    · subst hqp
      simpa [Router.setLink, htarget, hm] using hbox
    · have hne : p ≠ q := Ne.symm hqp
      simp [Router.setLink, htarget, hqp, hne]

lemma sendPart (m : Msg) (e' : Exchange) (htarget : e'.target = (e.write r).target)
    (hframes : e'.frames = e.frames ++ [m]) :
    ∃ t, r.xsend m = .ok (.ok (), t) ∧ Accepts sent e' m r t := by
  have hmore : r.moreOut = true := h.moreOut
  have hstill : ∀ p, (r.inp.links p).near.pipe.state ≠ .active → e.target = some p → e'.target = none := by
    intro p hst hp
    simp [htarget, Exchange.write, hp, hst, Option.filter]
  cases hcur : r.currentOut with
  | none =>
    have hclosed : ∀ p, e.target = some p → (r.inp.links p).near.pipe.state ≠ .active := by
      intro p hp hst
      have hp' := h.currentOut_of_active hp hst
      rw [hcur] at hp'
      cases hp'
    have hnone : e'.target = none := by
      cases hp : e.target with
      | none => simp [htarget, Exchange.write, hp]
      | some p => exact hstill p (hclosed p hp) hp
    exact ⟨_, Router.xsend_dropped h.cooked hmore hcur m, h.accepts_dropped m hclosed hnone⟩
  | some p =>
    obtain ⟨_, he, hp⟩ := h.out p hcur
    obtain rfl := some.inj he
    have hlt := h.lt e p rfl hp
    by_cases hst : (r.inp.links p).near.pipe.state = .active
    · have htar : e'.target = some p := by simp [htarget, Exchange.write, hp, hst, Option.filter]
      have hwritten : Written (r.inp.links p) (sent p) e.frames := by
        simpa [partTo, hp] using h.written p hlt
      obtain ⟨hactive, hroom⟩ := h.ready e p rfl hp hst
      have hw : Outbound.Writable (r.inp.links p).near.pipe := ⟨hactive, hst, hwritten.ahead.full_iff.mpr hroom⟩
      obtain ⟨l, hwrite, hnear, hl⟩ := hwritten.write m hw
      have hbox := hwritten.outbox_write hw hwrite
      have hlst : l.near.pipe.state = .active := by
        rw [hnear]
        exact hst
      cases hm : m.more with
      | true =>
        simp only [hm, if_true, List.append_nil, ← hframes] at hl hbox
        refine ⟨_, Router.xsend_more h.cooked hmore hcur hwrite hm,
          h.accepts_more hp htar hcur hm hl (fun _ => ⟨?_, ?_⟩) hbox⟩
        · rw [hnear]
          exact hactive
        · have hzero : Link.counted m = 0 := by simp [Link.counted, hm]
          rw [hnear, hzero]
          exact hroom
      | false =>
        simp only [hm, Bool.false_eq_true, if_false, List.append_assoc, ← hframes] at hl hbox
        have hlalive : l.near.frees = 0 := by
          by_contra hdead
          exact hl.not_active hdead hlst
        obtain ⟨l', hflush, -, hl'⟩ := hl.flush hlalive hlst
        have hbox' := (hl.outbox_flush hlst hflush).trans hbox
        exact ⟨_, Router.xsend_last h.cooked hmore hcur hwrite hm hflush, h.accepts_last hp htar hm hl' hbox'⟩
    · have hclosed : ∀ q, e.target = some q → (r.inp.links q).near.pipe.state ≠ .active := by
        intro q hq
        obtain rfl := some.inj (hp.symm.trans hq)
        exact hst
      have hcheck : (r.inp.links p).checkWrite = (false, r.inp.links p) := by simp [Link.checkWrite, hst]
      have hwrite := Link.write_of_not_checkWrite m hcheck
      exact ⟨_, Router.xsend_refused h.cooked hmore hcur hwrite, h.accepts_dropped m hclosed (hstill p hst hp)⟩

lemma rollback (hp : (e.discard r).target ≠ none) : ∃ t, r.rollback = .ok t ∧ Holding sent none t := by
  obtain ⟨p, hp⟩ := ne_none_iff_exists'.mp hp
  obtain ⟨htarget, halive⟩ : e.target = some p ∧ (r.inp.links p).near.frees = 0 := by
    simpa [Exchange.discard, filter_eq_some_iff] using hp
  have hcur := h.held e p rfl htarget halive
  obtain ⟨l, hroll, -, hl⟩ := (h.written p (h.lt e p rfl htarget)).rollback halive
  refine ⟨{ r.setLink p l with currentOut := none, moreOut := false }, ?_, nothing (r := r) h.cooked rfl ?_ rfl rfl⟩
  · simp only [Router.rollback, hcur, hroll]
  · refine h.written_setLink sent none hl fun q hq => ⟨rfl, ?_⟩
    simp [partTo, htarget, Ne.symm hq]

end

lemma addPipe (h : Holding sent current r) (hwm0 hwm1 : ℤ) :
    Holding (update sent r.inp.count []) current (r.addPipe hwm0 hwm1) := by
  have hlinks : ∀ p < r.inp.count, (r.addPipe hwm0 hwm1).inp.links p = r.inp.links p := by
    intro p hp
    simp [Router.addPipe, Nat.ne_of_lt hp]
  refine ⟨h.cooked, fun p hp => ?_, h.moreOut, h.out, fun e p he hp => ?_, fun e p he hp => ?_, fun e p he hp => ?_⟩
  · by_cases hpc : p = r.inp.count
    · have hpart : partTo current p = [] := by
        cases current with
        | none => rfl
        | some e =>
          refine if_neg fun htarget => ?_
          have := h.lt e p rfl htarget
          omega
      rw [hpart]
      simp only [hpc, Router.addPipe, update_self]
      exact .pipepair hwm0 hwm1
    · have hlt : p < r.inp.count := by
        simp only [Router.addPipe] at hp
        omega
      rw [hlinks p hlt, update_of_ne hpc]
      exact h.written p hlt
  · have hlt := h.lt e p he hp
    simp only [Router.addPipe]
    omega
  · rw [hlinks p (h.lt e p he hp)]
    exact h.held e p he hp
  · rw [hlinks p (h.lt e p he hp)]
    exact h.ready e p he hp

/-- The greeting of a new pipe. -/
def greeting (probeRouter : Bool) : List Msg := if probeRouter then [Dealer.probeMsg] else []

lemma probe (h : Holding sent current r) {hwm0 hwm1 : ℤ} (hp : p < r.inp.count) (hsent : sent p = [])
    (hfree : ∀ e, current = some e → e.target ≠ some p)
    (hnear : (r.inp.links p).near.pipe = (Link.pipepair hwm0 hwm1).near.pipe) :
    Ensures (r.probe p) (Holding (update sent p (greeting r.probeRouter)) current) := by
  unfold Router.probe
  split
  · next hprobe =>
    have hpart : partTo current p = [] := by
      cases current with
      | none => rfl
      | some e => exact if_neg (hfree e rfl)
    have hwritten : Written (r.inp.links p) [] [] := by
      have hp' := h.written p hp
      rwa [hsent, hpart] at hp'
    have hw : Outbound.Writable (r.inp.links p).near.pipe := by
      rw [hnear]
      refine ⟨rfl, rfl, ?_⟩
      simp [Link.full, Link.pipepair, Link.newEndpoint, Link.newPipe]
      omega
    obtain ⟨l, hwrite, hlnear, hl⟩ := hwritten.write Dealer.probeMsg hw
    have hst : l.near.pipe.state = .active := by
      rw [hlnear]
      exact hw.2.1
    have halive : l.near.frees = 0 := by
      by_contra hdead
      exact hl.not_active hdead hst
    obtain ⟨l', hflush, -, hl'⟩ := hl.flush halive hst
    simp only [hwrite, hflush]
    have hlinks : ∀ q ≠ p, (r.setLink p l').inp.links q = r.inp.links q := by
      intro q hq
      simp [Router.setLink, hq]
    have hne : ∀ e q, current = some e → e.target = some q → q ≠ p := by
      rintro e q he hq rfl
      exact hfree e he hq
    refine .ok ⟨h.cooked, ?_, h.moreOut, h.out, h.lt, fun e q he hq => ?_, fun e q he hq => ?_⟩
    · refine h.written_setLink _ current ?_ fun q hq => ⟨update_of_ne hq _ _, rfl⟩
      rw [update_self, hpart, greeting, if_pos hprobe]
      exact hl'
    · rw [hlinks q (hne e q he hq)]
      exact h.held e q he hq
    · rw [hlinks q (hne e q he hq)]
      exact h.ready e q he hq
  · next hprobe =>
    rw [greeting, if_neg hprobe, ← hsent, update_eq_self]
    exact .ok h

lemma attach (h : Holding sent current r) (hs : r.Table none) (hwm0 hwm1 : ℤ) (before : List EndAct) :
    Ensures (r.step (.attach hwm0 hwm1 before)) (Holding (update (update sent r.inp.count [])
      r.inp.count (greeting r.probeRouter)) current) := by
  have hadd := h.addPipe hwm0 hwm1
  have hlt : r.inp.count < (r.addPipe hwm0 hwm1).inp.count := Nat.lt_succ_self _
  have hfree : ∀ e, current = some e → e.target ≠ some r.inp.count := by
    intro e he htarget
    exact absurd (h.lt e _ he htarget) (Nat.lt_irrefl _)
  simp only [Router.step]
  split
  · exact .error _
  next u hu =>
  obtain ⟨hnear, hprobe⟩ := Router.peerActs_near _ _ hlt (hadd.written _ hlt) u hu
  have hidle := Router.peerActs_idle _ _ _ _ hu
  have htable := (Router.peerActs_aside _ _ _ _ hu).renamed.table (Router.addPipe_table hs hwm0 hwm1)
  refine (Router.xattachPipe_placed htable).mono fun t ht => ?_
  obtain ⟨v, hv, hquiet, -⟩ := ht
  have hu' := hadd.quiet hidle.1
  have hlt' : r.inp.count < u.inp.count := by rwa [hidle.1.count]
  have hpipe : (u.inp.links r.inp.count).near.pipe = (Link.pipepair hwm0 hwm1).near.pipe := by
    rw [hnear]
    simp [Router.addPipe]
  have hgreeted := hu'.probe hlt' (by simp) hfree hpipe v hv
  rw [hprobe] at hgreeted
  exact hgreeted.quiet hquiet

end Holding

end Rep

end Zmq
