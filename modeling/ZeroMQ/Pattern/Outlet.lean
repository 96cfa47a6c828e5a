import ZeroMQ.Pattern.Dist
import ZeroMQ.Pattern.SocketAct
import ZeroMQ.Trie.Node

/-!
# The pipes of a distributor

What a distributor needs to know of its pipes is less than what a load balancer needs: that every act
on a pipe succeeds, whether a frame is taken, and when the pipe asks to be activated. `Outlet` is the
invariant of one pipe that gives this. It says nothing about the contents, so it is kept by hiccups too.
-/

namespace Zmq

open Link Function Prod Nat

/-- What can go wrong in a socket with a distributor and a trie of subscriptions. -/
inductive PubSubFault
  | pattern (fault : PatternFault)
  | trie (fault : TrieFault)
  deriving DecidableEq, Repr

/-- An end that frames can be offered to. -/
structure Outlet (s : Link) : Prop where
  shutdown : ShutdownInv s
  ahead : Ahead s

namespace Outlet

variable {s t : Link} {a : EndAct} {m : Msg}

lemma pipepair (hwm0 hwm1 : ℤ) : Outlet (Link.pipepair hwm0 hwm1) := ⟨.pipepair hwm0 hwm1, .pipepair hwm0 hwm1⟩

lemma move {e : Option SinkEvent} (h : Outlet s) (halive : s.near.frees = 0) (hmove : s.Move a t e) : Outlet t :=
  ⟨h.shutdown.move halive hmove, h.ahead.near hmove⟩

lemma far (h : Outlet s) (a : EndAct) :
    ∃ t e, s.swap.act a = .ok (t, e) ∧ Outlet t.swap ∧ t.swap.near.pipe = s.near.pipe ∧
      t.swap.near.frees = s.near.frees := by
  obtain ⟨t, e, hact, ⟨rfl, -⟩ | ⟨halive, hmove⟩⟩ := h.shutdown.swap.exists_move a
  · exact ⟨_, e, hact, h, rfl, rfl⟩
  obtain ⟨cs, hfar⟩ := hmove.far_eq
  have ht : ShutdownInv t := h.shutdown.swap.move halive hmove
  refine ⟨t, e, hact, ⟨ht.swap, h.ahead.far hmove⟩, ?_⟩
  rw [swap_near, hfar]
  exact ⟨rfl, rfl⟩

lemma exists_outpipe (h : Outlet s) (halive : s.near.frees = 0) (hst : s.near.pipe.state = .active) :
    ∃ i, s.near.pipe.outpipe = some i := by
  apply Option.ne_none_iff_exists'.1
  rw [ne_eq, h.shutdown.near.outpipe_iff, h.shutdown.near.acks_eq halive, hst]
  decide

lemma write (h : Outlet s) (halive : s.near.frees = 0) (hm : m.type = .data)
    (hw : Outbound.Writable s.near.pipe) :
    ∃ t, s.write m = .ok (true, t) ∧ Outlet t ∧ t.near = { s.near with
      pipe := { s.near.pipe with msgsWritten := s.near.pipe.msgsWritten + counted m } } := by
  obtain ⟨i, hi⟩ := h.exists_outpipe halive hw.2.1
  have hwrite := write_of_checkWrite m (Outbound.checkWrite_of_writable hw) hi (h.shutdown.outpipe_live hi)
  have hmove : s.Move (.write m.flags m.body)
      ((s.store i ((s.upipes i).queue.write m m.more)).countWrite m) none := by
    obtain ⟨type, flags, body⟩ := m
    obtain rfl : type = .data := hm
    exact .writeFrame i flags body hw.1 hw.2.1 hw.2.2 hi
  refine ⟨_, hwrite, h.move halive hmove, ?_⟩
  rw [countWrite_eq]
  rfl

lemma refuse (h : Outlet s) (halive : s.near.frees = 0) (hw : ¬ Outbound.Writable s.near.pipe) :
    ∃ t, (∀ m, s.write m = .ok (false, t)) ∧ Outlet t ∧ t.near.frees = s.near.frees ∧
      t.near.pipe.state = s.near.pipe.state ∧
      (t.near.pipe.state = .active → t.near.pipe.outActive = false) := by
  obtain ⟨hor, heq⟩ | ⟨hout, hst, hfull, heq⟩ | ⟨hout, hst, hfull, -⟩ := s.checkWrite_cases
  · refine ⟨s, fun m => write_of_not_checkWrite m heq, h, rfl, rfl, fun hst => ?_⟩
    exact hor.resolve_right (not_not_intro hst)
  · have hmove : s.Move .checkWrite _ none := .fill (.inl rfl) hout hst hfull
    exact ⟨_, fun m => write_of_not_checkWrite m heq, h.move halive hmove, rfl, rfl, fun _ => rfl⟩
  · exact absurd ⟨hout, hst, hfull⟩ hw

lemma flush (h : Outlet s) (halive : s.near.frees = 0) (hst : s.near.pipe.state = .active) :
    ∃ t, s.flush = .ok t ∧ Outlet t ∧ t.near = s.near := by
  obtain ⟨i, hi⟩ := h.exists_outpipe halive hst
  have hflush := flush_of_live (by rw [hst]; decide) hi (h.shutdown.outpipe_live hi)
  have hmove : s.Move .flush _ none := .flush i hi
  refine ⟨_, hflush, h.move halive hmove, ?_⟩
  split <;> rfl

/-- What becomes of a pipe that a frame is offered to. -/
structure Offered (m : Msg) (s : Link) (taken : Bool) (t : Link) : Prop where
  outlet : Outlet t
  frees : t.near.frees = s.near.frees
  state : t.near.pipe.state = s.near.pipe.state
  taken_iff : taken = true ↔ Outbound.Writable s.near.pipe
  pipe : taken = true → t.near.pipe = { s.near.pipe with msgsWritten := s.near.pipe.msgsWritten + counted m }
  refused : taken = false → t.near.pipe.state = .active → t.near.pipe.outActive = false

lemma offer (h : Outlet s) (halive : s.near.frees = 0) (hm : m.type = .data) :
    ∃ taken t, s.offer m = .ok (taken, t) ∧ Offered m s taken t := by
  unfold Link.offer
  by_cases hw : Outbound.Writable s.near.pipe
  · obtain ⟨t, hwrite, ht, hnear⟩ := h.write halive hm hw
    have hpipe : t.near.pipe =
        { s.near.pipe with msgsWritten := s.near.pipe.msgsWritten + counted m } := by rw [hnear]
    have hstate : t.near.pipe.state = .active := by
      rw [hpipe]
      exact hw.2.1
    simp only [hwrite]
    split
    · exact ⟨true, t, rfl, ht, by rw [hnear], by rw [hpipe], iff_of_true rfl hw, fun _ => hpipe,
        fun hf => by cases hf⟩
    obtain ⟨u, hflush, hu, hnear'⟩ := ht.flush (by rw [hnear]; exact halive) hstate
    rw [hflush]
    exact ⟨true, u, rfl, hu, by rw [hnear', hnear], by rw [hnear', hpipe], iff_of_true rfl hw,
      fun _ => by rw [hnear', hpipe], fun hf => by cases hf⟩
  · obtain ⟨t, hwrite, ht, hfrees, hstate, hnot⟩ := h.refuse halive hw
    simp only [hwrite]
    refine ⟨false, t, rfl, ht, hfrees, hstate, ?_, (fun hf => by cases hf), fun _ => hnot⟩
    exact iff_of_false (by decide) hw

lemma Offered.unblocks {taken : Bool} (h : Offered m s taken t) (htaken : taken = true) :
    Link.unblocks t.near.pipe = false := by
  rw [Link.unblocks, h.pipe htaken]
  simp [(h.taken_iff.1 htaken).1]

/-- What an act of the socket does to a pipe. -/
structure Acted (s : Link) (a : EndAct) (t : Link) (e : Option SinkEvent) : Prop where
  outlet : Outlet t
  dead : s.near.frees ≠ 0 → t = s ∧ e = none
  gone : s.near.frees = 0 → (t.near.frees ≠ 0 ↔ e = some .pipeTerminated)
  keeps : e ≠ some .hiccuped → Link.unblocks s.near.pipe = false → Link.unblocks t.near.pipe = false
  unblocked : e = some .writeActivated → Link.unblocks s.near.pipe = true ∧ Link.unblocks t.near.pipe = false
  /-- A hiccup is delivered to an active end, which can be written to afterwards if there is room. -/
  hiccuped : e = some .hiccuped → a = .deliver ∧ (∃ j, s.near.inbox.head? = some (.hiccup j)) ∧
    s.near.pipe.state = .active ∧ t.near.pipe.state = .active ∧ t.near.pipe.outActive = true ∧
    t.near.pipe.hwm = s.near.pipe.hwm ∧ t.near.pipe.msgsWritten = s.near.pipe.msgsWritten ∧
    t.near.pipe.peersMsgsRead = s.near.pipe.peersMsgsRead

lemma hiccuped_of_move {e : Option SinkEvent} (hmove : s.Move a t e) (he : e = some .hiccuped) :
    a = .deliver ∧ (∃ j, s.near.inbox.head? = some (.hiccup j)) ∧
      s.near.pipe.state = .active ∧ t.near.pipe.state = .active ∧ t.near.pipe.outActive = true ∧
      t.near.pipe.hwm = s.near.pipe.hwm ∧ t.near.pipe.msgsWritten = s.near.pipe.msgsWritten ∧
      t.near.pipe.peersMsgsRead = s.near.pipe.peersMsgsRead := by
  cases hmove with
  | plug cs i j hin hi =>
    by_cases hst : s.near.pipe.state = .active
    · exact ⟨rfl, ⟨some j, by rw [hin]; rfl⟩, hst, hst, rfl, rfl, rfl, rfl⟩
    · simp [hst] at he
  | activateRead cs hin | activateWrite cs n hin => split at he <;> simp at he
  | _ => cases he

lemma act (h : Outlet s) (ha : a.KeepsOutput) : ∃ t e, s.act a = .ok (t, e) ∧ Acted s a t e := by
  obtain ⟨t, e, hact, ⟨rfl, rfl⟩ | ⟨halive, hmove⟩⟩ := h.shutdown.exists_move a
  · exact ⟨t, none, hact, h, fun _ => ⟨rfl, rfl⟩, by simp, fun _ hs => hs, by simp, by simp⟩
  · have hframe := hmove.outFrame halive ha
    refine ⟨t, e, hact, h.move halive hmove, fun hne => absurd halive hne, fun _ => hframe.gone,
      fun _ => hframe.keeps, hframe.unblocked, hiccuped_of_move hmove⟩

lemma socketAct (h : Outlet s) (ha : a.KeepsOutput) :
    ∃ t e, s.socketAct a = .ok (t, e) ∧ Outlet t ∧ SocketFrame s a t e := by
  obtain ⟨t, e, hact, hshutdown, hahead, hframe⟩ := h.shutdown.socketAct h.ahead ha
  exact ⟨t, e, hact, ⟨hshutdown, hahead⟩, hframe⟩

lemma read (h : Outlet s) (halive : s.near.frees = 0) :
    ∃ r t, s.read = .ok (r, t) ∧ Outlet t ∧ SocketFrame s .read t none := by
  obtain ⟨t, e, hact, ht, hframe⟩ := h.socketAct (a := .read) trivial
  have hread : s.act .read = (s.read.map Prod.snd).map (·, none) := by
    rw [Link.act, Link.call, if_pos halive]
  cases hr : s.read with
  | error e' =>
    rw [hr] at hread
    simp only [Link.socketAct, hread, Except.map] at hact
    cases hact
  | ok r =>
    rw [hr] at hread
    simp only [Link.socketAct, hread, Except.map, Except.ok.injEq, Prod.mk.injEq] at hact
    obtain ⟨rfl, rfl⟩ := hact
    exact ⟨r.1, r.2, rfl, ht, hframe⟩

lemma terminate (h : Outlet s) (halive : s.near.frees = 0) (hst : s.near.pipe.state = .active)
    (delay : Bool) : ∃ t, s.terminate delay = .ok t ∧ Outlet t ∧ t.near.frees = 0 ∧
      Link.unblocks t.near.pipe = false ∧ t.near.pipe.state = .termReqSent1 := by
  obtain ⟨t, hterm, hmove, hst', hfrees⟩ := terminate_of_active h.shutdown halive hst delay
  refine ⟨t, hterm, h.move halive hmove, by rw [hfrees, halive], ?_, hst'⟩
  simp [Link.unblocks, hst']

end Outlet

/-! ### A distributor and its pipes -/

/-- The distributor holds the pipes that are not gone, and the ones that are not passive do not wait to
be activated. -/
structure Fanout (d : Dist) (links : Pipes) (count : ℕ) : Prop where
  dist : d.WF
  mem_iff : ∀ p, d.Mem p ↔ p < count ∧ (links p).near.frees = 0
  outlet : ∀ p < count, Outlet (links p)
  awake : ∀ p, d.IsEligible p → Link.unblocks (links p).near.pipe = false

namespace Fanout

variable {d d' : Dist} {links : Pipes} {count p : ℕ} {l : Link} {m : Msg}

lemma new (links : Pipes) : Fanout Dist.new links 0 where
  dist := Dist.new_wf
  mem_iff := by simp [Dist.new, Dist.Mem, PipeArray.empty]
  outlet p hp := absurd hp (not_lt_zero p)
  awake p hp := absurd hp.2 (not_lt_zero _)

section

variable (h : Fanout d links count)

include h

lemma count_notMem : ¬ d.Mem count := fun hmem =>
  absurd ((h.mem_iff count).1 hmem).1 (lt_irrefl _)

lemma outlet_of_mem (hp : d.Mem p) : Outlet (links p) := h.outlet p ((h.mem_iff p).1 hp).1

lemma alive (hp : d.Mem p) : (links p).near.frees = 0 := ((h.mem_iff p).1 hp).2

lemma outlet_update (hl : Outlet l) : ∀ q < count, Outlet (update links p l q) := fun _ hq =>
  Pipes.update_of_imp (P := Outlet) (fun _ => hl) (h.outlet _ hq)

lemma set {matching active eligible : ℕ → Prop}
    (hd : d'.Holds d.Mem matching active eligible) (hfrees : l.near.frees = (links p).near.frees)
    (hl : Outlet l) (heligible : ∀ q, eligible q → q ≠ p → d.IsEligible q)
    (hp : eligible p → Link.unblocks l.near.pipe = false) :
    Fanout d' (update links p l) count where
  dist := hd.wf
  mem_iff q := by
    rw [hd.mem_iff, h.mem_iff]
    by_cases hq : q = p
    · rw [hq, update_self, hfrees]
    · rw [update_of_ne hq]
  outlet := h.outlet_update hl
  awake q hq := by
    rw [hd.eligible_iff] at hq
    by_cases hqp : q = p
    · subst hqp
      rw [update_self]
      exact hp hq
    · rw [update_of_ne hqp]
      exact h.awake q (heligible q hq hqp)

lemma update (hfrees : l.near.frees = (links p).near.frees)
    (hl : Outlet l) (hp : d.IsEligible p → Link.unblocks l.near.pipe = false) :
    Fanout d (update links p l) count :=
  h.set ⟨h.dist, fun _ => Iff.rfl, fun _ => Iff.rfl, fun _ => Iff.rfl, fun _ => Iff.rfl⟩ hfrees hl
    (fun _ hq _ => hq) hp

lemma pipeTerminated (hp : d.Mem p) (hfrees : l.near.frees ≠ 0)
    (hl : Outlet l) : ∃ d', d.pipeTerminated p = some d' ∧ d'.more = d.more ∧
      d'.Holds (fun q => d.Mem q ∧ q ≠ p) (fun q => d.IsMatching q ∧ q ≠ p)
        (fun q => d.IsActive q ∧ q ≠ p) (fun q => d.IsEligible q ∧ q ≠ p) ∧
      Fanout d' (Function.update links p l) count := by
  obtain ⟨d', hd', hmore, hholds⟩ := h.dist.pipeTerminated hp
  refine ⟨d', hd', hmore, hholds, hholds.wf, fun q => ?_, h.outlet_update hl, fun q hq => ?_⟩
  · rw [hholds.mem_iff, h.mem_iff]
    by_cases hqp : q = p
    · subst hqp
      simp [hfrees]
    · simp [hqp]
  · obtain ⟨hq, hqp⟩ := (hholds.eligible_iff q).1 hq
    rw [update_of_ne hqp]
    exact h.awake q hq

lemma attach (hfrees : l.near.frees = 0) (hl : Outlet l)
    (hawake : Link.unblocks l.near.pipe = false) :
    ∃ d', d.attach count = some d' ∧ d'.more = d.more ∧
      d'.Holds (fun q => d.Mem q ∨ q = count) d.IsMatching
        (fun q => d.IsActive q ∨ (q = count ∧ d.more = false))
        (fun q => d.IsEligible q ∨ q = count) ∧
      Fanout d' (Function.update links count l) (count + 1) := by
  obtain ⟨d', hd', hmore, hholds⟩ := h.dist.attach h.count_notMem
  refine ⟨d', hd', hmore, hholds, hholds.wf, fun q => ?_, fun q hq => ?_, fun q hq => ?_⟩
  · rw [hholds.mem_iff, h.mem_iff]
    by_cases hqc : q = count
    · subst hqc
      simp [hfrees]
    · simp only [update_of_ne hqc, hqc, or_false, Nat.lt_succ_iff_lt_or_eq]
  · by_cases hqc : q = count
    · subst hqc
      rw [update_self]
      exact hl
    · rw [update_of_ne hqc]
      exact h.outlet q (by omega)
  · by_cases hqc : q = count
    · subst hqc
      rw [update_self]
      exact hawake
    · rw [update_of_ne hqc]
      exact h.awake q (((hholds.eligible_iff q).1 hq).resolve_right hqc)

lemma sendToMatching (hm : m.type = .data) :
    ∃ (taken : ℕ → Bool) (log : List (ℕ × Bool)) (d' : Dist) (links' : Pipes),
      d.sendToMatching m links = .ok (log, d', links') ∧ d'.more = m.more ∧
      d'.Holds d.Mem (fun q => d.IsMatching q ∧ taken q = true)
        (fun q => (if m.more then d.IsActive q else d.IsEligible q) ∧ (d.IsMatching q → taken q = true))
        (fun q => d.IsEligible q ∧ (d.IsMatching q → taken q = true)) ∧
      Fanout d' links' count ∧ (log.map fst).Nodup ∧
      (∀ q, d.IsMatching q → Outlet.Offered m (links q) (taken q) (links' q) ∧ log.lookup q = some (taken q)) ∧
      ∀ q, ¬ d.IsMatching q → links' q = links q ∧ log.lookup q = none := by
  have hex : ∀ q, ∃ r : Bool × Link, d.IsMatching q →
      (links q).offer m = .ok r ∧ Outlet.Offered m (links q) r.1 r.2 := by
    intro q
    by_cases hq : d.IsMatching q
    · obtain ⟨taken, t, hoffer, hoffered⟩ := (h.outlet_of_mem hq.1).offer (h.alive hq.1) hm
      exact ⟨(taken, t), fun _ => ⟨hoffer, hoffered⟩⟩
    · exact ⟨(false, links q), fun hq' => absurd hq' hq⟩
  choose r hr using hex
  obtain ⟨log, d', links', hsend, hmore, hholds, hnodup, hin, hout⟩ :=
    Dist.WF.sendToMatching (t := fun q => (r q).1) (a := fun q => (r q).2) h.dist (fun q hq => (hr q hq).1)
  have hoffered : ∀ q, d.IsMatching q → Outlet.Offered m (links q) (r q).1 (links' q) := by
    intro q hq
    rw [(hin q hq).1]
    exact (hr q hq).2
  refine ⟨fun q => (r q).1, log, d', links', hsend, hmore, hholds,
    ⟨hholds.wf, fun q => ?_, fun q hlt => ?_, fun q hq => ?_⟩, hnodup,
    fun q hq => ⟨hoffered q hq, (hin q hq).2⟩, hout⟩
  · rw [hholds.mem_iff, h.mem_iff]
    by_cases hq : d.IsMatching q
    · rw [(hoffered q hq).frees]
    · rw [(hout q hq).1]
  · by_cases hq : d.IsMatching q
    · exact (hoffered q hq).outlet
    · rw [(hout q hq).1]
      exact h.outlet q hlt
  · obtain ⟨heligible, htaken⟩ := (hholds.eligible_iff q).1 hq
    by_cases hq : d.IsMatching q
    · exact (hoffered q hq).unblocks (htaken hq)
    · rw [(hout q hq).1]
      exact h.awake q heligible

lemma sendToAll (hm : m.type = .data) :
    ∃ (taken : ℕ → Bool) (log : List (ℕ × Bool)) (d' : Dist) (links' : Pipes),
      d.sendToAll m links = .ok (log, d', links') ∧ d'.more = m.more ∧
      d'.Holds d.Mem (fun q => d.IsActive q ∧ taken q = true)
        (fun q => (if m.more then d.IsActive q else d.IsEligible q) ∧ (d.IsActive q → taken q = true))
        (fun q => d.IsEligible q ∧ (d.IsActive q → taken q = true)) ∧
      Fanout d' links' count ∧ (log.map fst).Nodup ∧
      (∀ q, d.IsActive q → Outlet.Offered m (links q) (taken q) (links' q) ∧ log.lookup q = some (taken q)) ∧
      ∀ q, ¬ d.IsActive q → links' q = links q ∧ log.lookup q = none := by
  have hall : Fanout { d with matching := d.active } links count :=
    ⟨⟨h.dist.pipes, le_rfl, h.dist.active, h.dist.eligible, h.dist.between⟩, h.mem_iff, h.outlet, h.awake⟩
  exact hall.sendToMatching hm

end

end Fanout

end Zmq
