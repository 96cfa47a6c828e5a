import ZeroMQ.Pattern.Lb

/-!
# Messages stay whole in the load balancer

The load balancer keeps a message together as long as the pipe of the message stays where it is: every
frame goes to the pipe at the index `current`. `LbInv` says what holds between two steps: which pipes
are in the ring, what was written to each of them, and where the message in progress goes.

Two things break it. If the peer terminates the pipe of the message and the request arrives between
two frames, the next frame is refused and the assertion that this does not happen fails. And if another
pipe is removed, the pipe of the message may be swapped to another index while the turn goes to the
first pipe, which then gets the rest of the message. `LbSystem.Good` excludes these two steps, and
`lb_atomic` shows that in every other run messages stay whole.
-/

namespace Zmq

open Foundation Function List Nat Prod Bool Except

namespace Written

variable {s t : Link} {a : EndAct} {e : Option SinkEvent} {w part : List Msg}

open Link

lemma closed (h : Written s w part) (hst : s.near.pipe.state ≠ .active) (part' : List Msg) :
    Written s w part' :=
  ⟨h.out, fun hact => absurd hact hst, h.ahead⟩

lemma not_active (h : Written s w part) (hdead : s.near.frees ≠ 0) :
    s.near.pipe.state ≠ .active := by
  intro hst
  obtain ⟨i, hi, -⟩ := h.waiting hst
  have hnone := h.out.shutdown.near.outpipe_iff.mpr (h.out.shutdown.near.dead hdead).2.1
  rw [hi] at hnone
  simp at hnone

lemma socketAct (h : Written s w part) (ha : a.KeepsOutput) :
    ∃ t e, s.socketAct a = .ok (t, e) ∧ Written t w part ∧ SocketFrame s a t e := by
  obtain ⟨t', e', hact', -, hahead, hframe'⟩ := h.out.shutdown.socketAct h.ahead ha
  refine ⟨t', e', hact', ?_, hframe'⟩
  obtain ⟨t, e, hact, ⟨rfl, rfl⟩ | ⟨halive, hmove⟩⟩ := h.out.shutdown.exists_move a
  · simp only [Link.socketAct, hact, ok.injEq, Prod.mk.injEq] at hact'
    exact hact'.1 ▸ h
  have hframe := hmove.outFrame halive ha
  have hout := h.out.keep halive ha hmove
  by_cases he : e = some .hiccuped
  · -- the new pipe knows nothing of the message in progress, but the end is closed at once
    have halive' : t.near.frees = 0 := by
      by_contra hne
      exact absurd (he.symm.trans (hframe.gone.mp hne)) (by simp)
    obtain ⟨u, hterm, hmove', hst', -⟩ :=
      terminate_of_active hout.shutdown halive' (hframe.hiccuped he) false
    have heq : ok (u, none) = (.ok (t', e') : Except PipeFault (Link × Option SinkEvent)) := by
      rw [← hact']
      simp only [Link.socketAct, hact, he, hterm]
      rfl
    obtain ⟨rfl, -⟩ := Prod.mk.inj (ok.inj heq)
    refine ⟨hout.keep halive' (a := .terminate false) trivial hmove', fun hactive => ?_, hahead⟩
    rw [hst'] at hactive
    cases hactive
  · simp only [Link.socketAct, hact, ok.injEq, Prod.mk.injEq] at hact'
    rw [← hact'.1] at hahead ⊢
    exact ⟨hout, h.waiting.keep hframe he, hahead⟩

end Written

/-! ### The pipes of the load balancer -/

/-- What was written to each pipe is `w` and `part`, and an active pipe does not wait to be told that it
can take frames again. -/
abbrev LbCore (r : Ring ℕ) (links : Pipes) (count : ℕ) (w part : ℕ → List Msg) : Prop :=
  Attached (fun p l => Written l (w p) (part p)) (fun l => Link.unblocks l.near.pipe = false) r links
    count

namespace LbCore

variable {r r' : Ring ℕ} {links : Pipes} {count p : ℕ} {w part w' part' : ℕ → List Msg} {l : Link}

lemma dropCurrent_eq (r : Ring ℕ) (p : ℕ) (h : r.WF) (hp : r.IsCurrent p) :
    Lb.dropCurrent r = r.deactivate := by
  have hlt := hp.1
  unfold Lb.dropCurrent Ring.deactivate
  by_cases hc : r.current < r.active - 1
  · simp only [if_pos hc, if_neg (Nat.ne_of_lt hc)]
    cases r.pipes.swap r.current (r.active - 1) <;> rfl
  have heq : r.current = r.active - 1 := by omega
  simp only [if_neg hc, if_pos heq]
  rw [← heq, h.pipes.swap_self hp.2]
  rfl

/-- What was written to the pipes after a frame was written to one of them. -/
def wroteTo (m : Msg) (p : ℕ) (w part : ℕ → List Msg) : ℕ → List Msg :=
  update w p (if m.more then w p else w p ++ part p ++ [m])

/-- The frames that wait for the rest of their message after a frame was written to a pipe. -/
def waitsIn (m : Msg) (p : ℕ) (part : ℕ → List Msg) : ℕ → List Msg :=
  update part p (if m.more then part p ++ [m] else [])

/-- A frame was written to the current pipe `p`. -/
structure Wrote (m : Msg) (p : ℕ) (before : Pipes) (r : Ring ℕ) (links : Pipes) (count : ℕ)
    (w part : ℕ → List Msg) : Prop where
  current : r.IsCurrent p
  core : LbCore r links count (wroteTo m p w part) (waitsIn m p part)
  frees : ∀ q, (links q).near.frees = (before q).near.frees
  active : (links p).near.pipe.state = .active
  ready : m.more = true → Ready (links p).near.pipe

lemma tryWrite_ok (h : LbCore r links count w part) (m : Msg) (hp : r.IsCurrent p)
    (hw : Outbound.Writable (links p).near.pipe) :
    ∃ links', Lb.tryWrite m p links = .ok (some (), links') ∧
      Wrote m p links r links' count w part := by
  have hwritten := h.inv p (h.lt_count hp.isActive)
  obtain ⟨t, hwrite, hnear, ht⟩ := hwritten.write m hw
  have hstate : t.near.pipe.state = .active := by
    rw [hnear]
    exact hw.2.1
  have hout : t.near.pipe.outActive = true := by
    rw [hnear]
    exact hw.1
  refine ⟨update links p t, by simp only [Lb.tryWrite, hwrite]; rfl, hp, ?_, fun q => ?_, ?_,
    fun hmore _ => ?_⟩
  · refine h.update (by rw [hnear]) (fun _ => ?_) (fun q k hq hk => ?_)
      (fun _ => Link.unblocks_eq_false.mpr fun _ => hout)
    · rw [wroteTo, waitsIn, update_self, update_self]
      exact ht
    · rw [wroteTo, waitsIn, update_of_ne hq, update_of_ne hq]
      exact hk
  · by_cases hq : q = p
    · rw [hq, update_self, hnear]
    · rw [update_of_ne hq]
  · rw [update_self]
    exact hstate
  · rw [update_self]
    refine ⟨hout, ?_⟩
    have hroom := hwritten.ahead.full_iff.mp hw.2.2
    have hzero : Link.counted m = 0 := by simp [Link.counted, hmore]
    rw [hnear, hzero]
    exact hroom

lemma search_write (h : LbCore r links count w part) (m : Msg) :
    (∃ p r' links', Ring.search .outOfBounds (Lb.tryWrite m) (.ok ()) Lb.dropCurrent r.active r links =
        .ok (some (), r', links') ∧ Wrote m p links r' links' count w part) ∨
    (∃ r' links', Ring.search .outOfBounds (Lb.tryWrite m) (.ok ()) Lb.dropCurrent r.active r links =
        .ok (none, r', links') ∧ LbCore r' links' count w part ∧
      ∀ q, (links' q).near.frees = (links q).near.frees) := by
  have hprobe : ∀ r' links' p, LbCore r' links' count w part →
      (∀ q, (links' q).near.frees = (links q).near.frees) → r'.IsCurrent p →
      (∃ b links'', Lb.tryWrite m p links' = .ok (some b, links'') ∧
        Wrote m p links r' links'' count w part) ∨
      (∃ l, Lb.tryWrite m p links' = .ok (none, update links' p l) ∧
        l.near.frees = (links' p).near.frees ∧ Written l (w p) (part p)) := by
    intro r' links' p hcore hfrees hp
    by_cases hw : Outbound.Writable (links' p).near.pipe
    · obtain ⟨links'', htry, hwrote⟩ := LbCore.tryWrite_ok hcore m hp hw
      exact .inl ⟨(), links'', htry, hwrote.current, hwrote.core,
        fun q => (hwrote.frees q).trans (hfrees q), hwrote.active, hwrote.ready⟩
    · obtain ⟨t, -, hwrite, hf, ht⟩ :=
        (hcore.inv p (hcore.lt_count hp.isActive)).refuse (hcore.alive hp.isActive) hw
      exact .inr ⟨t, by simp only [Lb.tryWrite, hwrite m]; rfl, hf, ht⟩
  obtain ⟨b, p, r', links', hs, hwrote⟩ | hnone := h.search dropCurrent_eq hprobe
  · exact .inl ⟨p, r', links', hs, hwrote⟩
  · exact .inr hnone

lemma search_checkWrite (h : LbCore r links count w part) :
    ∃ b r' links', Ring.search .outOfBounds Lb.tryCheckWrite (.ok ()) Ring.deactivate r.active r links =
        .ok (b, r', links') ∧ LbCore r' links' count w part ∧
      ∀ q, (links' q).near.frees = (links q).near.frees := by
  have hprobe : ∀ r' links' p, LbCore r' links' count w part →
      (∀ q, (links' q).near.frees = (links q).near.frees) → r'.IsCurrent p →
      (∃ b links'', Lb.tryCheckWrite p links' = .ok (some b, links'') ∧
        (LbCore r' links'' count w part ∧
          ∀ q, (links'' q).near.frees = (links q).near.frees)) ∨
      (∃ l, Lb.tryCheckWrite p links' = .ok (none, update links' p l) ∧
        l.near.frees = (links' p).near.frees ∧ Written l (w p) (part p)) := by
    intro r' links' p hcore hfrees hp
    by_cases hw : Outbound.Writable (links' p).near.pipe
    · refine .inl ⟨(), links', ?_, hcore, hfrees⟩
      simp only [Lb.tryCheckWrite, Outbound.checkWrite_of_writable hw, update_eq_self]
      rfl
    · obtain ⟨t, hcheck, -, hf, ht⟩ :=
        (hcore.inv p (hcore.lt_count hp.isActive)).refuse (hcore.alive hp.isActive) hw
      exact .inr ⟨t, by simp only [Lb.tryCheckWrite, hcheck]; rfl, hf, ht⟩
  obtain ⟨b, p, r', links', hs, hcore, hfrees⟩ | ⟨r', links', hs, hcore, hfrees⟩ :=
    h.search (fun _ _ _ _ => rfl) hprobe
  · exact ⟨some b, r', links', hs, hcore, hfrees⟩
  · exact ⟨none, r', links', hs, hcore, hfrees⟩

lemma Wrote.finish {m : Msg} {before : Pipes} (h : Wrote m p before r links count w part)
    (lb : Lb) :
    ∃ lb' links', lb.finishSend m r links = .ok (.written p, lb', links') ∧
      lb'.more = m.more ∧ lb'.dropping = lb.dropping ∧
      LbCore lb'.toRing links' count (wroteTo m p w part) (waitsIn m p part) ∧
      (∀ q, (links' q).near.frees = (before q).near.frees) ∧
      (m.more = true → lb'.IsCurrent p ∧ Ready (links' p).near.pipe) := by
  cases hmore : m.more with
  | true =>
    refine ⟨{ lb with toRing := r, more := true }, links, ?_, rfl, rfl, h.core, h.frees,
      fun _ => ⟨h.current, h.ready hmore⟩⟩
    simp only [Lb.finishSend, h.current.2, hmore]
    rfl
  | false =>
    have hactive := h.current.isActive
    have hlt := h.core.lt_count hactive
    obtain ⟨t, hflush, hnear, ht⟩ := (h.core.inv p hlt).flush (h.core.alive hactive) h.active
    refine ⟨{ lb with toRing := r.advance, more := false }, update links p t, ?_, rfl, rfl, ?_,
      fun q => ?_, fun hcon => absurd hcon (by decide)⟩
    · simp only [Lb.finishSend, h.current.2, hmore, hflush]
      rfl
    · refine h.core.set (h.core.ring.advance (zero_lt_of_lt h.current.1)) (by rw [hnear])
        (fun _ => ht) (fun _ _ _ hk => hk) (fun _ hq _ => hq) (fun hq => ?_)
      rw [hnear]
      exact h.core.active p hq
    · rw [← h.frees q]
      by_cases hq : q = p
      · rw [hq, update_self, hnear]
      · rw [update_of_ne hq]

end LbCore

namespace LbSystem

variable {s : LbSystem}

/-- The frames of a message in progress that were written to a pipe. -/
def framesTo (p : ℕ) (g : List Frame) : List Msg := (g.filter fun f => f.2 = some p).map Prod.fst

/-- Where the message in progress stands. -/
inductive Phase (s : LbSystem) : Prop
  /-- Between two messages. -/
  | between (hmore : s.lb.more = false) (hdrop : s.lb.dropping = false) (hnil : s.sending = [])
  /-- All frames so far went to the current pipe. -/
  | inside (p : ℕ) (hmore : s.lb.more = true) (hdrop : s.lb.dropping = false)
      (hcur : s.lb.IsCurrent p) (hne : s.sending ≠ []) (hall : ∀ f ∈ s.sending, f.1.more = true)
      (hto : ∀ f ∈ s.sending, f.2 = some p) (hready : Ready (s.links p).near.pipe)
  /-- The pipe of the message is gone, and the frames that came later were dropped. -/
  | dropping (p : ℕ) (head tail : List Frame) (hmore : s.lb.more = true)
      (hdrop : s.lb.dropping = true) (hlt : p < s.count) (hdead : (s.links p).near.frees ≠ 0)
      (heq : s.sending = head ++ tail) (hne : head ≠ []) (hall : ∀ f ∈ s.sending, f.1.more = true)
      (hto : ∀ f ∈ head, f.2 = some p) (hnone : ∀ f ∈ tail, f.2 = none)

end LbSystem

/-- The invariant of the load balancer. -/
structure LbInv (s : LbSystem) : Prop where
  core : LbCore s.lb.toRing s.links s.count (fun p => LbSystem.wholeTo p s.sent)
    (fun p => LbSystem.framesTo p s.sending)
  phase : s.Phase
  sent : ∀ g ∈ s.sent, LbSystem.IsMessage g ∧ s.Placed g

namespace LbSystem

variable {s t : LbSystem} {m : Msg} {p q : ℕ} {g : List Frame}

/-! ### The frames of a pipe -/

lemma framesTo_append (p : ℕ) (g : List Frame) (m : Msg) (d : Option ℕ) :
    framesTo p (g ++ [(m, d)]) = framesTo p g ++ if d = some p then [m] else [] := by
  by_cases hd : d = some p <;> simp [framesTo, hd]

lemma framesTo_of_all (h : ∀ f ∈ g, f.2 = some p) : framesTo p g = g.map fst := by
  rw [framesTo, filter_eq_self.mpr]
  intro f hf
  simp [h f hf]

lemma framesTo_eq_nil (h : ∀ f ∈ g, f.2 ≠ some q) : framesTo q g = [] := by
  rw [framesTo, filter_eq_nil_iff.mpr, map_nil]
  intro f hf
  simp [h f hf]

lemma framesTo_of_ne (h : ∀ f ∈ g, f.2 = some p) (hq : q ≠ p) : framesTo q g = [] := by
  refine framesTo_eq_nil fun f hf heq => hq ?_
  rw [h f hf] at heq
  exact (Option.some.inj heq).symm

lemma framesTo_of_dropped {head tail : List Frame} (hto : ∀ f ∈ head, f.2 = some p)
    (hnone : ∀ f ∈ tail, f.2 = none) (hq : q ≠ p) : framesTo q (head ++ tail) = [] := by
  refine framesTo_eq_nil fun f hf heq => ?_
  rcases mem_append.mp hf with hf | hf
  · rw [hto f hf] at heq
    exact hq (Option.some.inj heq).symm
  · rw [hnone f hf] at heq
    simp at heq

lemma wholeTo_append (p : ℕ) (sent : List (List Frame)) (g : List Frame) :
    wholeTo p (sent ++ [g]) = wholeTo p sent ++ if wentTo p g then g.map fst else [] := by
  cases hg : wentTo p g <;> simp [wholeTo, hg]

lemma wentTo_append (g : List Frame) {d : Option ℕ} (hd : d ≠ some p) :
    wentTo p (g ++ [(m, d)]) = false := by
  simp [wentTo, hd]

lemma wentTo_of_all (h : ∀ f ∈ g, f.2 = some p) : wentTo p (g ++ [(m, some p)]) = true := by
  simp only [wentTo, all_append, all_cons, all_nil, Bool.and_true, Bool.and_eq_true,
    all_eq_true, decide_eq_true_eq]
  exact ⟨h, trivial⟩

lemma Placed.mono (h : s.Placed g) (hcount : s.count ≤ t.count)
    (hdead : ∀ p < s.count, (s.links p).near.frees ≠ 0 → (t.links p).near.frees ≠ 0) :
    t.Placed g := by
  obtain ⟨p, hp, head, tail, heq, hne, hto, hnone, hgone⟩ := h
  exact ⟨p, lt_of_lt_of_le hp hcount, head, tail, heq, hne, hto, hnone,
    fun htail => hdead p hp (hgone htail)⟩

lemma Phase.mono (h : s.Phase) (hmore : t.lb.more = s.lb.more)
    (hdrop : t.lb.dropping = s.lb.dropping) (hsending : t.sending = s.sending)
    (hcount : s.count ≤ t.count)
    (hcur : s.lb.more = true → s.lb.dropping = false → ∀ p, s.lb.IsCurrent p →
      Ready (s.links p).near.pipe → t.lb.IsCurrent p ∧ Ready (t.links p).near.pipe)
    (hdead : ∀ p < s.count, (s.links p).near.frees ≠ 0 → (t.links p).near.frees ≠ 0) : t.Phase := by
  cases h with
  | between h1 h2 h3 => exact .between (hmore.trans h1) (hdrop.trans h2) (hsending.trans h3)
  | inside p h1 h2 h3 hne hall hto hready =>
    obtain ⟨hc, hr⟩ := hcur h1 h2 p h3 hready
    rw [← hsending] at hne hall hto
    exact .inside p (hmore.trans h1) (hdrop.trans h2) hc hne hall hto hr
  | dropping p head tail h1 h2 hlt hgone heq hne hall hto hnone =>
    rw [← hsending] at heq hall
    exact .dropping p head tail (hmore.trans h1) (hdrop.trans h2) (lt_of_lt_of_le hlt hcount)
      (hdead p hlt hgone) heq hne hall hto hnone

lemma Phase.framesTo_count (h : s.Phase) (hlt : ∀ p, s.lb.IsCurrent p → p < s.count) :
    framesTo s.count s.sending = [] := by
  cases h with
  | between h1 h2 h3 => rw [h3]; rfl
  | inside p h1 h2 h3 hne hall hto hready => exact framesTo_of_ne hto (ne_of_gt (hlt p h3))
  | dropping p head tail h1 h2 hp hgone heq hne hall hto hnone =>
    rw [heq]
    exact framesTo_of_dropped hto hnone (ne_of_gt hp)

lemma Placed.wentTo_count (h : s.Placed g) : wentTo s.count g = false := by
  obtain ⟨p, hp, head, tail, rfl, hne, hto, -⟩ := h
  obtain ⟨f, hf⟩ := exists_mem_of_ne_nil head hne
  rw [wentTo, all_eq_false]
  refine ⟨f, mem_append_left _ hf, ?_⟩
  simp [hto f hf, Nat.ne_of_lt hp]

lemma wholeTo_count (h : ∀ g ∈ s.sent, s.Placed g) : wholeTo s.count s.sent = [] := by
  rw [wholeTo, filter_eq_nil_iff.mpr]
  · rfl
  · intro g hg
    simp [(h g hg).wentTo_count]

end LbSystem

/-! ### Steps -/

namespace LbInv

variable {s t : LbSystem}

open LbSystem

lemma new : LbInv LbSystem.new where
  core := Attached.empty _ _ _
  phase := .between rfl rfl rfl
  sent := by simp [LbSystem.new]

lemma mono (h : LbInv s)
    (hcore : LbCore t.lb.toRing t.links t.count (fun p => wholeTo p s.sent)
      (fun p => framesTo p s.sending))
    (hmsgs : t.sent = s.sent ∧ t.sending = s.sending)
    (hflags : t.lb.more = s.lb.more ∧ t.lb.dropping = s.lb.dropping) (hcount : s.count ≤ t.count)
    (hcur : s.lb.more = true → s.lb.dropping = false → ∀ p, s.lb.IsCurrent p →
      Ready (s.links p).near.pipe → t.lb.IsCurrent p ∧ Ready (t.links p).near.pipe)
    (hdead : ∀ p < s.count, (s.links p).near.frees ≠ 0 → (t.links p).near.frees ≠ 0) : LbInv t where
  core := by
    rw [hmsgs.1, hmsgs.2]
    exact hcore
  phase := h.phase.mono hflags.1 hflags.2 hmsgs.2 hcount hcur hdead
  sent g hg := by
    rw [hmsgs.1] at hg
    exact ⟨(h.sent g hg).1, (h.sent g hg).2.mono hcount hdead⟩

lemma attach (h : LbInv s) (hwm0 hwm1 : ℤ) :
    ∃ t, s.step (.attach hwm0 hwm1) = .ok t ∧ LbInv t := by
  obtain ⟨r, hr, hholds, hcur⟩ := h.core.ring.attach h.core.count_notMem
  have hstep : s.lb.attach s.count = some { s.lb with toRing := r } := by
    simp only [Lb.attach, Lb.activated]
    rw [hr]
    rfl
  have hlt : ∀ p, s.lb.IsCurrent p → p < s.count := fun p hp => h.core.lt_count hp.isActive
  refine ⟨{ s with lb := { s.lb with toRing := r }
                   links := update s.links s.count (Link.pipepair hwm0 hwm1)
                   count := s.count + 1 }, by simp only [step, hstep],
    h.mono ?_ ⟨rfl, rfl⟩ ⟨rfl, rfl⟩ (Nat.le_succ _) ?_ ?_⟩
  · refine h.core.attach hholds rfl ?_ rfl
    simp only [wholeTo_count fun g hg => (h.sent g hg).2, h.phase.framesTo_count hlt]
    exact .pipepair hwm0 hwm1
  · intro _ _ p hp hready
    refine ⟨hcur p hp, ?_⟩
    simp only [update_of_ne (Nat.ne_of_lt (hlt p hp))]
    exact hready
  · intro p hp hdead
    simp only [update_of_ne (Nat.ne_of_lt hp)]
    exact hdead

lemma hasOut (h : LbInv s) : ∃ t, s.step .hasOut = .ok t ∧ LbInv t := by
  cases hmore : s.lb.more with
  | true => exact ⟨s, by simp [step, Lb.hasOut, hmore], h⟩
  | false =>
    obtain ⟨b, r, links, hsearch, hcore, hfrees⟩ := h.core.search_checkWrite
    refine ⟨{ s with lb := { s.lb with toRing := r }, links := links }, ?_,
      h.mono hcore ⟨rfl, rfl⟩ ⟨rfl, rfl⟩ (le_refl _) ?_ ?_⟩
    · simp [step, Lb.hasOut, hmore, hsearch]
    · intro hcon
      rw [hmore] at hcon
      exact absurd hcon (by decide)
    · intro p _ hdead
      rw [hfrees p]
      exact hdead

lemma peer (h : LbInv s) (p : ℕ) (a : EndAct) : ∃ t, s.step (.peer p a) = .ok t ∧ LbInv t := by
  by_cases hp : p < s.count
  swap
  · exact ⟨s, by simp [step, hp], h⟩
  obtain ⟨l, e, hact, hl, hpipe, hfrees⟩ := (h.core.inv p hp).far a
  refine ⟨{ s with links := update s.links p l.swap }, by simp [step, hp, hact],
    h.mono ?_ ⟨rfl, rfl⟩ ⟨rfl, rfl⟩ (le_refl _) ?_ ?_⟩
  · refine h.core.update hfrees (fun _ => hl) (fun _ _ _ hk => hk) fun hactive => ?_
    rw [hpipe]
    exact h.core.active p hactive
  · exact fun _ _ q hq hready => ⟨hq, Pipes.update_of_imp (P := fun k => Ready k.near.pipe)
      (by rw [hpipe]; exact id) hready⟩
  · exact fun q _ hdead => Pipes.update_of_imp (P := fun k => k.near.frees ≠ 0) (by rw [hfrees]; exact id) hdead

lemma pipeTerminated (h : LbInv s) {p : ℕ} {l : Link} (hp : p < s.count)
    (halive : (s.links p).near.frees = 0) (hgone : l.near.frees ≠ 0)
    (hl : Written l (wholeTo p s.sent) (framesTo p s.sending))
    (hgood : s.lb.more = true → s.lb.dropping = false → ¬s.lb.Misplaces p) :
    ∃ lb, s.lb.pipeTerminated p = some lb ∧
      LbInv { s with lb := lb, links := update s.links p l } := by
  have hmem := (h.core.mem_iff p).mpr ⟨hp, halive⟩
  obtain ⟨r, hr, hholds, hcur⟩ := h.core.ring.remove hmem
  have hcore := h.core.remove hholds hgone fun _ => hl
  have hdead : ∀ q, (s.links q).near.frees ≠ 0 →
      (update s.links p l q).near.frees ≠ 0 := fun q =>
    Pipes.update_of_imp (P := fun k => k.near.frees ≠ 0) fun _ => hgone
  refine ⟨_, by rw [Lb.pipeTerminated, hr]; rfl, hcore, ?_, fun g hg =>
    ⟨(h.sent g hg).1, (h.sent g hg).2.mono (le_refl _) fun q _ => hdead q⟩⟩
  cases h.phase with
  | between h1 h2 h3 => exact .between h1 (by simp [h1, h2]) h3
  | inside q h1 h2 hq hne hall hto hready =>
    by_cases hqp : q = p
    · -- the pipe of the message is gone
      subst hqp
      have hidx := h.core.ring.index_current hq
      refine .dropping q s.sending [] h1 (by simp [hidx, h1]) hp ?_ (by simp) hne hall hto (by simp)
      simp only [update_self]
      exact hgone
    · refine .inside q h1 ?_ (hcur q hq hqp (hgood h1 h2)) hne hall hto ?_
      · have hidx : s.lb.pipes.index p ≠ s.lb.current := by
          intro heq
          have hat := h.core.ring.pipes.at_index hmem
          rw [heq] at hat
          exact hqp (Option.some.inj (hq.2.symm.trans hat))
        simp [hidx, h2]
      · simp only [update_of_ne hqp]
        exact hready
  | dropping q head tail h1 h2 hq hqd heq hne hall hto hnone =>
    exact .dropping q head tail h1 (by simp [h2]) hq (hdead q hqd) heq hne hall hto hnone

lemma owner (h : LbInv s) (p : ℕ) (a : { a : EndAct // a.KeepsOutput })
    (hgood : s.Good (.owner p a)) : ∃ t, s.step (.owner p a) = .ok t ∧ LbInv t := by
  by_cases hp : p < s.count
  swap
  · exact ⟨s, by simp [step, hp], h⟩
  obtain ⟨l, e, hact, hl, hframe⟩ := (h.core.inv p hp).socketAct a.2
  by_cases halive : (s.links p).near.frees = 0
  swap
  · obtain ⟨rfl, rfl⟩ := hframe.dead halive
    refine ⟨s, ?_, h⟩
    simp [step, hp, hact, react]
  by_cases hterm : e = some .pipeTerminated
  · have hgone := (hframe.gone halive).mpr hterm
    obtain ⟨lb, hlb, hinv⟩ := h.pipeTerminated hp halive hgone hl fun h1 h2 =>
      hgood h1 h2 (hframe.ack hterm).1 (hframe.ack hterm).2
    refine ⟨_, ?_, hinv⟩
    simp [step, hp, hact, hterm, react, hlb]
  · have hfrees : l.near.frees = (s.links p).near.frees := by
      rw [halive]
      by_contra hne
      exact hterm ((hframe.gone halive).mp hne)
    have hdead : ∀ q < s.count, (s.links q).near.frees ≠ 0 →
        (update s.links p l q).near.frees ≠ 0 := fun q _ =>
      Pipes.update_of_imp (P := fun k => k.near.frees ≠ 0) fun hne => absurd halive hne
    by_cases hwrite : e = some .writeActivated
    · -- the pipe was not among the active ones
      obtain ⟨hblocked, hfree⟩ := hframe.unblocked hwrite
      have hpassive : ¬s.lb.IsActive p := by
        intro hactive
        rw [h.core.active p hactive] at hblocked
        exact absurd hblocked (by decide)
      obtain ⟨r, hr, hholds, hcur⟩ :=
        h.core.ring.activated ((h.core.mem_iff p).mpr ⟨hp, halive⟩) hpassive
      refine ⟨{ s with lb := { s.lb with toRing := r }, links := update s.links p l }, ?_,
        h.mono ?_ ⟨rfl, rfl⟩ ⟨rfl, rfl⟩ (le_refl _) ?_ hdead⟩
      · simp [step, hp, hact, hwrite, react, Lb.activated, hr]
      · refine h.core.set hholds hfrees (fun _ => hl) (fun _ _ _ hk => hk) ?_ fun _ => hfree
        rintro q (hq | hq) hqp
        · exact hq
        · exact absurd hq hqp
      · exact fun _ _ q hq hready => ⟨hcur q hq, Pipes.update_of_imp (P := fun k => Ready k.near.pipe)
          hframe.ready hready⟩
    · refine ⟨{ s with links := update s.links p l }, ?_,
        h.mono ?_ ⟨rfl, rfl⟩ ⟨rfl, rfl⟩ (le_refl _) ?_ hdead⟩
      · simp only [step, if_pos hp, hact]
        rcases e with _ | e
        · rfl
        cases e with
        | writeActivated => exact absurd rfl hwrite
        | pipeTerminated => exact absurd rfl hterm
        | _ => rfl
      · exact h.core.update hfrees (fun _ => hl) (fun _ _ _ hk => hk) fun hactive =>
          hframe.keeps (h.core.active p hactive)
      · exact fun _ _ q hq hready => ⟨hq, Pipes.update_of_imp (P := fun k => Ready k.near.pipe) hframe.ready hready⟩

lemma written_more {m : Msg} (hm : m.more = true) (p : ℕ) (w : ℕ → List Msg) (g : List Frame) :
    LbCore.wroteTo m p w (fun q => framesTo q g) = w ∧
      LbCore.waitsIn m p (fun q => framesTo q g) = fun q => framesTo q (g ++ [(m, some p)]) := by
  refine ⟨by simp [LbCore.wroteTo, hm], funext fun q => ?_⟩
  rw [LbCore.waitsIn, hm, if_pos rfl, framesTo_append]
  by_cases hq : q = p
  · simp [hq]
  · simp [hq, Ne.symm hq]

lemma written_last {m : Msg} (hm : m.more = false) {p : ℕ} {g : List Frame}
    (hto : ∀ f ∈ g, f.2 = some p) (sent : List (List Frame)) :
    LbCore.wroteTo m p (fun q => wholeTo q sent) (fun q => framesTo q g) =
        (fun q => wholeTo q (sent ++ [g ++ [(m, some p)]])) ∧
      LbCore.waitsIn m p (fun q => framesTo q g) = fun q => framesTo q [] := by
  refine ⟨funext fun q => ?_, funext fun q => ?_⟩
  · rw [LbCore.wroteTo, hm, wholeTo_append]
    by_cases hq : q = p
    · subst hq
      rw [update_self, wentTo_of_all hto, framesTo_of_all hto]
      simp
    · rw [update_of_ne hq, wentTo_append g (by simp [Ne.symm hq])]
      simp
  · rw [LbCore.waitsIn, hm]
    by_cases hq : q = p
    · rw [hq, update_self]
      rfl
    · rw [update_of_ne hq, framesTo_of_ne hto hq]
      rfl

lemma isMessage_append {g : List Frame} {f : Frame} (h : ∀ f ∈ g, f.1.more = true)
    (hf : f.1.more = false) : IsMessage (g ++ [f]) := ⟨g, f, rfl, h, hf⟩

lemma recordWritten (h : LbInv s) {m : Msg} {p : ℕ} {lb : Lb} {links : Pipes} (hp : p < s.count)
    (hall : ∀ f ∈ s.sending, f.1.more = true) (hto : ∀ f ∈ s.sending, f.2 = some p)
    (hcore : LbCore lb.toRing links s.count
      (LbCore.wroteTo m p (fun q => wholeTo q s.sent) (fun q => framesTo q s.sending))
      (LbCore.waitsIn m p (fun q => framesTo q s.sending)))
    (hfrees : ∀ q, (links q).near.frees = (s.links q).near.frees) (hmore : lb.more = m.more)
    (hdrop : lb.dropping = false)
    (hcur : m.more = true → lb.IsCurrent p ∧ Ready (links p).near.pipe) :
    LbInv ({ s with lb := lb, links := links }.record m (some p)) := by
  have hall' : m.more = true → ∀ f ∈ s.sending ++ [(m, some p)], f.1.more = true := by
    intro hm f hf
    rcases mem_append.mp hf with hf | hf
    · exact hall f hf
    · rw [mem_singleton.mp hf]
      exact hm
  have hto' : ∀ f ∈ s.sending ++ [(m, some p)], f.2 = some p := by
    intro f hf
    rcases mem_append.mp hf with hf | hf
    · exact hto f hf
    · rw [mem_singleton.mp hf]
  have hsent : ∀ g ∈ s.sent, IsMessage g ∧ Placed { s with lb := lb, links := links } g := fun g hg =>
    ⟨(h.sent g hg).1, (h.sent g hg).2.mono (le_refl _) fun q _ hq => by rw [hfrees q]; exact hq⟩
  cases hm : m.more with
  | true =>
    obtain ⟨hc, hr⟩ := hcur hm
    simp only [record, hm, if_true]
    refine ⟨?_, .inside p (hmore.trans hm) hdrop hc (by simp) (hall' hm) hto' hr, hsent⟩
    obtain ⟨hw, hpart⟩ := written_more hm p (fun q => wholeTo q s.sent) s.sending
    rw [hw, hpart] at hcore
    exact hcore
  | false =>
    simp only [record, hm, false_eq_true, if_false]
    refine ⟨?_, .between (hmore.trans hm) hdrop rfl, fun g hg => ?_⟩
    · obtain ⟨hw, hpart⟩ := written_last hm hto s.sent
      rw [hw, hpart] at hcore
      exact hcore
    · rcases mem_append.mp hg with hg | hg
      · exact hsent g hg
      · rw [mem_singleton.mp hg]
        exact ⟨isMessage_append hall hm, p, hp, _, [], by simp, by simp, hto', by simp, by simp⟩

lemma recordDropped (h : LbInv s) (hdrop : s.lb.dropping = true) (m : Msg) :
    LbInv ({ s with lb := { s.lb with more := m.more, dropping := m.more } }.record m none) := by
  obtain ⟨-, hno, -⟩ | ⟨q, -, hno, -⟩ | ⟨p, head, tail, h1, -, hp, hdead, heq, hne, hall, hto, hnone⟩ :=
    h.phase
  · rw [hdrop] at hno
    exact absurd hno (by decide)
  · rw [hdrop] at hno
    exact absurd hno (by decide)
  have hnone' : ∀ f ∈ tail ++ [(m, none)], f.2 = none := by
    intro f hf
    rcases mem_append.mp hf with hf | hf
    · exact hnone f hf
    · rw [mem_singleton.mp hf]
  have heq' : s.sending ++ [(m, none)] = head ++ (tail ++ [(m, none)]) := by
    rw [heq, append_assoc]
  have hframes : ∀ q, framesTo q (s.sending ++ [(m, none)]) = framesTo q s.sending := by
    intro q
    rw [framesTo_append]
    simp
  cases hm : m.more with
  | true =>
    simp only [record, hm, if_true]
    refine ⟨?_, .dropping p head (tail ++ [(m, none)]) rfl rfl hp hdead heq' hne ?_ hto hnone', h.sent⟩
    · simp only [hframes]
      exact h.core
    intro f hf
    rcases mem_append.mp hf with hf | hf
    · exact hall f hf
    · rw [mem_singleton.mp hf]
      exact hm
  | false =>
    simp only [record, hm, false_eq_true, if_false]
    refine ⟨⟨h.core.ring, h.core.mem_iff, fun q hq => ?_, h.core.active⟩, .between rfl rfl rfl,
      fun g hg => ?_⟩
    · have hwritten := h.core.inv q hq
      simp only [wholeTo_append, wentTo_append s.sending (by simp : (none : Option ℕ) ≠ some q)]
      rw [if_neg (by simp), append_nil]
      by_cases hqp : q = p
      · subst hqp
        exact hwritten.closed (hwritten.not_active hdead) _
      · simp only [heq, framesTo_of_dropped hto hnone hqp] at hwritten
        exact hwritten
    · rcases mem_append.mp hg with hg | hg
      · exact h.sent g hg
      · rw [mem_singleton.mp hg]
        exact ⟨isMessage_append hall hm, p, hp, head, _, heq', hne, hto, hnone', fun _ => hdead⟩

lemma send (h : LbInv s) (flags : MsgFlags) (body : List UInt8)
    (hgood : s.Good (.send flags body)) : ∃ t, s.step (.send flags body) = .ok t ∧ LbInv t := by
  generalize hm : (⟨.data, flags, body⟩ : Msg) = m
  cases h.phase with
  | between h1 h2 h3 =>
    obtain ⟨p, r, links, hsearch, hwrote⟩ | ⟨r, links, hsearch, hcore, hfrees⟩ :=
      h.core.search_write m
    · obtain ⟨lb, links', hfinish, hmore, hdrop, hcore, hfrees, hcur⟩ := hwrote.finish s.lb
      refine ⟨_, ?_, h.recordWritten (hwrote.core.lt_count hwrote.current.isActive) (by simp [h3])
        (by simp [h3]) hcore hfrees hmore (hdrop.trans h2) hcur⟩
      simp [step, hm, Lb.sendpipe, h1, h2, hsearch, hfinish]
    · refine ⟨{ s with lb := { s.lb with toRing := r }, links := links }, ?_,
        h.mono hcore ⟨rfl, rfl⟩ ⟨rfl, rfl⟩ (le_refl _) ?_ ?_⟩
      · simp [step, hm, Lb.sendpipe, h1, h2, hsearch]
      · intro hcon
        rw [h1] at hcon
        exact absurd hcon (by decide)
      · intro q _ hdead
        rw [hfrees q]
        exact hdead
  | inside p h1 h2 hcur hne hall hto hready =>
    -- the pipe of the message is still active, so it takes the frame
    have hst := hgood h1 h2 p hcur.2
    obtain ⟨hout, hroom⟩ := hready hst
    have hplt := h.core.lt_count hcur.isActive
    have hw : Outbound.Writable (s.links p).near.pipe :=
      ⟨hout, hst, (h.core.inv p hplt).ahead.full_iff.mpr hroom⟩
    obtain ⟨links, htry, hwrote⟩ := h.core.tryWrite_ok m hcur hw
    obtain ⟨lb, links', hfinish, hmore, hdrop, hcore, hfrees, hcur'⟩ := hwrote.finish s.lb
    refine ⟨_, ?_, h.recordWritten hplt hall hto hcore hfrees hmore (hdrop.trans h2) hcur'⟩
    have hsearch : Ring.search .outOfBounds (Lb.tryWrite m) (.error .assertFailed) Lb.dropCurrent
        s.lb.active s.lb.toRing s.links = .ok (some (), s.lb.toRing, links) :=
      Ring.search_current hcur htry
    simp [step, hm, Lb.sendpipe, h1, h2, hsearch, hfinish]
  | dropping p head tail h1 h2 hp hdead heq hne hall hto hnone =>
    refine ⟨_, ?_, h.recordDropped h2 m⟩
    simp [step, hm, Lb.sendpipe, h2]

lemma step (h : LbInv s) (a : LbAct) (hgood : s.Good a) : ∃ t, s.step a = .ok t ∧ LbInv t := by
  cases a with
  | attach hwm0 hwm1 => exact h.attach hwm0 hwm1
  | send flags body => exact h.send flags body hgood
  | hasOut => exact h.hasOut
  | owner p a => exact h.owner p a hgood
  | peer p a => exact h.peer p a

lemma atomic (h : LbInv s) : s.Atomic where
  sent := h.sent
  sending hne := by
    cases h.phase with
    | between h1 h2 h3 => exact absurd h3 hne
    | inside p h1 h2 hcur _ hall hto hready =>
      exact ⟨hall, p, h.core.lt_count hcur.isActive, s.sending, [], by simp, hne, hto, by simp,
        by simp⟩
    | dropping p head tail h1 h2 hp hdead heq hhead hall hto hnone =>
      exact ⟨hall, p, hp, head, tail, heq, hhead, hto, hnone, fun _ => hdead⟩
  readable p hp := (h.core.inv p hp).out.readable

end LbInv

/-- **Message atomicity of the load balancer.** In every run whose frames that continue a message find
the pipe of the message active, and in which no pipe is removed whose removal gives the turn of the
current pipe to another one while a message is being written, no assertion fails, every message goes to
one pipe or is dropped, and the peers read only whole messages. -/
theorem lb_atomic (acts : List LbAct)
    (hgood : StepsMeet LbSystem.step LbSystem.Good LbSystem.new acts) :
    ∃ s, LbSystem.new.run acts = .ok s ∧ s.Atomic := by
  obtain ⟨s, hrun, hs⟩ := runSteps_invariant (I := LbInv) (fun s a h hg => h.step a hg) LbInv.new hgood
  exact ⟨s, hrun, hs.atomic⟩

/-- The pipe of a message is terminated by its peer between two frames and is gone before the next
one, which is dropped; the message after that goes to the other pipe. -/
theorem lb_atomic_dropped :
    ∃ s, LbSystem.new.run [.attach 0 0, .attach 0 0, .send (frameFlags true) [1],
        .peer 0 (.terminate true), .owner 0 ⟨.deliver, trivial⟩, .owner 0 ⟨.read, trivial⟩,
        .peer 0 .deliver, .owner 0 ⟨.deliver, trivial⟩, .send (frameFlags true) [2],
        .send (frameFlags false) [3], .send (frameFlags false) [4]] = .ok s ∧ s.Atomic :=
  lb_atomic _ (by decide)

lemma LbSystem.not_placed {s : LbSystem} {g : List Frame} {m m' : Msg} {p p' : ℕ}
    (h : (m, some p) ∈ g) (h' : (m', some p') ∈ g) (hne : p ≠ p') : ¬s.Placed g := by
  rintro ⟨q, -, head, tail, rfl, -, hto, hnone, -⟩
  have hq : ∀ {m p}, (m, some p) ∈ head ++ tail → p = q := by
    intro m p hmem
    rcases mem_append.mp hmem with hmem | hmem
    · exact Option.some.inj (hto _ hmem)
    · exact absurd (hnone _ hmem) (by simp)
  exact hne ((hq h).trans (hq h').symm)

/-- A frame that continues a message finds that the peer has terminated the pipe, and the assertion in
`sendpipe` fails. And when the second of three pipes is removed while a message is being written to the
third one, the rest of the message goes to the first. -/
theorem lb_tears_messages :
    LbSystem.new.run [.attach 0 0, .send (frameFlags true) [1], .peer 0 (.terminate true),
        .owner 0 ⟨.deliver, trivial⟩, .send (frameFlags false) [2]] = .error .assertFailed ∧
    ∃ s, LbSystem.new.run [.attach 0 0, .attach 0 0, .attach 0 0, .send (frameFlags false) [1],
        .send (frameFlags false) [2], .send (frameFlags true) [3], .peer 1 (.terminate true),
        .owner 1 ⟨.deliver, trivial⟩, .owner 1 ⟨.read, trivial⟩, .peer 1 .deliver,
        .owner 1 ⟨.deliver, trivial⟩, .send (frameFlags false) [4]] = .ok s ∧
      ¬s.Atomic := by
  refine ⟨rfl, _, rfl, fun h => ?_⟩
  have hplaced := (h.sent [(⟨.data, frameFlags true, [3]⟩, some 2),
    (⟨.data, frameFlags false, [4]⟩, some 0)] (mem_of_getElem? (i := 2) rfl)).2
  exact LbSystem.not_placed mem_cons_self (mem_cons_of_mem _ mem_cons_self)
    (by decide) hplaced

end Zmq
