import ZeroMQ.Pipe.Effects

/-!
# The invariant of the shutdown handshake

What an end has sent and received of the shutdown commands is determined by its state, and what is in
flight to an end is determined by what the peer has sent and what the end has already received.
`EndInv` states this for one end against its peer. It also states the order of the commands in
flight: nothing follows an acknowledgement, and no hiccup follows a termination request.

`route x y` lists the lock-free pipes that carry or will carry messages from `x` to `y`: the pipe `x`
writes to, then the pipes of the hiccups in flight to `x`. The last of them is the one `y` reads.
The pipes of the two routes are different and alive, which is what makes every deallocation happen
once.

The second half of the file shows what each kind of change does to the invariant.
-/

namespace Zmq

open Function List

/-! ### Bookkeeping -/

namespace PipeState

/-- How many termination requests an end in this state has sent. -/
def terms : PipeState → ℕ
  | .termReqSent1 => 1
  | .termReqSent2 => 1
  | _ => 0

/-- How many acknowledgements an end in this state has sent. -/
def acks : PipeState → ℕ
  | .termAckSent => 1
  | .termReqSent2 => 1
  | _ => 0

/-- How many termination requests an end in this state has received. -/
def got : PipeState → ℕ
  | .waitingForDelimiter => 1
  | .termAckSent => 1
  | .termReqSent2 => 1
  | _ => 0

lemma got_of_acks (st : PipeState) (h : st.acks = 1) : st.got = 1 := by
  cases st <;> simp_all [acks, got]

lemma terms_le (st : PipeState) : st.terms ≤ 1 := by
  cases st <;> simp [terms]

lemma acks_le (st : PipeState) : st.acks ≤ 1 := by
  cases st <;> simp [acks]

end PipeState

/-- `a` may stand before `b` in a channel. -/
def Command.MayPrecede (a b : Command) : Prop :=
  a ≠ .pipeTermAck ∧ (a = .pipeTerm → ∀ p, b ≠ .hiccup p)

/-- The pipes the hiccups in flight carry, oldest first. -/
def hiccups (cs : List Command) : List ℕ :=
  cs.filterMap fun c => match c with
    | .hiccup p => p
    | _ => none

/-- The lock-free pipes for messages from `x` to `y`, in the order `x` will write to them. -/
def route (x y : Endpoint) : List ℕ :=
  match x.pipe.outpipe with
  | some i => i :: hiccups x.inbox
  | none => if y.frees = 0 then [y.pipe.inpipe] else []

lemma route_congr {x x' y y' : Endpoint} (ho : x'.pipe.outpipe = x.pipe.outpipe)
    (hh : hiccups x'.inbox = hiccups x.inbox) (hf : y'.frees = y.frees)
    (hi : y'.pipe.inpipe = y.pipe.inpipe) : route x' y' = route x y := by
  unfold route
  rw [ho, hh, hf, hi]

/-- The bookkeeping of end `x` against its peer `y`. -/
structure EndInv (x y : Endpoint) : Prop where
  sink : x.pipe.sink = true
  frees_le : x.frees ≤ 1
  terms_eq : x.frees = 0 → x.pipeTerms = x.pipe.state.terms
  acks_eq : x.frees = 0 → x.pipeTermAcks = x.pipe.state.acks
  /-- A deallocated end has exchanged acknowledgements and nothing is in flight to it. -/
  dead : x.frees ≠ 0 →
    x.pipeTerms ≤ 1 ∧ x.pipeTermAcks = 1 ∧ x.inbox = [] ∧ y.pipeTermAcks = 1
  outpipe_iff : x.pipe.outpipe = none ↔ x.pipeTermAcks = 1
  term_inbox : x.frees = 0 → x.inbox.count .pipeTerm + x.pipe.state.got = y.pipeTerms
  ack_inbox : x.frees = 0 → x.inbox.count .pipeTermAck = y.pipeTermAcks
  order : x.inbox.Pairwise Command.MayPrecede
  hiccup_some : ∀ p, Command.hiccup p ∈ x.inbox → p ≠ none
  no_hiccup : x.pipe.state.got = 1 → ∀ p, Command.hiccup p ∉ x.inbox
  /-- The peer acknowledges only a request or an acknowledgement. -/
  ack_cause : y.pipeTermAcks = 1 → x.pipeTerms = 1 ∨ x.pipeTermAcks = 1

/-- The invariant of a pair of ends. -/
structure ShutdownInv (s : Link) : Prop where
  near : EndInv s.near s.far
  far : EndInv s.far s.near
  near_last : s.near.frees = 0 → (route s.far s.near).getLast? = some s.near.pipe.inpipe
  far_last : s.far.frees = 0 → (route s.near s.far).getLast? = some s.far.pipe.inpipe
  nodup : (route s.near s.far ++ route s.far s.near).Nodup
  live : ∀ i ∈ route s.near s.far ++ route s.far s.near,
    (s.upipes i).frees = 0 ∧ i < s.fresh
  frees_le : ∀ i, (s.upipes i).frees ≤ 1
  more : ∀ i, (s.upipes i).queue.incomplete.all Msg.more = true

lemma ShutdownInv.pipepair (h0 h1 : ℤ) : ShutdownInv (Link.pipepair h0 h1) where
  near := by
    constructor <;> simp [Link.pipepair, Link.newEndpoint, Link.newPipe, PipeState.terms,
      PipeState.acks, PipeState.got]
  far := by
    constructor <;> simp [Link.pipepair, Link.newEndpoint, Link.newPipe, PipeState.terms,
      PipeState.acks, PipeState.got]
  near_last _ := rfl
  far_last _ := rfl
  nodup := by simp [Link.pipepair, Link.newEndpoint, Link.newPipe, route, hiccups]
  live := by simp [Link.pipepair, Link.newEndpoint, Link.newPipe, route, hiccups]
  frees_le _ := by simp [Link.pipepair]
  more _ := by simp [Link.pipepair, Upipe.empty]

lemma ShutdownInv.swap {s : Link} (h : ShutdownInv s) : ShutdownInv s.swap where
  near := h.far
  far := h.near
  near_last := h.far_last
  far_last := h.near_last
  nodup := perm_append_comm.nodup_iff.mp h.nodup
  live i hi := h.live i (mem_append.mpr (mem_append.mp hi).symm)
  frees_le := h.frees_le
  more := h.more

/-! ### Changes at one end -/

/-- Commands that are not part of the handshake. -/
def Command.IsActivate (c : Command) : Prop :=
  c = .activateRead ∨ ∃ n, c = .activateWrite n

lemma hiccups_append (cs : List Command) (c : Command) :
    hiccups (cs ++ [c]) = hiccups cs ++ hiccups [c] := by
  simp [hiccups]

lemma hiccups_eq_nil {cs : List Command} (h : ∀ p, Command.hiccup p ∉ cs) : hiccups cs = [] := by
  refine filterMap_eq_nil_iff.mpr fun c hc => ?_
  cases c with
  | hiccup p => exact absurd hc (h p)
  | _ => rfl

lemma Command.IsActivate.hiccups_eq {c : Command} (hc : c.IsActivate) : hiccups [c] = [] := by
  obtain rfl | ⟨n, rfl⟩ := hc <;> rfl

namespace EndInv

variable {x x' y y' : Endpoint}

section

variable (h : EndInv x y)

include h

lemma congr_peer (ht : y'.pipeTerms = y.pipeTerms)
    (ha : y'.pipeTermAcks = y.pipeTermAcks) : EndInv x y' where
  sink := h.sink
  frees_le := h.frees_le
  terms_eq := h.terms_eq
  acks_eq := h.acks_eq
  dead := by rw [ha]; exact h.dead
  outpipe_iff := h.outpipe_iff
  term_inbox := by rw [ht]; exact h.term_inbox
  ack_inbox := by rw [ha]; exact h.ack_inbox
  order := h.order
  hiccup_some := h.hiccup_some
  no_hiccup := h.no_hiccup
  ack_cause := by rw [ha]; exact h.ack_cause

lemma congr_pipe {p : Pipe} {b : Bool} (hsink : p.sink = x.pipe.sink)
    (hout : p.outpipe = x.pipe.outpipe) (ht : p.state.terms = x.pipe.state.terms)
    (ha : p.state.acks = x.pipe.state.acks) (hg : p.state.got = x.pipe.state.got) :
    EndInv { x with pipe := p, terminateCalled := b } y where
  sink := hsink.trans h.sink
  frees_le := h.frees_le
  terms_eq := by simpa only [ht] using h.terms_eq
  acks_eq := by simpa only [ha] using h.acks_eq
  dead := h.dead
  outpipe_iff := by simpa only [hout] using h.outpipe_iff
  term_inbox := by simpa only [hg] using h.term_inbox
  ack_inbox := h.ack_inbox
  order := h.order
  hiccup_some := h.hiccup_some
  no_hiccup := by simpa only [hg] using h.no_hiccup
  ack_cause := h.ack_cause

lemma alive_of_acks (hy : y.pipeTermAcks = 0) : x.frees = 0 := by
  by_contra hne
  have := (h.dead hne).2.2.2
  omega

lemma ack_notMem (hy : y.pipeTermAcks = 0) :
    Command.pipeTermAck ∉ x.inbox := by
  have := h.ack_inbox (h.alive_of_acks hy)
  rw [hy] at this
  exact count_eq_zero.mp this

lemma terms_le : x.pipeTerms ≤ 1 := by
  by_cases hx : x.frees = 0
  · rw [h.terms_eq hx]
    exact x.pipe.state.terms_le
  · exact (h.dead hx).1

lemma acks_le : x.pipeTermAcks ≤ 1 := by
  by_cases hx : x.frees = 0
  · rw [h.acks_eq hx]
    exact x.pipe.state.acks_le
  · exact (h.dead hx).2.1.le

lemma push {c : Command} (hy : y.pipeTermAcks = 0)
    (hterms : y'.pipeTerms = y.pipeTerms + if c = .pipeTerm then 1 else 0)
    (hacks : y'.pipeTermAcks = if c = .pipeTermAck then 1 else 0)
    (hhic : ∀ p, c = .hiccup p → p ≠ none ∧ y.pipeTerms = 0)
    (hcause : c = .pipeTermAck → x.pipeTerms = 1 ∨ x.pipeTermAcks = 1) :
    EndInv { x with inbox := x.inbox ++ [c] } y' := by
  have halive := h.alive_of_acks hy
  have hnoack := h.ack_notMem hy
  have hti := h.term_inbox halive
  refine ⟨h.sink, h.frees_le, h.terms_eq, h.acks_eq, fun hne => absurd halive hne, h.outpipe_iff,
    fun _ => ?_, fun _ => ?_, ?_, ?_, ?_, ?_⟩
  · simp only [count_append, count_singleton, beq_iff_eq, hterms]
    omega
  · simp only [count_append, count_singleton, beq_iff_eq, hacks, h.ack_inbox halive, hy]
    omega
  · refine pairwise_append.mpr ⟨h.order, pairwise_singleton _ _, ?_⟩
    intro a ha b hb
    obtain rfl := mem_singleton.mp hb
    refine ⟨fun e => hnoack (e ▸ ha), ?_⟩
    rintro rfl p rfl
    -- a request is in flight, so the peer that sends the hiccup has sent it
    have hpos := count_pos_iff.mpr ha
    have := (hhic p rfl).2
    omega
  · intro p hp
    rcases mem_append.mp hp with hp | hp
    · exact h.hiccup_some p hp
    · exact (hhic p (mem_singleton.mp hp).symm).1
  · intro hg p hp
    rcases mem_append.mp hp with hp | hp
    · exact h.no_hiccup hg p hp
    · have := (hhic p (mem_singleton.mp hp).symm).2
      simp only at hg
      omega
  · intro h1
    rw [hacks] at h1
    exact hcause (by by_contra hc; simp [hc] at h1)

lemma pop_activate {c : Command} {cs : List Command} (hin : x.inbox = c :: cs)
    (hc : c.IsActivate) : EndInv { x with inbox := cs } y := by
  have hne1 : c ≠ .pipeTerm := by obtain rfl | ⟨n, rfl⟩ := hc <;> simp
  have hne2 : c ≠ .pipeTermAck := by obtain rfl | ⟨n, rfl⟩ := hc <;> simp
  have horder := h.order
  rw [hin] at horder
  refine ⟨h.sink, h.frees_le, h.terms_eq, h.acks_eq, fun hne => ?_, h.outpipe_iff, fun hx => ?_,
    fun hx => ?_, (pairwise_cons.mp horder).2, fun p hp => ?_, fun hg p hp => ?_,
    h.ack_cause⟩
  · have := (h.dead hne).2.2.1
    rw [hin] at this
    simp at this
  · have := h.term_inbox hx
    rwa [hin, count_cons_of_ne hne1] at this
  · have := h.ack_inbox hx
    rwa [hin, count_cons_of_ne hne2] at this
  · exact h.hiccup_some p (by rw [hin]; exact mem_cons_of_mem _ hp)
  · exact h.no_hiccup hg p (by rw [hin]; exact mem_cons_of_mem _ hp)

end

end EndInv

/-! ### Changes outside the handshake -/

namespace ShutdownInv

variable {s : Link}

section

variable (h : ShutdownInv s)

include h

lemma inpipe_live (hx : s.near.frees = 0) :
    (s.upipes s.near.pipe.inpipe).frees = 0 :=
  (h.live _ (mem_append_right _ (mem_of_getLast? (h.near_last hx)))).1

lemma outpipe_live {i : ℕ} (hi : s.near.pipe.outpipe = some i) :
    (s.upipes i).frees = 0 :=
  (h.live i (mem_append_left _ (by simp [route, hi]))).1

lemma acks_of_outpipe {i : ℕ} (hi : s.near.pipe.outpipe = some i) :
    s.near.pipeTermAcks = 0 := by
  have hne : s.near.pipeTermAcks ≠ 1 := fun e => by
    have := h.near.outpipe_iff.mpr e
    rw [hi] at this
    simp at this
  have := h.near.acks_le
  omega

lemma of_routes {t : Link} (hn : EndInv t.near t.far)
    (hf : EndInv t.far t.near) (hr1 : route t.near t.far = route s.near s.far)
    (hr2 : route t.far t.near = route s.far s.near)
    (hi1 : t.near.frees = 0 → s.near.frees = 0 ∧ t.near.pipe.inpipe = s.near.pipe.inpipe)
    (hi2 : t.far.frees = 0 → s.far.frees = 0 ∧ t.far.pipe.inpipe = s.far.pipe.inpipe)
    (hfrees : ∀ i, (t.upipes i).frees = (s.upipes i).frees) (hfresh : t.fresh = s.fresh)
    (hmore : ∀ i, (t.upipes i).queue.incomplete.all Msg.more = true) : ShutdownInv t where
  near := hn
  far := hf
  near_last hx := by
    rw [hr2, (hi1 hx).2]
    exact h.near_last (hi1 hx).1
  far_last hx := by
    rw [hr1, (hi2 hx).2]
    exact h.far_last (hi2 hx).1
  nodup := by
    rw [hr1, hr2]
    exact h.nodup
  live i hi := by
    rw [hr1, hr2] at hi
    rw [hfrees, hfresh]
    exact h.live i hi
  frees_le i := by
    rw [hfrees]
    exact h.frees_le i
  more := hmore

lemma store (i : ℕ) {u : Upipe Msg} (hu : u.incomplete.all Msg.more = true) :
    ShutdownInv (s.store i u) := by
  refine h.of_routes h.near h.far rfl rfl (fun hx => ⟨hx, rfl⟩) (fun hx => ⟨hx, rfl⟩)
    (fun j => s.store_frees i j u) rfl fun j => ?_
  by_cases hj : j = i
  · rw [hj, Link.store_queue_self]
    exact hu
  · rw [Link.store_queue_of_ne s hj]
    exact h.more j

lemma modifyPipe {g : Pipe → Pipe} {b : Bool}
    (hsink : (g s.near.pipe).sink = s.near.pipe.sink)
    (hin : (g s.near.pipe).inpipe = s.near.pipe.inpipe)
    (hout : (g s.near.pipe).outpipe = s.near.pipe.outpipe)
    (ht : (g s.near.pipe).state.terms = s.near.pipe.state.terms)
    (ha : (g s.near.pipe).state.acks = s.near.pipe.state.acks)
    (hg : (g s.near.pipe).state.got = s.near.pipe.state.got) :
    ShutdownInv ({ s with near := { s.near with terminateCalled := b } }.modifyPipe g) := by
  exact h.of_routes (h.near.congr_pipe hsink hout ht ha hg) (h.far.congr_peer rfl rfl)
    (route_congr hout rfl rfl rfl) (route_congr rfl rfl rfl hin)
    (fun hx => ⟨hx, hin⟩) (fun hx => ⟨hx, rfl⟩) (fun _ => rfl) rfl h.more

lemma modifyData {g : Pipe → Pipe}
    (hsink : (g s.near.pipe).sink = s.near.pipe.sink)
    (hin : (g s.near.pipe).inpipe = s.near.pipe.inpipe)
    (hout : (g s.near.pipe).outpipe = s.near.pipe.outpipe)
    (hst : (g s.near.pipe).state = s.near.pipe.state) : ShutdownInv (s.modifyPipe g) :=
  h.modifyPipe (b := s.near.terminateCalled) hsink hin hout (by rw [hst]) (by rw [hst])
    (by rw [hst])

lemma sendActivate {c : Command} (hc : c.IsActivate)
    (ha : s.near.pipeTermAcks = 0) : ShutdownInv (s.send c) := by
  have hne1 : c ≠ .pipeTerm := by obtain rfl | ⟨n, rfl⟩ := hc <;> simp
  have hne2 : c ≠ .pipeTermAck := by obtain rfl | ⟨n, rfl⟩ := hc <;> simp
  have hfar : EndInv { s.far with inbox := s.far.inbox ++ [c] } s.near := by
    refine h.far.push ha ?_ ?_ ?_ ?_
    · rw [if_neg hne1, Nat.add_zero]
    · rw [if_neg hne2, ha]
    · rintro p rfl
      obtain e | ⟨n, e⟩ := hc <;> simp at e
    · exact fun e => absurd e hne2
  refine h.of_routes (h.near.congr_peer rfl rfl) hfar rfl (route_congr rfl ?_ rfl rfl)
    (fun hx => ⟨hx, rfl⟩) (fun hx => ⟨hx, rfl⟩) (fun _ => rfl) rfl h.more
  simp [hiccups_append, hc.hiccups_eq]

end

variable {cs : List Command}

lemma popActivate (h : ShutdownInv s) {c : Command}
    (hin : s.near.inbox = c :: cs) (hc : c.IsActivate) :
    ShutdownInv { s with near := { s.near with inbox := cs } } := by
  refine h.of_routes (h.near.pop_activate hin hc) (h.far.congr_peer rfl rfl)
    (route_congr rfl ?_ rfl rfl) rfl (fun hx => ⟨hx, rfl⟩) (fun hx => ⟨hx, rfl⟩) (fun _ => rfl) rfl
    h.more
  obtain rfl | ⟨n, rfl⟩ := hc <;> simp [hin, hiccups]

/-! ### Steps of the handshake -/

section

variable (h : ShutdownInv s)

include h

lemma outpipe_eq_inpipe {i : ℕ} (hi : s.near.pipe.outpipe = some i)
    (hh : hiccups s.near.inbox = []) : i = s.far.pipe.inpipe := by
  have hlast := h.far_last (h.far.alive_of_acks (h.acks_of_outpipe hi))
  simpa [route, hi, hh] using hlast

lemma exists_outpipe (ha : s.near.pipeTermAcks = 0) :
    ∃ i, s.near.pipe.outpipe = some i := by
  refine Option.ne_none_iff_exists'.mp fun hn => ?_
  have := h.near.outpipe_iff.mp hn
  omega

lemma hiccups_of_term
    (hin : s.near.inbox = .pipeTerm :: cs) : ∀ p, Command.hiccup p ∉ cs := by
  intro p hp
  have horder := h.near.order
  rw [hin] at horder
  exact ((pairwise_cons.mp horder).1 _ hp).2 rfl p rfl

lemma got_of_term
    (hin : s.near.inbox = .pipeTerm :: cs) :
    s.near.frees = 0 ∧ s.near.pipe.state.got = 0 ∧ s.far.pipeTerms = 1 ∧
      cs.count .pipeTerm = 0 := by
  have halive : s.near.frees = 0 := by
    by_contra hne
    have := (h.near.dead hne).2.2.1
    rw [hin] at this
    simp at this
  have hti := h.near.term_inbox halive
  rw [hin, count_cons_self] at hti
  have := h.far.terms_le
  omega

lemma waitForDelimiter
    (hin : s.near.inbox = .pipeTerm :: cs) (hst : s.near.pipe.state = .active) :
    ShutdownInv ({ s with near := { s.near with inbox := cs } }.modifyPipe
      fun p => { p with state := .waitingForDelimiter }) := by
  obtain ⟨halive, -, hterms, hcount⟩ := h.got_of_term hin
  have hte := h.near.terms_eq halive
  have hae := h.near.acks_eq halive
  have hai := h.near.ack_inbox halive
  have horder := h.near.order
  rw [hst] at hte hae
  rw [hin, count_cons_of_ne (by simp)] at hai
  rw [hin] at horder
  have hnear : EndInv { s.near with inbox := cs, pipe := { s.near.pipe with
      state := .waitingForDelimiter } } s.far := by
    refine ⟨h.near.sink, h.near.frees_le, fun _ => hte, fun _ => hae,
      fun hne => absurd halive hne, h.near.outpipe_iff, fun _ => ?_, fun _ => hai,
      (pairwise_cons.mp horder).2, fun p hp => absurd hp (h.hiccups_of_term hin p),
      fun _ => h.hiccups_of_term hin, h.near.ack_cause⟩
    simp only [PipeState.got]
    omega
  refine h.of_routes hnear (h.far.congr_peer rfl rfl) (route_congr rfl ?_ rfl rfl) rfl
    (fun hx => ⟨hx, rfl⟩) (fun hx => ⟨hx, rfl⟩) (fun _ => rfl) rfl h.more
  simp [hin, hiccups]

lemma ackAndEnter {st : PipeState}
    (hin : s.near.inbox = .pipeTerm :: cs ∨
      (s.near.frees = 0 ∧ s.near.inbox = cs ∧ s.near.pipe.state.got = 1))
    (ha : s.near.pipeTermAcks = 0) (ht : st.terms = s.near.pipe.state.terms) (hst : st.acks = 1) :
    ShutdownInv ({ s with near := { s.near with inbox := cs } }.ackAndEnter st) := by
  -- in both cases the request is accounted for, and no hiccup is left in the channel
  obtain ⟨halive, hterms, hcount, hnoh, hack, horder⟩ :
      s.near.frees = 0 ∧ s.far.pipeTerms = 1 ∧ cs.count .pipeTerm = 0 ∧
        (∀ p, Command.hiccup p ∉ cs) ∧ cs.count .pipeTermAck = s.near.inbox.count .pipeTermAck ∧
        cs.Pairwise Command.MayPrecede := by
    have horder := h.near.order
    rcases hin with hin | ⟨halive, hin, hgot⟩
    · obtain ⟨halive, -, hterms, hcount⟩ := h.got_of_term hin
      rw [hin] at horder
      refine ⟨halive, hterms, hcount, h.hiccups_of_term hin, ?_, (pairwise_cons.mp horder).2⟩
      rw [hin, count_cons_of_ne (by simp)]
    · have hti := h.near.term_inbox halive
      have := h.far.terms_le
      rw [hin] at hti horder
      refine ⟨halive, by omega, by omega, ?_, by rw [hin], horder⟩
      rw [← hin]
      exact h.near.no_hiccup hgot
  have hhic : hiccups s.near.inbox = [] := by
    rcases hin with hin | ⟨-, hin, -⟩
    · rw [hin]
      exact hiccups_eq_nil fun p hp => hnoh p (by simpa using hp)
    · rw [hin]
      exact hiccups_eq_nil hnoh
  have hfar := h.far.alive_of_acks ha
  obtain ⟨i, hi⟩ := h.exists_outpipe ha
  have hnear : EndInv { s.near with inbox := cs, pipeTermAcks := s.near.pipeTermAcks + 1, pipe :=
      { s.near.pipe with outpipe := none, state := st } } s.far := by
    refine ⟨h.near.sink, h.near.frees_le, fun _ => ?_, fun _ => ?_, fun hne => absurd halive hne,
      ?_, fun _ => ?_, fun _ => ?_, horder, fun p hp => absurd hp (hnoh p), fun _ => hnoh,
      fun _ => .inr ?_⟩
    · exact (h.near.terms_eq halive).trans ht.symm
    · simp [ha, hst]
    · simp [ha]
    · rw [st.got_of_acks hst, hcount, hterms]
    · rw [hack]
      exact h.near.ack_inbox halive
    · simp [ha]
  have hfar' : EndInv { s.far with inbox := s.far.inbox ++ [.pipeTermAck] }
      { s.near with inbox := cs, pipeTermAcks := s.near.pipeTermAcks + 1, pipe :=
        { s.near.pipe with outpipe := none, state := st } } := by
    refine h.far.push ha (by simp) (by simp [ha]) (by simp) fun _ => .inl hterms
  refine h.of_routes (hnear.congr_peer rfl rfl) hfar' ?_ (route_congr rfl ?_ rfl rfl)
    (fun hx => ⟨hx, rfl⟩) (fun hx => ⟨hx, rfl⟩) (fun _ => rfl) rfl h.more
  · simp [route, Link.ackAndEnter, Link.sendPipeTermAck, hi, hhic, hfar,
      h.outpipe_eq_inpipe hi hhic]
  · simp [Link.ackAndEnter, Link.sendPipeTermAck, hiccups]

lemma sendPipeTerm (halive : s.near.frees = 0)
    (hst : s.near.pipe.state = .active ∨ s.near.pipe.state = .delimiterReceived) {b : Bool}
    {d : Bool} :
    ShutdownInv ((({ s with near := { s.near with terminateCalled := b } }.modifyPipe
      fun p => { p with delay := d }).sendPipeTerm).modifyPipe
        fun p => { p with state := .termReqSent1 }) := by
  have hte := h.near.terms_eq halive
  have hae := h.near.acks_eq halive
  have hti := h.near.term_inbox halive
  have hbits : s.near.pipe.state.terms = 0 ∧ s.near.pipe.state.acks = 0 ∧
      s.near.pipe.state.got = 0 := by
    rcases hst with hst | hst <;> rw [hst] <;> exact ⟨rfl, rfl, rfl⟩
  rw [hbits.1] at hte
  rw [hbits.2.1] at hae
  rw [hbits.2.2] at hti
  have hnear : EndInv { s.near with terminateCalled := b, pipeTerms := s.near.pipeTerms + 1, pipe :=
      { s.near.pipe with delay := d, state := .termReqSent1 } } s.far := by
    refine ⟨h.near.sink, h.near.frees_le, fun _ => ?_, fun _ => hae, fun hne => absurd halive hne,
      h.near.outpipe_iff, fun _ => hti, h.near.ack_inbox, h.near.order, h.near.hiccup_some, ?_,
      fun _ => .inl ?_⟩
    · simp [hte, PipeState.terms]
    · simp [PipeState.got]
    · simp [hte]
  have hfar : EndInv { s.far with inbox := s.far.inbox ++ [.pipeTerm] }
      { s.near with terminateCalled := b, pipeTerms := s.near.pipeTerms + 1, pipe :=
        { s.near.pipe with delay := d, state := .termReqSent1 } } :=
    h.far.push hae (by simp) (by simp [hae]) (by simp) (by simp)
  refine h.of_routes (hnear.congr_peer rfl rfl) hfar (route_congr rfl rfl rfl rfl)
    (route_congr rfl ?_ rfl rfl) (fun hx => ⟨hx, rfl⟩) (fun hx => ⟨hx, rfl⟩) (fun _ => rfl) rfl
    h.more
  simp [Link.sendPipeTerm, hiccups]

lemma of_active (halive : s.near.frees = 0)
    (hst : s.near.pipe.state = .active) :
    s.near.pipeTerms = 0 ∧ s.near.pipeTermAcks = 0 ∧ s.far.frees = 0 ∧
      s.far.pipeTermAcks = 0 := by
  have hte := h.near.terms_eq halive
  have hae := h.near.acks_eq halive
  rw [hst] at hte hae
  have hfa : s.far.pipeTermAcks ≠ 1 := fun e => by
    rcases h.near.ack_cause e with e | e
    · rw [hte] at e; exact absurd e (by decide)
    · rw [hae] at e; exact absurd e (by decide)
  have := h.far.acks_le
  exact ⟨hte, hae, h.far.alive_of_acks hae, by omega⟩

lemma hiccup (halive : s.near.frees = 0) : ShutdownInv s.hiccup := by
  by_cases hst : s.near.pipe.state = .active
  swap
  · rwa [Link.hiccup, if_pos hst]
  obtain ⟨hterms, hacks, -, hfacks⟩ := h.of_active halive hst
  obtain ⟨i, hi⟩ := h.swap.exists_outpipe hfacks
  simp only [Link.swap_near] at hi
  obtain ⟨t, ht⟩ : ∃ t, t = s.hiccup := ⟨_, rfl⟩
  rw [← ht]
  rw [Link.hiccup, if_neg (not_not_intro hst)] at ht
  have hnear : t.near = { s.near with pipe :=
      { s.near.pipe with inpipe := s.fresh, inActive := true } } := by rw [ht]; rfl
  have hfar : t.far = { s.far with inbox := s.far.inbox ++ [.hiccup (some s.fresh)] } := by
    rw [ht]; rfl
  have hup : t.upipes = update s.upipes s.fresh ⟨Upipe.empty, 0⟩ := by rw [ht]; rfl
  have hfresh : t.fresh = s.fresh + 1 := by rw [ht]; rfl
  clear ht
  have hr1 : route t.near t.far = route s.near s.far := by
    rw [hnear, hfar]
    exact route_congr rfl rfl rfl rfl
  have hr2 : route t.far t.near = route s.far s.near ++ [s.fresh] := by
    simp [hfar, route, hi, hiccups]
  have hlt := fun j hj => (h.live j hj).2
  refine ⟨?_, ?_, ?_, ?_, ?_, ?_, ?_, ?_⟩
  · rw [hnear, hfar]
    exact (h.near.congr_pipe (p := { s.near.pipe with inpipe := s.fresh, inActive := true }) rfl rfl
      rfl rfl rfl).congr_peer rfl rfl
  · rw [hnear, hfar]
    have hpush : EndInv { s.far with inbox := s.far.inbox ++ [.hiccup (some s.fresh)] } s.near := by
      refine h.far.push hacks (by simp) (by simp [hacks]) ?_ (by simp)
      intro p hp
      obtain rfl := Command.hiccup.inj hp
      exact ⟨by simp, hterms⟩
    exact hpush.congr_peer rfl rfl
  · intro _
    rw [hr2, hnear, getLast?_append, getLast?_singleton, Option.some_or]
  · intro hx
    rw [hr1]
    rw [hfar] at hx ⊢
    exact h.far_last hx
  · rw [hr1, hr2, ← append_assoc]
    refine nodup_append.mpr ⟨h.nodup, by simp, ?_⟩
    rintro a ha b hb rfl
    have := hlt a ha
    have := mem_singleton.mp hb
    omega
  · intro j hj
    rw [hr1, hr2, ← append_assoc] at hj
    rw [hup, hfresh]
    rcases mem_append.mp hj with hj | hj
    · have := hlt j hj
      rw [update_of_ne (by omega)]
      exact ⟨(h.live j hj).1, by omega⟩
    · obtain rfl := mem_singleton.mp hj
      simp
  · intro j
    rw [hup]
    by_cases hj : j = s.fresh
    · simp [hj]
    · rw [update_of_ne hj]
      exact h.frees_le j
  · intro j
    rw [hup]
    by_cases hj : j = s.fresh
    · simp [hj, Upipe.empty]
    · rw [update_of_ne hj]
      exact h.more j

lemma of_hiccup {p : Option ℕ}
    (hin : s.near.inbox = .hiccup p :: cs) :
    s.near.frees = 0 ∧ (∃ j, p = some j) ∧ ∃ i, s.near.pipe.outpipe = some i := by
  have hmem : Command.hiccup p ∈ s.near.inbox := by rw [hin]; exact mem_cons_self
  have halive : s.near.frees = 0 := by
    by_contra hne
    have := (h.near.dead hne).2.2.1
    rw [hin] at this
    simp at this
  refine ⟨halive, Option.ne_none_iff_exists'.mp (h.near.hiccup_some p hmem), ?_⟩
  refine h.exists_outpipe ?_
  have hae := h.near.acks_eq halive
  have hne : s.near.pipe.state.acks ≠ 1 := fun e =>
    h.near.no_hiccup (s.near.pipe.state.got_of_acks e) p hmem
  have := s.near.pipe.state.acks_le
  omega

lemma plugOutpipe {i j : ℕ} {u : Upipe Msg}
    (hin : s.near.inbox = .hiccup (some j) :: cs) (hi : s.near.pipe.outpipe = some i)
    (hu : u.incomplete.all Msg.more = true) :
    ShutdownInv (((({ s with near := { s.near with inbox := cs } }.store i u).free i).modifyPipe
      fun p => { p with outpipe := some j, outActive := true })) := by
  obtain ⟨halive, -, -⟩ := h.of_hiccup hin
  have hacks := h.acks_of_outpipe hi
  have hr : route s.near s.far = i :: j :: hiccups cs := by simp [route, hi, hin, hiccups]
  have hnd := h.nodup
  rw [hr] at hnd
  have hi_notin : i ∉ j :: hiccups cs ++ route s.far s.near := (nodup_cons.mp hnd).1
  have horder := h.near.order
  rw [hin] at horder
  have hlast := h.far_last
  rw [hr] at hlast
  refine ⟨?_, h.far.congr_peer rfl rfl, h.near_last, ?_, ?_, ?_, ?_, ?_⟩
  · have hti := h.near.term_inbox halive
    have hai := h.near.ack_inbox halive
    rw [hin, count_cons_of_ne (by simp)] at hti hai
    refine ⟨h.near.sink, h.near.frees_le, h.near.terms_eq, h.near.acks_eq,
      fun hne => absurd halive hne, ?_, fun _ => hti, fun _ => hai,
      (pairwise_cons.mp horder).2, fun p hp => ?_, fun hg p hp => ?_, h.near.ack_cause⟩
    · simp [hacks]
    · exact h.near.hiccup_some p (by rw [hin]; exact mem_cons_of_mem _ hp)
    · exact h.near.no_hiccup hg p (by rw [hin]; exact mem_cons_of_mem _ hp)
  · intro hx
    have := hlast hx
    rwa [getLast?_cons_cons] at this
  · exact (nodup_cons.mp hnd).2
  · intro k hk
    have hne : k ≠ i := fun e => hi_notin (e ▸ hk)
    have hl := h.live k (by rw [hr]; exact mem_cons_of_mem _ hk)
    refine ⟨?_, hl.2⟩
    rw [Link.modifyPipe_upipes, Link.free_frees, if_neg hne, Link.store_frees]
    exact hl.1
  · intro k
    rw [Link.modifyPipe_upipes, Link.free_frees, Link.store_frees]
    split
    next hk =>
      have := (h.live i (by rw [hr]; exact mem_cons_self)).1
      rw [hk]
      simp only
      omega
    next => exact h.frees_le k
  · intro k
    rw [Link.modifyPipe_upipes, Link.free_queue]
    by_cases hk : k = i
    · rw [hk, Link.store_queue_self]
      exact hu
    · rw [Link.store_queue_of_ne _ hk]
      exact h.more k

/-- An acknowledgement is in flight only to an end that exists, has sent a request or an
acknowledgement, and gets nothing after it. -/
lemma of_ack (hin : s.near.inbox = .pipeTermAck :: cs) :
    s.near.frees = 0 ∧ cs = [] ∧ s.far.pipeTermAcks = 1 ∧
      (s.near.pipe.state = .termReqSent1 ∨ s.near.pipe.state = .termAckSent ∨
        s.near.pipe.state = .termReqSent2) := by
  have halive : s.near.frees = 0 := by
    by_contra hne
    have := (h.near.dead hne).2.2.1
    rw [hin] at this
    simp at this
  have hcs : cs = [] := by
    have horder := h.near.order
    rw [hin] at horder
    refine eq_nil_iff_forall_not_mem.mpr fun c hc => ?_
    exact ((pairwise_cons.mp horder).1 c hc).1 rfl
  have hai := h.near.ack_inbox halive
  rw [hin, count_cons_self] at hai
  have := h.far.acks_le
  have hfa : s.far.pipeTermAcks = 1 := by omega
  refine ⟨halive, hcs, hfa, ?_⟩
  have hcause := h.near.ack_cause hfa
  rw [h.near.terms_eq halive, h.near.acks_eq halive] at hcause
  cases hst : s.near.pipe.state <;> simp_all [PipeState.terms, PipeState.acks]

lemma deallocate {t : Link} {c : List Command} {u : Upipe Msg}
    (halive : s.near.frees = 0) (hfa : s.far.pipeTermAcks = 1)
    (hx : t.near.frees = 1 ∧ t.near.inbox = [] ∧ t.near.pipe.sink = true ∧
      t.near.pipe.outpipe = none ∧ t.near.pipeTerms = s.near.pipeTerms ∧ t.near.pipeTermAcks = 1)
    (hfar : t.far = { s.far with inbox := s.far.inbox ++ c })
    (hup : t.upipes = ((s.store s.near.pipe.inpipe u).free s.near.pipe.inpipe).upipes)
    (hfresh : t.fresh = s.fresh)
    (hc : (c = [] ∧ s.near.pipeTermAcks = 1) ∨
      (c = [.pipeTermAck] ∧ s.near.pipeTermAcks = 0 ∧ hiccups s.near.inbox = []))
    (hu : u.incomplete.all Msg.more = true) : ShutdownInv t := by
  obtain ⟨hxf, hxi, hxs, hxo, hxt, hxa⟩ := hx
  -- the peer has acknowledged, so nobody but the near end knows the inbound pipe
  have hfo : s.far.pipe.outpipe = none := h.far.outpipe_iff.mpr hfa
  have hr2 : route s.far s.near = [s.near.pipe.inpipe] := by simp [route, hfo, halive]
  have hr2' : route t.far t.near = [] := by simp [hfar, route, hfo, hxf]
  have hr1 : route t.near t.far = route s.near s.far := by
    rcases hc with ⟨-, hna⟩ | ⟨-, hna, hh⟩
    · have hno : s.near.pipe.outpipe = none := h.near.outpipe_iff.mpr hna
      simp [hfar, route, hxo, hno]
    · obtain ⟨i, hi⟩ := h.exists_outpipe hna
      have hfal := h.far.alive_of_acks hna
      simp [hfar, route, hxo, hi, hh, hfal, h.outpipe_eq_inpipe hi hh]
  have hnd := h.nodup
  rw [hr2] at hnd
  have hnotin : s.near.pipe.inpipe ∉ route s.near s.far := fun hm =>
    (nodup_append.mp hnd).2.2 _ hm _ mem_cons_self rfl
  refine ⟨?_, ?_, ?_, ?_, ?_, ?_, ?_, ?_⟩
  · have ht := h.near.terms_le
    rw [← hxt] at ht
    refine ⟨hxs, hxf.le, fun e => ?_, fun e => ?_, fun _ => ⟨ht, hxa, hxi, by rw [hfar]; exact hfa⟩,
      by simp [hxo, hxa], fun e => ?_, fun e => ?_, by simp [hxi], by simp [hxi], by simp [hxi],
      fun _ => .inr hxa⟩ <;> omega
  · rw [hfar]
    rcases hc with ⟨rfl, hna⟩ | ⟨rfl, hna, -⟩
    · simp only [append_nil]
      exact h.far.congr_peer hxt (hxa.trans hna.symm)
    · exact h.far.push hna (by simpa using hxt) (by simpa using hxa) (by simp)
        fun _ => .inr hfa
  · intro e
    omega
  · intro hx'
    rw [hr1]
    rw [hfar] at hx' ⊢
    exact h.far_last hx'
  · rw [hr1, hr2', append_nil]
    exact (nodup_append.mp hnd).1
  · intro k hk
    rw [hr1, hr2', append_nil] at hk
    have hne : k ≠ s.near.pipe.inpipe := fun e => hnotin (e ▸ hk)
    have hl := h.live k (mem_append_left _ hk)
    rw [hup, hfresh, Link.free_frees, if_neg hne, Link.store_frees]
    exact hl
  · intro k
    rw [hup, Link.free_frees, Link.store_frees]
    split
    next hk =>
      have := h.inpipe_live halive
      rw [hk]
      omega
    next => exact h.frees_le k
  · intro k
    rw [hup, Link.free_queue]
    by_cases hk : k = s.near.pipe.inpipe
    · rw [hk, Link.store_queue_self]
      exact hu
    · rw [Link.store_queue_of_ne _ hk]
      exact h.more k

end

end ShutdownInv

end Zmq
