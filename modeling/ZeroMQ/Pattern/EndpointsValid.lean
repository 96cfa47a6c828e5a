import ZeroMQ.Pattern.Endpoints

/-!
# What the endpoints of a socket refer to

An entry of `inprocs` goes with its pipe: `pipe_terminated` removes it. An entry of `endpoints` does not.
It stays when its session was terminated because the peer violated the protocol, and when its pipe was
terminated by the pattern of the socket; a later `term_endpoint` then calls the deallocated pipe.

In runs in which this does not happen, which is what `Endpoints.Tracked` says of each act, everything the
two maps refer to is there.
-/

namespace Zmq

open Foundation Function List Nat Bool

/-! ### Pipes nobody terminates -/

/-- Neither end was asked to terminate. -/
structure Untouched (l : Link) : Prop where
  nearTerms : l.near.pipeTerms = 0
  farTerms : l.far.pipeTerms = 0
  nearFrees : l.near.frees = 0
  farFrees : l.far.frees = 0

namespace Untouched

variable {l t : Link} {a : EndAct} {e : Option SinkEvent}

open Link

lemma pipepair (hwm0 hwm1 : ℤ) : Untouched (Link.pipepair hwm0 hwm1) := ⟨rfl, rfl, rfl, rfl⟩

lemma swap (h : Untouched l) : Untouched l.swap := ⟨h.farTerms, h.nearTerms, h.farFrees, h.nearFrees⟩

lemma ack_notMem (h : Untouched l) (hs : ShutdownInv l) : Command.pipeTermAck ∉ l.near.inbox := by
  refine hs.near.ack_notMem ?_
  rw [hs.far.acks_eq h.farFrees]
  have hgot := hs.far.term_inbox h.farFrees
  rw [h.nearTerms] at hgot
  by_contra hne
  have hone : l.far.pipe.state.acks = 1 := by
    have := l.far.pipe.state.acks_le
    omega
  have := l.far.pipe.state.got_of_acks hone
  omega

lemma move (h : Untouched l) (hs : ShutdownInv l) (hmove : l.Move a t e) (ha : a.terminates = false) :
    Untouched t ∧ e ≠ some .pipeTerminated := by
  obtain ⟨cs, hfar⟩ := hmove.far_eq
  have he : e ≠ some .pipeTerminated := by
    intro he
    obtain ⟨-, hhead⟩ := hmove.of_pipeTerminated he
    exact h.ack_notMem hs (mem_of_mem_head? hhead)
  refine ⟨⟨?_, by rw [hfar]; exact h.farTerms, (hmove.frees_eq he).trans h.nearFrees,
    by rw [hfar]; exact h.farFrees⟩, he⟩
  obtain ⟨hterms, -⟩ | ⟨delay, rfl, -⟩ := DelimiterInv.pipeTerms_of_move hmove
  · exact hterms.trans h.nearTerms
  · exact absurd ha (by simp [EndAct.terminates])

end Untouched

namespace Endpoints

/-! ### The invariant -/

/-- The child of an entry is owned, and its pipe is the one made with the child. -/
structure Good (s : Endpoints) (e : EndpointEntry) : Prop where
  remote : e.addr.inproc = false
  lt : e.child < s.children
  owned : s.phase e.child = .owned
  pipe : ∀ p ∈ e.pipe, p < s.count ∧ s.owner p = some e.child ∧ Untouched (s.links p)

/-- The invariant of the endpoints. -/
structure Inv (s : Endpoints) : Prop where
  shutdown : ∀ p, ShutdownInv (s.links p)
  good : ∀ e ∈ s.endpoints, s.Good e
  inproc : ∀ e ∈ s.inprocs, e.2 < s.count ∧ (s.links e.2).near.frees = 0
  apart : ∀ e ∈ s.inprocs, s.owner e.2 = none
  pipes : (s.inprocs.map Prod.snd).Nodup
  once : (s.endpoints.map EndpointEntry.child ++ s.disconnected).Nodup
  all : ∀ c, c < s.children ↔ c ∈ s.endpoints.map EndpointEntry.child ++ s.disconnected

variable {s t : Endpoints} {p : ℕ} {l : Link} {e : EndpointEntry}

@[simp] lemma setLink_self (s : Endpoints) (p : ℕ) (l : Link) : (s.setLink p l).links p = l := by
  simp [setLink]

lemma setLink_of_ne (s : Endpoints) {p q : ℕ} (hq : q ≠ p) (l : Link) :
    (s.setLink p l).links q = s.links q := by
  simp [setLink, hq]

lemma Good.congr (h : s.Good e) (hchildren : s.children ≤ t.children)
    (hphase : t.phase e.child = s.phase e.child) (hcount : s.count ≤ t.count)
    (hpipe : ∀ p ∈ e.pipe, t.owner p = s.owner p ∧ Untouched (t.links p)) : t.Good e := by
  refine ⟨h.remote, lt_of_lt_of_le h.lt hchildren, hphase.trans h.owned, fun p hp => ?_⟩
  obtain ⟨hlt, howner, -⟩ := h.pipe p hp
  exact ⟨lt_of_lt_of_le hlt hcount, (hpipe p hp).1.trans howner, (hpipe p hp).2⟩

lemma terminate_eq (hs : ShutdownInv (s.links p)) (hlive : (s.links p).near.frees = 0) (delay : Bool) :
    ∃ l, s.terminate p delay = .ok (s.setLink p l) ∧ ShutdownInv l ∧
      l.near.frees = (s.links p).near.frees := by
  obtain ⟨l, heq, hmove⟩ := hs.terminate_succeeds hlive delay
  refine ⟨l, ?_, ?_, ?_⟩
  · simp only [Endpoints.terminate, hlive, ne_eq, not_true_eq_false, ↓reduceIte, heq]
  · rcases hmove with rfl | hmove
    · exact hs
    · exact hs.move hlive hmove
  · rcases hmove with rfl | hmove
    · rfl
    · exact hmove.frees_eq (by simp)

/-! ### The loops -/

/-- Pipes of `P` were terminated and children of `C` were sent `term`; nothing else has changed. -/
structure Frame (P C : ℕ → Prop) (s t : Endpoints) : Prop where
  shutdown : ∀ p, ShutdownInv (t.links p)
  frees : ∀ p, (t.links p).near.frees = (s.links p).near.frees
  links : ∀ p, ¬P p → t.links p = s.links p
  phase : ∀ c, ¬C c → t.phase c = s.phase c
  sizes : t.count = s.count ∧ t.children = s.children
  owner : t.owner = s.owner
  maps : t.endpoints = s.endpoints ∧ t.inprocs = s.inprocs
  disconnected : t.disconnected = s.disconnected

namespace Frame

variable {u : Endpoints} {P C : ℕ → Prop}

lemma refl (h : ∀ p, ShutdownInv (s.links p)) : Frame P C s s :=
  ⟨h, fun _ => rfl, fun _ _ => rfl, fun _ _ => rfl, ⟨rfl, rfl⟩, rfl, ⟨rfl, rfl⟩, rfl⟩

lemma trans (h : Frame P C s t) (h' : Frame P C t u) : Frame P C s u where
  shutdown := h'.shutdown
  frees p := (h'.frees p).trans (h.frees p)
  links p hp := (h'.links p hp).trans (h.links p hp)
  phase c hc := (h'.phase c hc).trans (h.phase c hc)
  sizes := ⟨h'.sizes.1.trans h.sizes.1, h'.sizes.2.trans h.sizes.2⟩
  owner := h'.owner.trans h.owner
  maps := ⟨h'.maps.1.trans h.maps.1, h'.maps.2.trans h.maps.2⟩
  disconnected := h'.disconnected.trans h.disconnected

lemma terminate (hs : ∀ p, ShutdownInv (s.links p)) (hlive : (s.links p).near.frees = 0) (hp : P p)
    (delay : Bool) : ∃ t, s.terminate p delay = .ok t ∧ Frame P C s t := by
  obtain ⟨l, heq, hl, hfrees⟩ := terminate_eq (hs p) hlive delay
  refine ⟨_, heq, ⟨fun q => ?_, fun q => ?_, fun q hq => s.setLink_of_ne ?_ l, fun _ _ => rfl, ⟨rfl, rfl⟩,
    rfl, ⟨rfl, rfl⟩, rfl⟩⟩
  · by_cases hq : q = p
    · rw [hq, setLink_self]
      exact hl
    · rw [s.setLink_of_ne hq]
      exact hs q
  · by_cases hq : q = p
    · rw [hq, setLink_self, hfrees]
    · rw [s.setLink_of_ne hq]
  · rintro rfl
    exact hq hp

lemma processTermReq (hs : ∀ p, ShutdownInv (s.links p)) {c : ℕ} (hc : C c) :
    Frame P C s (s.processTermReq c) := by
  unfold Endpoints.processTermReq
  split
  · refine ⟨hs, fun _ => rfl, fun _ _ => rfl, fun d hd => update_of_ne ?_ _ _, ⟨rfl, rfl⟩, rfl,
      ⟨rfl, rfl⟩, rfl⟩
    rintro rfl
    exact hd hc
  · exact refl hs

lemma termEntries {es : List EndpointEntry} (hs : ∀ p, ShutdownInv (s.links p))
    (hlive : ∀ e ∈ es, ∀ p ∈ e.pipe, (s.links p).near.frees = 0) (hP : ∀ e ∈ es, ∀ p ∈ e.pipe, P p)
    (hC : ∀ e ∈ es, C e.child) : ∃ t, termEntries es s = .ok t ∧ Frame P C s t := by
  induction es generalizing s with
  | nil => exact ⟨s, rfl, refl hs⟩
  | cons e es ih =>
    -- the pipe of the entry first, then its child, then the others
    have hpipe : ∃ t, (∀ u, Endpoints.termEntries es (t.processTermReq e.child) = .ok u →
        Endpoints.termEntries (e :: es) s = .ok u) ∧ Frame P C s t := by
      cases hp : e.pipe with
      | none => exact ⟨s, fun u hu => by rw [Endpoints.termEntries, hp]; exact hu, refl hs⟩
      | some p =>
        obtain ⟨t, heq, ht⟩ := terminate hs (hlive e mem_cons_self p hp)
          (hP e mem_cons_self p hp) false
        refine ⟨t, fun u hu => ?_, ht⟩
        simp only [Endpoints.termEntries, hp, heq]
        exact hu
    obtain ⟨t, hstep, ht⟩ := hpipe
    have hchild : Frame P C t (t.processTermReq e.child) :=
      processTermReq ht.shutdown (hC e mem_cons_self)
    have hrest : ∀ e' ∈ es, ∀ p ∈ e'.pipe, ((t.processTermReq e.child).links p).near.frees = 0 := by
      intro e' he' p hp
      rw [hchild.frees, ht.frees]
      exact hlive e' (mem_cons_of_mem _ he') p hp
    obtain ⟨u, heq, hu⟩ := ih hchild.shutdown hrest (fun e' he' => hP e' (mem_cons_of_mem _ he'))
      fun e' he' => hC e' (mem_cons_of_mem _ he')
    exact ⟨u, hstep u heq, (ht.trans hchild).trans hu⟩

lemma termInprocs {es : List (Uri × ℕ)} (hs : ∀ p, ShutdownInv (s.links p))
    (hlive : ∀ e ∈ es, (s.links e.2).near.frees = 0) (hP : ∀ e ∈ es, P e.2) :
    ∃ t, termInprocs es s = .ok t ∧ Frame P C s t := by
  induction es generalizing s with
  | nil => exact ⟨s, rfl, refl hs⟩
  | cons e es ih =>
    obtain ⟨t, heq, ht⟩ := terminate (C := C) hs (hlive e mem_cons_self) (hP e mem_cons_self) true
    have hrest : ∀ e' ∈ es, (t.links e'.2).near.frees = 0 := by
      intro e' he'
      rw [ht.frees]
      exact hlive e' (mem_cons_of_mem _ he')
    obtain ⟨u, heq', hu⟩ := ih ht.shutdown hrest fun e' he' => hP e' (mem_cons_of_mem _ he')
    refine ⟨u, ?_, ht.trans hu⟩
    simp only [Endpoints.termInprocs, heq]
    exact heq'

lemma good (h : Frame P C s t) (he : s.Good e) (hpipe : ∀ p ∈ e.pipe, ¬P p) (hchild : ¬C e.child) :
    t.Good e := by
  refine he.congr (le_of_eq h.sizes.2.symm) (h.phase _ hchild) (le_of_eq h.sizes.1.symm) fun p hp => ?_
  rw [h.owner, h.links p (hpipe p hp)]
  exact ⟨rfl, (he.pipe p hp).2.2⟩

end Frame

namespace Inv

lemma holdsPipe_of_mem (he : e ∈ s.endpoints) (hp : p ∈ e.pipe) : s.holdsPipe p = true := by
  simp only [holdsPipe, any_eq_true, decide_eq_true_eq]
  exact ⟨e, he, hp⟩

lemma setLink (h : Inv s) (hl : ShutdownInv l) (hfrees : l.near.frees = (s.links p).near.frees)
    (hpipe : s.holdsPipe p = true → Untouched (s.links p) → Untouched l) : Inv (s.setLink p l) := by
  refine ⟨fun q => ?_, fun e he => (h.good e he).congr (le_refl _) rfl (le_refl _) fun q hq => ⟨rfl, ?_⟩,
    fun e he => ⟨(h.inproc e he).1, ?_⟩, h.apart, h.pipes, h.once, h.all⟩
  · by_cases hq : q = p
    · rw [hq, setLink_self]
      exact hl
    · rw [s.setLink_of_ne hq]
      exact h.shutdown q
  · have hold := ((h.good e he).pipe q hq).2.2
    by_cases hqp : q = p
    · subst hqp
      rw [setLink_self]
      exact hpipe (holdsPipe_of_mem he hq) hold
    · rw [s.setLink_of_ne hqp]
      exact hold
  · by_cases hq : e.2 = p
    · rw [hq, setLink_self, hfrees, ← hq]
      exact (h.inproc e he).2
    · rw [s.setLink_of_ne hq]
      exact (h.inproc e he).2


/-! ### Calls of the application -/

/-- A pipe with an owner is in no entry of `inprocs`, and a pipe in `inprocs` is in no entry of
`endpoints`. -/
lemma inproc_ne (h : Inv s) {f : Uri × ℕ} (hf : f ∈ s.inprocs) (he : e ∈ s.endpoints) (hp : p ∈ e.pipe) :
    f.2 ≠ p := by
  rintro rfl
  have howner := ((h.good e he).pipe f.2 hp).2.1
  rw [h.apart f hf] at howner
  cases howner

lemma child_inj (h : Inv s) {e' : EndpointEntry} (he : e ∈ s.endpoints) (he' : e' ∈ s.endpoints)
    (hchild : e.child = e'.child) : e = e' :=
  inj_on_of_nodup_map (nodup_append.mp h.once).1 he he' hchild

lemma pipe_inj (h : Inv s) {e' : EndpointEntry} (he : e ∈ s.endpoints) (he' : e' ∈ s.endpoints)
    (hp : p ∈ e.pipe) (hp' : p ∈ e'.pipe) : e = e' := by
  refine h.child_inj he he' ?_
  have howner := ((h.good e he).pipe p hp).2.1
  rw [((h.good e' he').pipe p hp').2.1] at howner
  exact (Option.some.inj howner).symm

lemma termInprocs (h : Inv s) (addr : Uri) :
    ∃ t, Endpoints.termInprocs (s.inprocs.filter fun e => e.1 = addr) s = .ok t ∧
      Inv (t.dropInprocs addr) := by
  obtain ⟨t, heq, ht⟩ := Frame.termInprocs (P := fun p => ∃ f ∈ s.inprocs, f.2 = p) (C := fun _ => False)
    h.shutdown (fun f hf => (h.inproc f (mem_of_mem_filter hf)).2)
    fun f hf => ⟨f, mem_of_mem_filter hf, rfl⟩
  refine ⟨t, heq, ht.shutdown, fun e he => ?_, fun f hf => ?_, fun f hf => ?_, ?_, ?_, fun c => ?_⟩
  · rw [dropInprocs, ht.maps.1] at he
    have hgood := ht.good (h.good e he) (fun p hp ⟨f, hf, hcon⟩ => h.inproc_ne hf he hp hcon) id
    exact { hgood with }
  · rw [dropInprocs, ht.maps.2] at hf
    have hold := h.inproc f (mem_of_mem_filter hf)
    exact ⟨by rw [← ht.sizes.1] at hold; exact hold.1, (ht.frees f.2).trans hold.2⟩
  · rw [dropInprocs, ht.maps.2] at hf
    have hold := h.apart f (mem_of_mem_filter hf)
    rw [← ht.owner] at hold
    exact hold
  · rw [dropInprocs, ht.maps.2]
    exact h.pipes.sublist (filter_sublist.map _)
  · change (t.endpoints.map EndpointEntry.child ++ t.disconnected).Nodup
    rw [ht.maps.1, ht.disconnected]
    exact h.once
  · change c < t.children ↔ c ∈ t.endpoints.map EndpointEntry.child ++ t.disconnected
    rw [ht.sizes.2, ht.maps.1, ht.disconnected]
    exact h.all c

lemma dropEntries_perm (s : Endpoints) (addr : Uri) :
    (s.endpoints.filter (fun e => e.addr ≠ addr)).map EndpointEntry.child ++
        (s.disconnected ++ (s.endpoints.filter fun e => e.addr = addr).map EndpointEntry.child) ~
      s.endpoints.map EndpointEntry.child ++ s.disconnected := by
  have hsplit := (filter_append_perm (fun e : EndpointEntry => decide (e.addr = addr))
    s.endpoints).map EndpointEntry.child
  rw [map_append] at hsplit
  have hneg : (s.endpoints.filter fun e => !decide (e.addr = addr)) =
      s.endpoints.filter fun e => decide (e.addr ≠ addr) := by
    simp
  rw [hneg] at hsplit
  refine List.Perm.trans ?_ (hsplit.append_right s.disconnected)
  rw [← append_assoc]
  refine List.Perm.trans perm_append_comm ?_
  rw [← append_assoc]

lemma termEntries (h : Inv s) (addr : Uri) :
    ∃ t, Endpoints.termEntries (s.endpoints.filter fun e => e.addr = addr) s = .ok t ∧
      Inv (t.dropEntries addr (s.endpoints.filter fun e => e.addr = addr)) := by
  have hmem : ∀ {e : EndpointEntry}, e ∈ s.endpoints.filter (fun e => e.addr = addr) →
      e ∈ s.endpoints ∧ e.addr = addr := by
    intro e he
    simpa using mem_filter.mp he
  obtain ⟨t, heq, ht⟩ := Frame.termEntries
    (P := fun p => ∃ e ∈ s.endpoints, e.addr = addr ∧ e.pipe = some p)
    (C := fun c => ∃ e ∈ s.endpoints, e.addr = addr ∧ e.child = c) h.shutdown
    (fun e he p hp => ((h.good e (hmem he).1).pipe p hp).2.2.nearFrees)
    (fun e he p hp => ⟨e, (hmem he).1, (hmem he).2, hp⟩) fun e he => ⟨e, (hmem he).1, (hmem he).2, rfl⟩
  refine ⟨t, heq, ht.shutdown, fun e he => ?_, fun f hf => ?_, fun f hf => ?_, ?_, ?_, fun c => ?_⟩
  · rw [dropEntries, ht.maps.1] at he
    obtain ⟨he, hne⟩ := mem_filter.mp he
    simp only [decide_eq_true_eq] at hne
    have hgood := ht.good (h.good e he)
      (fun p hp ⟨e', he', haddr, hp'⟩ => hne (h.pipe_inj he he' hp hp' ▸ haddr))
      fun ⟨e', he', haddr, hc⟩ => hne (h.child_inj he he' hc.symm ▸ haddr)
    exact { hgood with }
  · rw [dropEntries, ht.maps.2] at hf
    have hold := h.inproc f hf
    exact ⟨by rw [← ht.sizes.1] at hold; exact hold.1, (ht.frees f.2).trans hold.2⟩
  · rw [dropEntries, ht.maps.2] at hf
    have hold := h.apart f hf
    rw [← ht.owner] at hold
    exact hold
  · rw [dropEntries, ht.maps.2]
    exact h.pipes
  · simp only [dropEntries, ht.maps.1, ht.disconnected]
    exact (dropEntries_perm s addr).nodup_iff.mpr h.once
  · simp only [dropEntries, ht.maps.1, ht.disconnected, ht.sizes.2]
    rw [(dropEntries_perm s addr).mem_iff]
    exact h.all c

lemma termEndpoint (h : Inv s) (addr : Uri) :
    ∃ b t, s.termEndpoint addr = .ok (b, t) ∧ Inv t := by
  unfold Endpoints.termEndpoint
  split
  · split
    · exact ⟨true, _, rfl, ⟨h.shutdown, fun e he => ⟨(h.good e he).remote, (h.good e he).lt,
        (h.good e he).owned, (h.good e he).pipe⟩, h.inproc, h.apart, h.pipes, h.once, h.all⟩⟩
    · simp only
      split
      · exact ⟨false, s, rfl, h⟩
      · obtain ⟨t, heq, ht⟩ := h.termInprocs addr
        rw [heq]
        exact ⟨true, _, rfl, ht⟩
  · simp only
    split
    · exact ⟨false, s, rfl, h⟩
    · obtain ⟨t, heq, ht⟩ := h.termEntries addr
      rw [heq]
      exact ⟨true, _, rfl, ht⟩

lemma can_disconnect (h : Inv s) (he : e ∈ s.endpoints) :
    ∃ t, s.termEndpoint e.addr = .ok (true, t) ∧ e.child ∈ t.disconnected := by
  have hmem : e ∈ s.endpoints.filter (fun e' => e'.addr = e.addr) :=
    mem_filter.mpr ⟨he, by simp⟩
  obtain ⟨t, heq, -⟩ := h.termEntries e.addr
  refine ⟨t.dropEntries e.addr (s.endpoints.filter fun e' => e'.addr = e.addr), ?_, ?_⟩
  · simp only [Endpoints.termEndpoint, (h.good e he).remote, false_eq_true, ↓reduceIte]
    rw [if_neg (ne_nil_of_mem hmem), heq]
    rfl
  · exact mem_append_right _ (mem_map_of_mem hmem)

lemma newPair (h : Inv s) (hwm0 hwm1 : ℤ) (owner : Option ℕ) : Inv (s.newPair hwm0 hwm1 owner) := by
  have hlinks : ∀ {q}, q < s.count → (s.newPair hwm0 hwm1 owner).links q = s.links q := fun hq =>
    update_of_ne (Nat.ne_of_lt hq) _ _
  have howner : ∀ {q}, q < s.count → (s.newPair hwm0 hwm1 owner).owner q = s.owner q := fun hq =>
    update_of_ne (Nat.ne_of_lt hq) _ _
  refine ⟨fun q => ?_, fun e he => ?_, fun f hf => ?_, fun f hf => ?_, h.pipes, h.once, h.all⟩
  · by_cases hq : q = s.count
    · subst hq
      simp only [Endpoints.newPair, update_self]
      exact ShutdownInv.pipepair hwm0 hwm1
    · simp only [Endpoints.newPair, update_of_ne hq]
      exact h.shutdown q
  · refine (h.good e he).congr (le_refl _) rfl (Nat.le_succ _) fun p hp => ?_
    obtain ⟨hlt, -, hun⟩ := (h.good e he).pipe p hp
    rw [hlinks hlt, howner hlt]
    exact ⟨rfl, hun⟩
  · have hold := h.inproc f hf
    rw [hlinks hold.1]
    exact ⟨Nat.lt_succ_of_lt hold.1, hold.2⟩
  · rw [howner (h.inproc f hf).1]
    exact h.apart f hf

lemma addEndpoint (h : Inv s) {addr : Uri} (haddr : addr.inproc = false) {pipe : Option ℕ}
    (hpipe : ∀ p ∈ pipe, p < s.count ∧ s.owner p = some s.children ∧ Untouched (s.links p)) :
    Inv (s.addEndpoint addr pipe) := by
  have hfresh : s.children ∉ s.endpoints.map EndpointEntry.child ++ s.disconnected := fun hcon =>
    absurd ((h.all _).mpr hcon) (lt_irrefl _)
  have hperm : (s.addEndpoint addr pipe).endpoints.map EndpointEntry.child ++
      (s.addEndpoint addr pipe).disconnected ~
        s.children :: (s.endpoints.map EndpointEntry.child ++ s.disconnected) := by
    simp only [Endpoints.addEndpoint, map_append, map_cons, map_nil, append_assoc]
    exact perm_middle
  refine ⟨h.shutdown, fun e he => ?_, h.inproc, h.apart, h.pipes, ?_, fun c => ?_⟩
  · rcases mem_append.mp he with he | he
    · have hgood := h.good e he
      have hphase : (s.addEndpoint addr pipe).phase e.child = s.phase e.child :=
        update_of_ne (Nat.ne_of_lt hgood.lt) _ _
      exact hgood.congr (Nat.le_succ _) hphase (le_refl _) fun p hp => ⟨rfl, (hgood.pipe p hp).2.2⟩
    · obtain rfl := mem_singleton.mp he
      exact ⟨haddr, Nat.lt_succ_self _, update_self _ _ _, hpipe⟩
  · exact hperm.nodup_iff.mpr (nodup_cons.mpr ⟨hfresh, h.once⟩)
  · rw [hperm.mem_iff, mem_cons, ← h.all c]
    exact Nat.lt_succ_iff_lt_or_eq.trans or_comm

lemma bind (h : Inv s) (addr : Uri) (ok : Bool) : Inv (s.bind addr ok) := by
  unfold Endpoints.bind
  split
  · exact h
  split
  · exact ⟨h.shutdown, fun e he => ⟨(h.good e he).remote, (h.good e he).lt, (h.good e he).owned,
      (h.good e he).pipe⟩, h.inproc, h.apart, h.pipes, h.once, h.all⟩
  · next haddr => exact h.addEndpoint (by simpa using haddr) (by simp)

lemma addInproc (h : Inv s) (addr : Uri) (hp : p < s.count) (hlive : (s.links p).near.frees = 0)
    (howner : s.owner p = none) (hnew : ∀ f ∈ s.inprocs, f.2 ≠ p) : Inv (s.addInproc addr p) := by
  refine ⟨h.shutdown, fun e he => ⟨(h.good e he).remote, (h.good e he).lt, (h.good e he).owned,
    (h.good e he).pipe⟩, fun f hf => ?_, fun f hf => ?_, ?_, h.once, h.all⟩
  · rcases mem_append.mp hf with hf | hf
    · exact h.inproc f hf
    · obtain rfl := mem_singleton.mp hf
      exact ⟨hp, hlive⟩
  · rcases mem_append.mp hf with hf | hf
    · exact h.apart f hf
    · obtain rfl := mem_singleton.mp hf
      exact howner
  · simp only [Endpoints.addInproc, map_append, map_cons, map_nil]
    refine nodup_append.mpr ⟨h.pipes, nodup_singleton _, fun q hq r hr => ?_⟩
    obtain rfl := mem_singleton.mp hr
    obtain ⟨f, hf, rfl⟩ := mem_map.mp hq
    exact hnew f hf

lemma newPair_self (s : Endpoints) (hwm0 hwm1 : ℤ) (owner : Option ℕ) :
    (s.newPair hwm0 hwm1 owner).links s.count = Link.pipepair hwm0 hwm1 ∧
      (s.newPair hwm0 hwm1 owner).owner s.count = owner :=
  ⟨update_self _ _ _, update_self _ _ _⟩

lemma not_holdsPipe (h : Inv s) : s.holdsPipe s.count = false := by
  by_contra hcon
  simp only [holdsPipe, not_eq_false, any_eq_true, decide_eq_true_eq] at hcon
  obtain ⟨e, he, hp⟩ := hcon
  exact absurd ((h.good e he).pipe _ hp).1 (lt_irrefl _)

lemma connect (h : Inv s) (single : Bool) (addr : Uri) (toAll rejects : Bool) (hwm0 hwm1 : ℤ)
    (hgood : addr.inproc = false → s.immediate = false ∨ toAll = true → rejects = false) :
    ∃ t, s.connect single addr toAll rejects hwm0 hwm1 = .ok t ∧ Inv t := by
  unfold Endpoints.connect
  split
  · have h1 := h.newPair hwm0 hwm1 none
    obtain ⟨hself, howner⟩ := newPair_self s hwm0 hwm1 none
    have hlive : ((s.newPair hwm0 hwm1 none).links s.count).near.frees = 0 := by rw [hself]; rfl
    have hattach : ∃ t, (s.newPair hwm0 hwm1 none).attachPipe s.count rejects = .ok t ∧ Inv t ∧
        Frame (· = s.count) (fun _ => False) (s.newPair hwm0 hwm1 none) t := by
      unfold attachPipe
      split
      · obtain ⟨t, heq, ht⟩ := Frame.terminate (P := (· = s.count)) (C := fun _ => False) h1.shutdown hlive
          rfl false
        obtain ⟨l, heq', hl, hfrees⟩ := terminate_eq (h1.shutdown s.count) hlive false
        obtain rfl : t = _ := Except.ok.inj (heq.symm.trans heq')
        refine ⟨_, heq, h1.setLink hl hfrees fun hcon => ?_, ht⟩
        have hno : (s.newPair hwm0 hwm1 none).holdsPipe s.count = false := h.not_holdsPipe
        rw [hno] at hcon
        cases hcon
      · exact ⟨_, rfl, h1, Frame.refl h1.shutdown⟩
    obtain ⟨t, heq, ht, hframe⟩ := hattach
    refine ⟨t.addInproc addr s.count, ?_, ht.addInproc addr ?_ ?_ ?_ fun f hf => ?_⟩
    · simp only [Bind.bind, Except.bind, heq]
      rfl
    · rw [hframe.sizes.1]
      exact Nat.lt_succ_self _
    · rw [hframe.frees]
      exact hlive
    · rw [hframe.owner]
      exact howner
    · rw [hframe.maps.2] at hf
      exact Nat.ne_of_lt (h.inproc f hf).1
  · next haddr =>
    rw [not_eq_true] at haddr
    split
    · exact ⟨s, rfl, h⟩
    split
    · next hpipe =>
      have hrejects : rejects = false := by
        refine hgood haddr ?_
        simpa using hpipe
      have h1 := h.newPair hwm0 hwm1 (some s.children)
      obtain ⟨hself, howner⟩ := newPair_self s hwm0 hwm1 (some s.children)
      refine ⟨(s.newPair hwm0 hwm1 (some s.children)).addEndpoint addr (some s.count), ?_,
        h1.addEndpoint haddr fun p hp => ?_⟩
      · rw [hrejects]
        rfl
      · obtain rfl := Option.some.inj hp
        refine ⟨Nat.lt_succ_self _, howner, ?_⟩
        rw [hself]
        exact Untouched.pipepair hwm0 hwm1
    · exact ⟨_, rfl, h.addEndpoint haddr (by simp)⟩

/-! ### Children and pipes -/

lemma setPhase (h : Inv s) {c : ℕ} {x : ChildPhase} (hc : ∀ e ∈ s.endpoints, e.child ≠ c) :
    Inv { s with phase := update s.phase c x } := by
  refine ⟨h.shutdown, fun e he => ?_, h.inproc, h.apart, h.pipes, h.once, h.all⟩
  exact (h.good e he).congr (le_refl _) (update_of_ne (hc e he) _ _) (le_refl _)
    fun p hp => ⟨rfl, ((h.good e he).pipe p hp).2.2⟩

lemma processTermReq (h : Inv s) {c : ℕ} (hgood : s.holdsChild c = false) : Inv (s.processTermReq c) := by
  unfold Endpoints.processTermReq
  split
  · refine h.setPhase fun e he hcon => ?_
    have hhas : s.holdsChild c = true := by
      simp only [holdsChild, any_eq_true, decide_eq_true_eq]
      exact ⟨e, he, hcon⟩
    rw [hgood] at hhas
    cases hhas
  · exact h

lemma eraseInproc_spec {fs : List (Uri × ℕ)} (hnodup : (fs.map Prod.snd).Nodup) :
    (eraseInproc p fs) <+ fs ∧ ∀ f ∈ eraseInproc p fs, f.2 ≠ p := by
  induction fs with
  | nil => exact ⟨List.Sublist.refl _, by simp [eraseInproc]⟩
  | cons f fs ih =>
    rw [map_cons, nodup_cons] at hnodup
    rw [eraseInproc]
    split
    · next hf =>
      refine ⟨sublist_cons_self f fs, fun g hg hcon => hnodup.1 ?_⟩
      rw [hf, ← hcon]
      exact mem_map_of_mem hg
    · next hf =>
      refine ⟨(ih hnodup.2).1.cons_cons f, fun g hg => ?_⟩
      rcases mem_cons.mp hg with rfl | hg
      · exact hf
      · exact (ih hnodup.2).2 g hg

lemma pipeTerminated (h : Inv s) (hl : ShutdownInv l) (hno : s.holdsPipe p = false) :
    Inv ((s.setLink p l).pipeTerminated p) := by
  obtain ⟨hsub, hne⟩ := eraseInproc_spec (p := p) h.pipes
  refine ⟨fun q => ?_, fun e he => (h.good e he).congr (le_refl _) rfl (le_refl _) fun q hq => ⟨rfl, ?_⟩,
    fun f hf => ⟨(h.inproc f (hsub.subset hf)).1, ?_⟩, fun f hf => h.apart f (hsub.subset hf),
    h.pipes.sublist (hsub.map _), h.once, h.all⟩
  · change ShutdownInv ((s.setLink p l).links q)
    by_cases hq : q = p
    · rw [hq, setLink_self]
      exact hl
    · rw [s.setLink_of_ne hq]
      exact h.shutdown q
  · have hqp : q ≠ p := by
      rintro rfl
      have hhas : s.holdsPipe q = true := holdsPipe_of_mem he hq
      rw [hno] at hhas
      cases hhas
    change Untouched ((s.setLink p l).links q)
    rw [s.setLink_of_ne hqp]
    exact ((h.good e he).pipe q hq).2.2
  · change ((s.setLink p l).links f.2).near.frees = 0
    rw [s.setLink_of_ne (hne f hf)]
    exact (h.inproc f (hsub.subset hf)).2

lemma untouched (h : Inv s) (hp : s.holdsPipe p = true) :
    Untouched (s.links p) ∧ ∃ c, s.owner p = some c ∧ s.phase c = .owned := by
  simp only [holdsPipe, any_eq_true, decide_eq_true_eq] at hp
  obtain ⟨e, he, hp⟩ := hp
  obtain ⟨-, howner, hun⟩ := (h.good e he).pipe p hp
  exact ⟨hun, e.child, howner, (h.good e he).owned⟩

lemma socket (h : Inv s) {single : Bool} (a : { a : EndAct // a ≠ .hiccup })
    (hgood : s.Tracked (.socket p a)) : ∃ t, s.step single (.socket p a) = .ok t ∧ Inv t := by
  simp only [Endpoints.step]
  split
  swap
  · exact ⟨s, rfl, h⟩
  obtain ⟨l, e, hact, hmove⟩ := (h.shutdown p).exists_move a.1
  simp only [hact]
  rcases hmove with ⟨rfl, rfl⟩ | ⟨halive, hmove⟩
  · have hself : s.setLink p (s.links p) = s := by simp [Endpoints.setLink]
    exact ⟨s, by rw [hself]; rfl, h⟩
  have hl := (h.shutdown p).move halive hmove
  have hquiet : s.holdsPipe p = true → a.1.terminates = false := by
    intro hp
    by_contra hterm
    rw [hgood.1 (by simpa using hterm)] at hp
    cases hp
  by_cases hgone : e = some .pipeTerminated
  · subst hgone
    refine ⟨_, rfl, h.pipeTerminated hl ?_⟩
    by_contra hp
    rw [not_eq_false] at hp
    exact ((h.untouched hp).1.move (h.shutdown p) hmove (hquiet hp)).2 rfl
  have h1 : Inv (s.setLink p l) := by
    refine h.setLink hl (hmove.frees_eq hgone) fun hp hun => ?_
    exact (hun.move (h.shutdown p) hmove (hquiet hp)).1
  by_cases hhiccup : e = some .hiccuped ∧ s.immediate = true
  · obtain ⟨rfl, himm⟩ := hhiccup
    obtain ⟨hdeliver, hnext⟩ := hmove.of_hiccuped rfl
    have hno : (s.setLink p l).holdsPipe p = false := hgood.2 hdeliver himm hnext
    have hlive : ((s.setLink p l).links p).near.frees = 0 := by
      rw [setLink_self, hmove.frees_eq hgone]
      exact halive
    obtain ⟨l', heq, hl', hfrees⟩ := terminate_eq (h1.shutdown p) hlive false
    refine ⟨_, ?_, h1.setLink hl' hfrees fun hcon => ?_⟩
    · have himm' : (s.setLink p l).immediate = true := himm
      simp only [react, himm', if_true]
      exact heq
    · rw [hno] at hcon
      cases hcon
  · refine ⟨s.setLink p l, ?_, h1⟩
    cases e with
    | none => rfl
    | some e =>
      cases e with
      | readActivated | writeActivated => rfl
      | pipeTerminated => exact absurd rfl hgone
      | hiccuped =>
        have himm : (s.setLink p l).immediate ≠ true := fun hcon => hhiccup ⟨rfl, hcon⟩
        simp only [react]
        rw [if_neg himm]

lemma peer (h : Inv s) {single : Bool} (a : EndAct) :
    ∃ t, s.step single (.peer p a) = .ok t ∧ Inv t := by
  simp only [Endpoints.step]
  split
  swap
  · exact ⟨s, rfl, h⟩
  next hmay =>
  obtain ⟨l, e, hact, hmove⟩ := (h.shutdown p).swap.exists_move a
  simp only [hact]
  refine ⟨_, rfl, ?_⟩
  rcases hmove with ⟨rfl, -⟩ | ⟨halive, hmove⟩
  · have hself : s.setLink p (s.links p) = s := by simp [Endpoints.setLink]
    rw [Link.swap_swap, hself]
    exact h
  have hfrees : l.swap.near.frees = (s.links p).near.frees := by
    obtain ⟨cs, hfar⟩ := hmove.far_eq
    rw [Link.swap_near, hfar]
    rfl
  refine h.setLink ((h.shutdown p).swap.move halive hmove).swap hfrees fun hp hun => ?_
  obtain ⟨-, c, howner, hphase⟩ := h.untouched hp
  have hterm : a.terminates = false := by
    cases a with
    | terminate delay =>
      have hsent := hmay.2
      simp only [peerMay, howner, hphase] at hsent
      exact absurd hsent (by decide)
    | _ => rfl
  exact (hun.swap.move (h.shutdown p).swap hmove hterm).1.swap

lemma step (h : Inv s) (single : Bool) (a : EndpointAct) (hgood : s.Tracked a) :
    ∃ t, s.step single a = .ok t ∧ Inv t := by
  cases a with
  | bind addr ok => exact ⟨_, rfl, h.bind addr ok⟩
  | connect addr toAll rejects hwm0 hwm1 => exact h.connect single addr toAll rejects hwm0 hwm1 hgood
  | processBind hwm0 hwm1 => exact ⟨_, rfl, h.newPair hwm0 hwm1 none⟩
  | termEndpoint addr =>
    obtain ⟨b, t, heq, ht⟩ := h.termEndpoint addr
    refine ⟨t, ?_, ht⟩
    simp only [Endpoints.step, heq]
    rfl
  | setImmediate b =>
    exact ⟨_, rfl, ⟨h.shutdown, fun e he => ⟨(h.good e he).remote, (h.good e he).lt, (h.good e he).owned,
      (h.good e he).pipe⟩, h.inproc, h.apart, h.pipes, h.once, h.all⟩⟩
  | termReq c => exact ⟨_, rfl, h.processTermReq hgood⟩
  | destroy c =>
    simp only [Endpoints.step]
    split
    · next hmay =>
      refine ⟨_, rfl, h.setPhase fun e he hcon => ?_⟩
      have hphase := (h.good e he).owned
      rw [hcon, hmay.1] at hphase
      cases hphase
    · exact ⟨s, rfl, h⟩
  | socket p a => exact h.socket a hgood
  | peer p a => exact h.peer a

lemma new : Inv Endpoints.new where
  shutdown _ := ShutdownInv.pipepair 0 0
  good := by simp [Endpoints.new]
  inproc := by simp [Endpoints.new]
  apart := by simp [Endpoints.new]
  pipes := by simp [Endpoints.new]
  once := by simp [Endpoints.new]
  all := by simp [Endpoints.new]

lemma valid (h : Inv s) : s.Valid where
  children e he hcon := by
    rw [(h.good e he).owned] at hcon
    cases hcon
  pipes e he p hp := ((h.good e he).pipe p hp).2.2.nearFrees
  inprocs e he := (h.inproc e he).2
  once := h.once
  all c hc := (h.all c).mp hc
  can e he := h.can_disconnect he

end Inv

/-! ### The result -/

/-- **Validity of the endpoints.** In every run in which no child with an entry asks to be terminated and
pipes with an entry are terminated by `term_endpoint` only, no deallocated pipe is called, and in the end
everything the two maps refer to is there; each bind and connect is open or was disconnected once, and what
is open can be disconnected. -/
theorem endpoints_valid (single : Bool) (acts : List EndpointAct)
    (h : StepsMeet (step single) Tracked new acts) : ∃ s, run single acts = .ok s ∧ s.Valid := by
  obtain ⟨s, hrun, hs⟩ := runSteps_invariant (fun s a hs hgood => hs.step single a hgood) Inv.new h
  exact ⟨s, hrun, hs.valid⟩

/-- The address of the runs below. -/
def peerAddr : Uri := ⟨false, "tcp://127.0.0.1:5555"⟩

/-- An address of the same process. -/
def localAddr : Uri := ⟨true, "inproc://a"⟩

/-- Two connections and an inproc one; the inproc peer goes, and the two connections are
disconnected. -/
def disconnects : List EndpointAct :=
  [.connect peerAddr false false 1000 1000, .connect peerAddr false false 1000 1000,
    .connect localAddr false false 1000 1000, .peer 2 (.terminate false), .socket 2 ⟨.deliver, by decide⟩,
    .socket 2 ⟨.read, by decide⟩, .peer 2 .deliver, .socket 2 ⟨.deliver, by decide⟩,
    .termEndpoint peerAddr]

theorem endpoints_valid_disconnect :
    ∃ s, run false disconnects = .ok s ∧ (s.inprocs = [] ∧ s.disconnected = [0, 1]) ∧ s.Valid := by
  refine okAnd.exists_and (by decide +kernel) fun s hs => ?_
  obtain ⟨t, ht, hvalid⟩ := endpoints_valid false disconnects (by decide +kernel)
  rw [hs] at ht
  rw [Except.ok.inj ht]
  exact hvalid

/-- The peer of a connection violates the protocol: the session asks to be terminated, and its pipe and
then the session itself are deallocated. The entry is still there, and disconnecting the address calls the
deallocated pipe. -/
theorem endpoints_dangling :
    okAnd (run false [.connect peerAddr false false 1000 1000, .termReq 0, .peer 0 (.terminate true),
      .socket 0 ⟨.deliver, by decide⟩, .socket 0 ⟨.read, by decide⟩, .peer 0 .deliver,
      .socket 0 ⟨.deliver, by decide⟩, .destroy 0]) (fun s => s.endpoints = [⟨peerAddr, 0, some 0⟩] ∧
        s.phase 0 = .destroyed ∧ (s.links 0).near.frees = 1) ∧
    run false [.connect peerAddr false false 1000 1000, .termReq 0, .peer 0 (.terminate true),
      .socket 0 ⟨.deliver, by decide⟩, .socket 0 ⟨.read, by decide⟩, .peer 0 .deliver,
      .socket 0 ⟨.deliver, by decide⟩, .destroy 0, .termEndpoint peerAddr] = .error .deadPipe := by
  refine ⟨?_, rfl⟩
  decide +kernel

end Endpoints

end Zmq
