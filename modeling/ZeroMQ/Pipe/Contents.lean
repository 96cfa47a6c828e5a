import ZeroMQ.Pipe.Moves

/-!
# What the pipes of a link hold

`Link.Holds P` says that every frame that can still be read at one of the two ends has the property `P`.
Reading, flushing and rolling back only move frames or take them away, a hiccup puts an empty pipe in the
place of the old one, and termination adds a delimiter; so the property is kept by every act but the
writing of a frame that does not have it.
-/

namespace Zmq

open Foundation Function List Ensures

namespace Link

variable {P : Msg → Prop} {s t : Link} {i : ℕ} {u : Upipe Msg}

/-- Every frame that can still be read has the property. -/
structure Holds (P : Msg → Prop) (s : Link) : Prop where
  near : ∀ m ∈ (s.upipes s.near.pipe.inpipe).queue.items, P m
  far : ∀ m ∈ (s.upipes s.far.pipe.inpipe).queue.items, P m

instance [DecidablePred P] (s : Link) : Decidable (s.Holds P) :=
  decidable_of_iff ((∀ m ∈ (s.upipes s.near.pipe.inpipe).queue.items, P m) ∧
    ∀ m ∈ (s.upipes s.far.pipe.inpipe).queue.items, P m) ⟨fun h => ⟨h.1, h.2⟩, fun h => ⟨h.1, h.2⟩⟩

namespace Holds

lemma swap (h : Holds P s) : Holds P s.swap := ⟨h.far, h.near⟩

lemma same (h : Holds P s) (hnear : t.near.pipe.inpipe = s.near.pipe.inpipe)
    (hfar : t.far.pipe.inpipe = s.far.pipe.inpipe) (hup : t.upipes = s.upipes) : Holds P t := by
  constructor
  · rw [hnear, hup]
    exact h.near
  · rw [hfar, hup]
    exact h.far

lemma modifyPipe (h : Holds P s) {g : Pipe → Pipe} (hg : (g s.near.pipe).inpipe = s.near.pipe.inpipe) :
    Holds P (s.modifyPipe g) := h.same hg rfl rfl

lemma store (h : Holds P s) (hu : ∀ m ∈ u.items, P m ∨ m ∈ (s.upipes i).queue.items) : Holds P (s.store i u) := by
  have hcell : ∀ j, (∀ m ∈ (s.upipes j).queue.items, P m) → ∀ m ∈ ((s.store i u).upipes j).queue.items, P m := by
    intro j hj m hm
    by_cases hij : j = i
    · subst hij
      simp only [Link.store, update_self] at hm
      exact (hu m hm).elim id (hj m)
    · simp only [Link.store, update_of_ne hij] at hm
      exact hj m hm
  exact ⟨hcell _ h.near, hcell _ h.far⟩

lemma free (h : Holds P s) : Holds P (s.free i) := by
  have hcell : ∀ j, ((s.free i).upipes j).queue = (s.upipes j).queue := by
    intro j
    by_cases hij : j = i
    · subst hij
      simp [Link.free]
    · simp [Link.free, update_of_ne hij]
  constructor
  · rw [hcell]
    exact h.near
  · rw [hcell]
    exact h.far

lemma load (h : s.load i = .ok u) : (s.upipes i).queue = u := by
  unfold Link.load at h
  split at h
  · exact Except.ok.inj h
  · cases h

/-! ### Reading -/

lemma processDelimiter (h : Holds P s) : Ensures s.processDelimiter (Holds P) := by
  unfold Link.processDelimiter
  split
  · exact .ok (h.modifyPipe rfl)
  · exact .ok (h.same rfl rfl rfl)
  · exact .error _

lemma shrink (h : Holds P s) (hu : u.items ⊆ (s.upipes i).queue.items) : Holds P (s.store i u) :=
  h.store fun _ hm => .inr (hu hm)

lemma load_bind {β : Type} {f : Upipe Msg → Except PipeFault β} {Q : β → Prop}
    (hf : Ensures (f (s.upipes i).queue) Q) : Ensures (s.load i >>= f) Q := by
  refine bind (Q := fun u => (s.upipes i).queue = u) (fun u hu => load hu) ?_
  rintro u rfl
  exact hf

lemma items_subset {v : Upipe Msg} (hflushed : v.flushed ⊆ u.flushed) (hcomplete : v.complete = u.complete)
    (hincomplete : v.incomplete = u.incomplete) : v.items ⊆ u.items := by
  intro m hm
  simp only [Upipe.items, hcomplete, hincomplete, mem_append] at hm ⊢
  exact hm.imp_left fun hm => hm.imp_left fun hm => hflushed hm

lemma checkRead (h : Holds P s) : Ensures s.checkRead fun r => Holds P r.2 := by
  unfold Link.checkRead
  split
  · exact .ok h
  refine load_bind ?_
  cases hq : (s.upipes s.near.pipe.inpipe).queue.flushed with
  | nil =>
    rw [Upipe.checkRead_of_nil hq]
    have hstored := h.shrink (i := s.near.pipe.inpipe)
      (u := { (s.upipes s.near.pipe.inpipe).queue with asleep := true })
      (items_subset (by simp) rfl rfl)
    refine .ok ?_
    exact hstored.same rfl rfl rfl
  | cons m ms =>
    rw [Upipe.checkRead_of_cons hq]
    simp only [hq, head?_cons, Upipe.read_of_cons hq]
    split
    · refine bind (processDelimiter (h.shrink ?_)) fun t ht => .ok ht
      exact items_subset (by simp [hq]) rfl rfl
    · exact .ok (h.shrink fun _ hm => hm)

lemma countRead (h : Holds P s) (m : Msg) : Holds P (s.countRead m) := by
  unfold Link.countRead
  split <;> simp only <;> split <;> exact h.same rfl rfl rfl

lemma read (h : Holds P s) : Ensures s.read fun r => Holds P r.2 ∧ ∀ m ∈ r.1, P m := by
  unfold Link.read
  split
  · exact .ok ⟨h, by simp⟩
  refine load_bind ?_
  obtain ⟨creds, hcreds, -⟩ := skipCredentials_spec s.near.pipe.credential
    (s.upipes s.near.pipe.inpipe).queue.flushed
  cases hskip : skipCredentials s.near.pipe.credential (s.upipes s.near.pipe.inpipe).queue.flushed with
  | mk credential rest =>
    rw [hskip] at hcreds
    have hmod : Holds P (s.modifyPipe fun p => { p with credential := credential }) := h.modifyPipe rfl
    simp only
    cases rest with
    | nil =>
      have hstored := hmod.shrink (i := s.near.pipe.inpipe)
        (u := { (s.upipes s.near.pipe.inpipe).queue with flushed := [], asleep := true })
        (items_subset (by simp) rfl rfl)
      refine .ok ⟨?_, by simp⟩
      exact hstored.same rfl rfl rfl
    | cons m ms =>
      have hsub : ms ⊆ (s.upipes s.near.pipe.inpipe).queue.flushed := by
        rw [hcreds]
        intro x hx
        simp [hx]
      have hm : P m := by
        refine h.near m ?_
        simp [Upipe.items, hcreds]
      have hstored := hmod.shrink (i := s.near.pipe.inpipe)
        (u := { (s.upipes s.near.pipe.inpipe).queue with flushed := ms }) (items_subset hsub rfl rfl)
      simp only [Upipe.read]
      split
      · refine bind (processDelimiter hstored) fun t ht => .ok ⟨ht, by simp⟩
      · exact .ok ⟨hstored.countRead m, by simpa using hm⟩

/-! ### Writing -/

lemma checkWrite (h : Holds P s) : Holds P s.checkWrite.2 := by
  unfold Link.checkWrite
  split
  · exact h
  · split
    · exact h.same rfl rfl rfl
    · exact h

lemma write (h : Holds P s) {m : Msg} (hm : P m) : Ensures (s.write m) fun r => Holds P r.2 := by
  have hcheck := h.checkWrite
  unfold Link.write
  split
  · next heq =>
    rw [heq] at hcheck
    exact .ok hcheck
  · next t heq =>
    rw [heq] at hcheck
    split
    · exact .error _
    next i hi =>
    refine load_bind ?_
    have hstored : Holds P (t.store i ((t.upipes i).queue.write m m.more)) := by
      refine Holds.store hcheck fun x hx => ?_
      rw [Upipe.items_write, mem_append, mem_singleton] at hx
      exact hx.elim .inr fun hx => .inl (hx ▸ hm)
    split
    · refine .ok ?_
      exact hstored.same rfl rfl rfl
    · exact .ok hstored

lemma rollback (h : Holds P s) : Ensures s.rollback (Holds P) := by
  unfold Link.rollback
  split
  · exact .ok h
  refine load_bind ?_
  split
  · refine .ok (h.shrink ?_)
    intro m hm
    simp only [Upipe.items, append_nil, mem_append] at hm ⊢
    exact .inl hm
  · exact .error _

lemma flush (h : Holds P s) : Ensures s.flush (Holds P) := by
  unfold Link.flush
  split
  · exact .ok h
  split
  · exact .ok h
  · next i hi =>
    refine load_bind ?_
    have hstored : Holds P (s.store i (s.upipes i).queue.flush.2) := by
      refine h.shrink ?_
      rw [Upipe.items_flush]
      exact fun _ hm => hm
    split
    · exact .ok hstored
    · exact .ok (hstored.same rfl rfl rfl)

lemma stopOutbound (h : Holds P s) (hdelim : P Msg.initDelimiter) : Ensures s.stopOutbound (Holds P) := by
  have hmod : Holds P (s.modifyPipe fun p => { p with outActive := false }) := h.modifyPipe rfl
  unfold Link.stopOutbound
  simp only
  split
  · exact .ok hmod
  refine bind hmod.rollback fun t ht => load_bind ?_
  refine (ht.store fun x hx => ?_).flush
  rw [Upipe.items_write, mem_append, mem_singleton] at hx
  exact hx.elim .inr fun hx => .inl (hx ▸ hdelim)

lemma terminate (h : Holds P s) (hdelim : P Msg.initDelimiter) (delay : Bool) :
    Ensures (s.terminate delay) (Holds P) := by
  have hmark : Holds P (s.markTerminate delay) := h.same rfl rfl rfl
  have hterm : ∀ t : Link, Holds P t →
      Ensures (t.sendPipeTerm.modifyPipe fun p => { p with state := .termReqSent1 }).stopOutbound (Holds P) := by
    intro t ht
    exact stopOutbound (ht.same rfl rfl rfl) hdelim
  unfold Link.terminate
  simp only
  split
  · exact .ok hmark
  · exact .ok hmark
  · exact .ok hmark
  · exact hterm _ hmark
  · split
    · exact stopOutbound (hmark.same rfl rfl rfl) hdelim
    · exact stopOutbound hmark hdelim
  · exact hterm _ hmark

lemma hiccup (h : Holds P s) : Holds P s.hiccup := by
  unfold Link.hiccup
  split
  · exact h
  constructor
  · simp [Upipe.items, Upipe.empty]
  · intro m hm
    simp only [send_far, modifyPipe_far, send_upipes, modifyPipe_upipes] at hm
    by_cases hfresh : s.far.pipe.inpipe = s.fresh
    · rw [hfresh, update_self] at hm
      simp [Upipe.items, Upipe.empty] at hm
    · rw [update_of_ne hfresh] at hm
      exact h.far m hm

/-! ### Commands -/

lemma notify (h : Holds P s) (e : SinkEvent) : Ensures (s.notify e) fun r => Holds P r.1 := by
  unfold Link.notify
  split
  · exact .ok h
  · exact .error _

lemma drain (h : Holds P s) {v : Upipe Msg} (hcomplete : v.complete ⊆ (s.upipes i).queue.items)
    (hincomplete : v.incomplete ⊆ (s.upipes i).queue.items) :
    Holds P ((s.store i { v with flushed := [], asleep := true }).free i) := by
  refine (h.shrink fun m hm => ?_).free
  simp only [Upipe.items, nil_append, mem_append] at hm
  exact hm.elim (fun hm => hcomplete hm) fun hm => hincomplete hm

lemma processCommand (h : Holds P s) (c : Command) : Ensures (s.processCommand c) fun r => Holds P r.1 := by
  cases c with
  | activateRead =>
    simp only [Link.processCommand, Link.processActivateRead]
    split
    · exact notify (h.modifyPipe rfl) _
    · exact .ok h
  | activateWrite n =>
    simp only [Link.processCommand, Link.processActivateWrite]
    have hmod : Holds P (s.modifyPipe fun p => { p with peersMsgsRead := n }) := h.modifyPipe rfl
    split
    · exact notify (hmod.modifyPipe rfl) _
    · exact .ok hmod
  | hiccup p =>
    simp only [Link.processCommand, Link.processHiccup]
    split
    · exact .error _
    next i hi =>
    refine load_bind ?_
    have hdrained := h.drain (i := i) (v := (s.upipes i).queue.flush.2)
      (by rw [← Upipe.items_flush]; intro m hm; simp [Upipe.items, hm])
      (by rw [← Upipe.items_flush]; intro m hm; simp [Upipe.items, hm])
    split
    · exact .error _
    next j =>
    have hmod := hdrained.modifyPipe (g := fun p => { p with outpipe := some j, outActive := true }) rfl
    split
    · exact notify hmod _
    · exact .ok hmod
  | pipeTerm =>
    simp only [Link.processCommand]
    refine bind (Q := Holds P) ?_ fun t ht => .ok ht
    unfold Link.processPipeTerm
    split
    · split
      · exact .ok (h.modifyPipe rfl)
      · exact .ok (h.same rfl rfl rfl)
    · exact .ok (h.same rfl rfl rfl)
    · exact .ok (h.same rfl rfl rfl)
    · exact .error _
  | pipeTermAck =>
    simp only [Link.processCommand, Link.processPipeTermAck]
    have hdealloc : ∀ t : Link, Holds P t → Ensures (t.deallocate >>= fun t' =>
        (pure (t', some SinkEvent.pipeTerminated) : Except PipeFault _)) fun r => Holds P r.1 := by
      intro t ht
      refine bind (Q := Holds P) ?_ fun t' ht' => .ok ht'
      unfold Link.deallocate
      refine load_bind ?_
      refine .ok ((ht.drain (v := (t.upipes t.near.pipe.inpipe).queue) ?_ ?_).same rfl rfl rfl)
      · intro m hm
        simp [Upipe.items, hm]
      · intro m hm
        simp [Upipe.items, hm]
    split
    · exact .error _
    split
    · exact hdealloc _ (h.same rfl rfl rfl)
    · exact hdealloc _ h
    · exact hdealloc _ h
    · exact .error _

lemma deliver (h : Holds P s) : Ensures s.deliver fun r => Holds P r.1 := by
  unfold Link.deliver
  split
  · exact .ok h
  next c cs _ =>
  have hpop : Holds P { s with near := { s.near with inbox := cs } } := h.same rfl rfl rfl
  split
  · exact hpop.processCommand c
  · exact .error _

/-- **Every act keeps the property**, if what it writes has it. -/
theorem act (h : Holds P s) (hdelim : P Msg.initDelimiter) {a : EndAct}
    (ha : ∀ flags body, a = .write flags body → P ⟨.data, flags, body⟩) :
    Ensures (s.act a) fun r => Holds P r.1 := by
  have hcall : ∀ r : Except PipeFault Link, Ensures r (Holds P) → Ensures (s.call r) fun r => Holds P r.1 := by
    intro r hr
    unfold Link.call
    split
    · exact map (g := (·, none)) hr
    · exact .ok h
  cases a with
  | deliver => exact h.deliver
  | terminate delay => exact hcall _ (h.terminate hdelim delay)
  | setNodelay => exact hcall _ (.ok (h.modifyPipe rfl))
  | checkRead => exact hcall _ h.checkRead.map
  | read => exact hcall _ (h.read.mono fun _ hr => hr.1).map
  | checkWrite => exact hcall _ (.ok h.checkWrite)
  | write flags body => exact hcall _ (h.write (ha flags body rfl)).map
  | rollback => exact hcall _ h.rollback
  | flush => exact hcall _ h.flush
  | hiccup => exact hcall _ (.ok h.hiccup)

end Holds

/-! ### Deallocation -/

/-- Neither end was deallocated. -/
structure Lives (s t : Link) : Prop where
  near : t.near.frees = s.near.frees
  far : t.far.frees = s.far.frees

namespace Lives

lemma refl (s : Link) : Lives s s := ⟨rfl, rfl⟩

lemma trans {u : Link} (h : Lives s t) (h' : Lives t u) : Lives s u := ⟨h'.near.trans h.near, h'.far.trans h.far⟩

lemma load_bind {β : Type} {f : Upipe Msg → Except PipeFault β} {Q : β → Prop}
    (hf : ∀ u, Ensures (f u) Q) : Ensures (s.load i >>= f) Q :=
  bind (Q := fun _ => True) (fun _ _ => trivial) fun u _ => hf u

lemma processDelimiter (s : Link) : Ensures s.processDelimiter (Lives s) := by
  unfold Link.processDelimiter
  split
  · exact .ok ⟨rfl, rfl⟩
  · exact .ok ⟨rfl, rfl⟩
  · exact .error _

lemma countRead (s : Link) (m : Msg) : Lives s (s.countRead m) := by
  unfold Link.countRead
  split <;> simp only <;> split <;> exact ⟨rfl, rfl⟩

lemma checkRead (s : Link) : Ensures s.checkRead fun r => Lives s r.2 := by
  unfold Link.checkRead
  split
  · exact .ok (.refl s)
  refine load_bind fun u => ?_
  split
  · exact .ok ⟨rfl, rfl⟩
  split
  · exact .error _
  · split
    · split
      · exact .error _
      · refine bind (processDelimiter _) fun t ht => .ok ?_
        exact ⟨ht.near, ht.far⟩
    · exact .ok ⟨rfl, rfl⟩

lemma read (s : Link) : Ensures s.read fun r => Lives s r.2 := by
  unfold Link.read
  split
  · exact .ok (.refl s)
  refine load_bind fun u => ?_
  cases hskip : skipCredentials s.near.pipe.credential u.flushed with
  | mk credential rest =>
    simp only
    split
    · exact .ok ⟨rfl, rfl⟩
    split
    · refine bind (processDelimiter _) fun t ht => .ok ?_
      exact ⟨ht.near, ht.far⟩
    · refine .ok ?_
      exact ⟨(countRead _ _).near, (countRead _ _).far⟩

lemma checkWrite (s : Link) : Lives s s.checkWrite.2 := by
  unfold Link.checkWrite
  split
  · exact .refl s
  · split
    · exact ⟨rfl, rfl⟩
    · exact .refl s

lemma write (s : Link) (m : Msg) : Ensures (s.write m) fun r => Lives s r.2 := by
  have hcheck := checkWrite s
  unfold Link.write
  split
  · next heq =>
    rw [heq] at hcheck
    exact .ok hcheck
  · next t heq =>
    rw [heq] at hcheck
    split
    · exact .error _
    refine load_bind fun u => ?_
    split
    · refine .ok ?_
      exact hcheck.trans ⟨rfl, rfl⟩
    · refine .ok ?_
      exact hcheck.trans ⟨rfl, rfl⟩

lemma rollback (s : Link) : Ensures s.rollback (Lives s) := by
  unfold Link.rollback
  split
  · exact .ok (.refl s)
  refine load_bind fun u => ?_
  split
  · exact .ok ⟨rfl, rfl⟩
  · exact .error _

lemma flush (s : Link) : Ensures s.flush (Lives s) := by
  unfold Link.flush
  split
  · exact .ok (.refl s)
  split
  · exact .ok (.refl s)
  · refine load_bind fun u => ?_
    split
    · exact .ok ⟨rfl, rfl⟩
    · exact .ok ⟨rfl, rfl⟩

lemma stopOutbound (s : Link) : Ensures s.stopOutbound (Lives s) := by
  have hmod : Lives s (s.modifyPipe fun p => { p with outActive := false }) := ⟨rfl, rfl⟩
  unfold Link.stopOutbound
  simp only
  split
  · exact .ok hmod
  · refine bind (rollback _) fun t ht => load_bind fun u => ?_
    refine (flush _).mono fun v hv => ?_
    exact (hmod.trans ht).trans ⟨hv.near, hv.far⟩

lemma terminate (s : Link) (delay : Bool) : Ensures (s.terminate delay) (Lives s) := by
  have hstop : ∀ t : Link, Lives s t → Ensures t.stopOutbound (Lives s) :=
    fun t ht => (stopOutbound t).mono fun _ hu => ht.trans hu
  unfold Link.terminate
  simp only
  split
  · exact .ok ⟨rfl, rfl⟩
  · exact .ok ⟨rfl, rfl⟩
  · exact .ok ⟨rfl, rfl⟩
  · exact hstop _ ⟨rfl, rfl⟩
  · split
    · exact hstop _ ⟨rfl, rfl⟩
    · exact hstop _ ⟨rfl, rfl⟩
  · exact hstop _ ⟨rfl, rfl⟩

lemma hiccup (s : Link) : Lives s s.hiccup := by
  unfold Link.hiccup
  split
  · exact .refl s
  · exact ⟨rfl, rfl⟩

end Lives

/-- What an act means for the two objects: the near end is deallocated exactly with the event that says
so, and the far end is not. -/
structure Ends (s t : Link) (e : Option SinkEvent) : Prop where
  gone : e = some .pipeTerminated → s.near.frees = 0 ∧ t.near.frees ≠ 0
  stays : e ≠ some .pipeTerminated → t.near.frees = s.near.frees
  far : t.far.frees = s.far.frees

lemma Lives.ends (h : Lives s t) {e : Option SinkEvent} (he : e ≠ some .pipeTerminated) : Ends s t e :=
  ⟨fun h => absurd h he, fun _ => h.near, h.far⟩

lemma Lives.silent (h : Lives s t) : Ends s t none := h.ends fun heq => (by cases heq)

lemma Ends.notify (h : Lives s t) (e : SinkEvent) (he : e ≠ .pipeTerminated) :
    Ensures (t.notify e) fun r => Ends s r.1 r.2 := by
  unfold Link.notify
  split
  · exact .ok (h.ends fun heq => he (Option.some.inj heq))
  · exact .error _

lemma Ends.processCommand (halive : s.near.frees = 0) (c : Command) :
    Ensures (s.processCommand c) fun r => Ends s r.1 r.2 := by
  cases c with
  | activateRead =>
    simp only [Link.processCommand, processActivateRead]
    split
    · refine Ends.notify ?_ .readActivated (by decide)
      exact ⟨rfl, rfl⟩
    · exact .ok (Lives.refl s).silent
  | activateWrite n =>
    simp only [Link.processCommand, processActivateWrite]
    split
    · refine Ends.notify ?_ .writeActivated (by decide)
      exact ⟨rfl, rfl⟩
    · exact .ok (Lives.silent ⟨rfl, rfl⟩)
  | hiccup p =>
    simp only [Link.processCommand, processHiccup]
    split
    · exact .error _
    refine Lives.load_bind fun u => ?_
    split
    · exact .error _
    split
    · refine Ends.notify ?_ .hiccuped (by decide)
      exact ⟨rfl, rfl⟩
    · exact .ok (Lives.silent ⟨rfl, rfl⟩)
  | pipeTerm =>
    simp only [Link.processCommand]
    refine bind (Q := Lives s) ?_ fun t ht => .ok ht.silent
    unfold processPipeTerm
    split
    · split
      · exact .ok ⟨rfl, rfl⟩
      · exact .ok ⟨rfl, rfl⟩
    · exact .ok ⟨rfl, rfl⟩
    · exact .ok ⟨rfl, rfl⟩
    · exact .error _
  | pipeTermAck =>
    simp only [Link.processCommand, processPipeTermAck]
    have hdealloc : ∀ t : Link, Lives s t → Ensures (t.deallocate >>= fun t' =>
        (pure (t', some SinkEvent.pipeTerminated) : Except PipeFault _)) fun r => Ends s r.1 r.2 := by
      intro t ht
      refine bind (Q := fun t' => t'.near.frees = t.near.frees + 1 ∧ t'.far.frees = t.far.frees)
        ?_ fun t' ht' => .ok ?_
      · unfold deallocate
        exact Lives.load_bind fun u => .ok ⟨rfl, rfl⟩
      · refine ⟨fun _ => ⟨halive, ?_⟩, fun hne => absurd rfl hne, ht'.2.trans ht.far⟩
        rw [ht'.1]
        exact Nat.succ_ne_zero _
    split
    · exact .error _
    split
    · exact hdealloc _ ⟨rfl, rfl⟩
    · exact hdealloc _ (.refl s)
    · exact hdealloc _ (.refl s)
    · exact .error _

lemma Ends.act (s : Link) (a : EndAct) : Ensures (s.act a) fun r => Ends s r.1 r.2 := by
  have hcall : ∀ r : Except PipeFault Link, Ensures r (Lives s) → Ensures (s.call r) fun r => Ends s r.1 r.2 := by
    intro r hr
    unfold Link.call
    split
    · exact map (g := (·, none)) (hr.mono fun t ht => ht.silent)
    · exact .ok (Lives.refl s).silent
  cases a with
  | deliver =>
    unfold Link.act Link.deliver
    simp only
    split
    · exact .ok (Lives.refl s).silent
    next c cs _ =>
    split
    · next halive =>
      refine (Ends.processCommand (s := { s with near := { s.near with inbox := cs } }) halive c).mono ?_
      intro r hr
      exact { hr with }
    · exact .error _
  | terminate delay => exact hcall _ (Lives.terminate s delay)
  | setNodelay => exact hcall _ (.ok ⟨rfl, rfl⟩)
  | checkRead => exact hcall _ (Lives.checkRead s).map
  | read => exact hcall _ (Lives.read s).map
  | checkWrite => exact hcall _ (.ok (Lives.checkWrite s))
  | write flags body => exact hcall _ (Lives.write s _).map
  | rollback => exact hcall _ (Lives.rollback s)
  | flush => exact hcall _ (Lives.flush s)
  | hiccup => exact hcall _ (.ok (Lives.hiccup s))

end Link

end Zmq
