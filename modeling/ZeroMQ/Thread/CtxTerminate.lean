import ZeroMQ.Thread.CtxSlots

/-!
# Termination of a context

`terminate` makes a temporary socket for each connection that waits for a bind, and uses it without a look at whether
it was created. It is created unless the context is being terminated already, by `shutdown` or because a signal has
interrupted an earlier call, or all slots are taken, or the process has no descriptors. If it is created, and nobody
sends it `stop` before it has bound its address, the connections to this address are made.

So a run goes well if `terminate` finds a slot for each of its sockets in a context that is not being terminated, and
nobody makes a connection behind its back that it does not come to any more.
-/

namespace Zmq

open Foundation Function List Option Except

variable {A : Type}

/-- The addresses `terminate` has still to come to, if it is under way. -/
def Termination.rest : Termination A → Option (List A)
  | .idle => none
  | .flushing rest => some rest
  | .created _ addr rest => some (addr :: rest)
  | .bound _ rest => some rest
  | .waiting | .deleted => some []

namespace Ctx

variable [DecidableEq A] {lim : PollerLimit} {s s' : Ctx A} {a : Act A} {sid : ℕ}

/-! ### The invariant -/

/-- What holds in every state of a context. -/
structure Valid (s : Ctx A) : Prop where
  slots : s.toCtxSlots.Valid
  inproc : s.toCtxInproc.Valid s.sockets
  /-- Before the first socket there is nothing to terminate. -/
  asleep : s.starting = true → s.terminating = false ∧ s.pendingConnections = [] ∧
    ∀ l, s.termination.rest = some l → l = []
  /-- A context that is being terminated has told its sockets. -/
  obeyed : s.terminating = true → ∀ sid ∈ s.sockets, (s.socket sid).stopped = true
  /-- The reaper is told to stop once, when there are no sockets any more. -/
  stops : s.reaperStops = if s.terminating = true ∧ s.sockets = [] then 1 else 0
  waits : s.termination = .waiting → s.terminating = true
  temporary : ∀ sid, s.temporary = some sid → sid ∈ s.sockets ∧ (s.socket sid).closed = false

lemma valid_new : (new lim : Ctx A).Valid where
  slots :=
    { partition := .refl _
      owner := fun _ h => absurd h not_mem_nil
      free := fun _ h => absurd h not_mem_nil
      known := fun _ h => absurd h not_mem_nil
      asleep := fun _ => rfl }
  inproc :=
    { bound := fun _ h => absurd h not_mem_nil
      settled := fun _ h => absurd h not_mem_nil
      reaped := fun _ h => absurd h not_mem_nil }
  asleep _ := ⟨rfl, rfl, fun _ h => (by cases h)⟩
  obeyed h := by cases h
  stops := rfl
  waits h := by cases h
  temporary _ h := by cases h

omit [DecidableEq A] in
lemma set_eq {option : CtxOption} {optval : ℤ} (hok : s.set lim option optval = .ok s') :
    ∃ m n b p q, s' = { s with
      maxSockets := m, ioThreadCount := n, ipv6 := b, threadPriority := p, threadSchedPolicy := q } := by
  unfold Ctx.set at hok
  repeat' split at hok
  all_goals first
    | exact ⟨_, _, _, _, _, (ok.inj hok).symm⟩
    | cases hok

namespace Valid

lemma set (h : s.Valid) {option : CtxOption} {optval : ℤ} (hok : s.set lim option optval = .ok s') :
    s'.Valid := by
  obtain ⟨m, n, b, p, q, rfl⟩ := set_eq hok
  exact { h with }

lemma onInproc (h : s.Valid) (hsid : sid ∈ s.sockets) {i : CtxInproc A} (hi : i.Valid s.sockets)
    (hkeeps : s.toCtxInproc.Keeps i) : { s with toCtxInproc := i }.Valid where
  slots := h.slots
  inproc := hi
  asleep hs := absurd (h.slots.asleep hs ▸ hsid) not_mem_nil
  obeyed hterm sid hsid := (hkeeps sid).2.trans (h.obeyed hterm sid hsid)
  stops := h.stops
  waits := h.waits
  temporary sid htemp := by
    obtain ⟨hmem, hopen⟩ := h.temporary sid htemp
    exact ⟨hmem, (hkeeps sid).1.trans hopen⟩

lemma setTermination (h : s.Valid) {t : Termination A}
    (hasleep : s.starting = true → ∀ l, t.rest = some l → l = [])
    (hwaits : t = .waiting → s.terminating = true)
    (htemp : ∀ sid, { s with termination := t }.temporary = some sid →
      sid ∈ s.sockets ∧ (s.socket sid).closed = false) : { s with termination := t }.Valid :=
  ⟨h.slots, h.inproc, fun hs => ⟨(h.asleep hs).1, (h.asleep hs).2.1, hasleep hs⟩, h.obeyed, h.stops, hwaits, htemp⟩

/-! ### Sockets -/

omit [DecidableEq A] in
lemma wake_eq (hok : s.wake = .ok s') (h : s.toCtxSlots.Valid) : s' = { s with toCtxSlots := s'.toCtxSlots } ∧
    s'.toCtxSlots.Valid ∧ s'.sockets = s.sockets ∧ s'.tid = s.tid ∧ s'.starting = false := by
  unfold Ctx.wake at hok
  split at hok
  next hstarting =>
    split at hok
    next slots hslots =>
      rw [← ok.inj hok]
      refine ⟨rfl, h.start hstarting hslots, ?_⟩
      unfold CtxSlots.start at hslots
      split at hslots
      next =>
        rw [← ok.inj hslots]
        exact ⟨rfl, rfl, rfl⟩
      next => cases hslots
    next => cases hok
  next hstarting =>
    rw [← ok.inj hok]
    exact ⟨rfl, h, rfl, rfl, eq_false_of_ne_true hstarting⟩

lemma onSlots (h : s.Valid) {slots : CtxSlots} (hslots : slots.Valid) (hsockets : slots.sockets = s.sockets)
    (hstarting : slots.starting = false) : { s with toCtxSlots := slots }.Valid where
  slots := hslots
  inproc := hsockets ▸ h.inproc
  asleep hs := absurd (hstarting.symm.trans hs) (by decide)
  obeyed hterm sid hsid := h.obeyed hterm sid (hsockets ▸ hsid)
  stops := by
    rw [hsockets]
    exact h.stops
  waits := h.waits
  temporary sid htemp := hsockets ▸ h.temporary sid htemp

end Valid

/-- What `create_socket` does when the threads run. -/
inductive CreateOutcome (s : Ctx A) (type : Option SocketType) (fd : MailboxFd) :
    Ctx A → Except CtxErrno ℕ → Prop
  | terminating : s.terminating = true → CreateOutcome s type fd s (.error .eterm)
  | full : s.terminating = false → s.emptySlots = [] → CreateOutcome s type fd s (.error .emfile)
  | refused (e : CtxErrno) : s.terminating = false → s.emptySlots ≠ [] → createSocketBase type fd = .error e →
      CreateOutcome s type fd { s with maxSocketId := s.maxSocketId + 1 } (.error e)
  | created (slot : ℕ) (rest : List ℕ) (t : SocketType) : s.terminating = false → s.emptySlots = slot :: rest →
      createSocketBase type fd = .ok t →
      CreateOutcome s type fd { s with
        toCtxSlots := s.take slot rest (s.maxSocketId + 1)
        socket := update s.socket (s.maxSocketId + 1) (.new t) } (.ok (s.maxSocketId + 1))

section Create

variable {type : Option SocketType} {fd : MailboxFd} {r : Except CtxErrno ℕ}

omit [DecidableEq A] in
lemma createSocket_cases (hok : s.createSocket type fd = .ok (s', r)) :
    ∃ s1, s.wake = .ok s1 ∧ s1.CreateOutcome type fd s' r := by
  unfold Ctx.createSocket at hok
  split at hok
  next => cases hok
  next s1 hwake =>
    refine ⟨s1, hwake, ?_⟩
    split at hok
    next hterm =>
      obtain ⟨rfl, rfl⟩ := Prod.mk.inj (ok.inj hok)
      exact .terminating hterm
    next hterm =>
      have hterm := eq_false_of_ne_true hterm
      split at hok
      next hnil =>
        obtain ⟨rfl, rfl⟩ := Prod.mk.inj (ok.inj hok)
        exact .full hterm hnil
      next slot rest hcons =>
        split at hok
        next e he =>
          obtain ⟨rfl, rfl⟩ := Prod.mk.inj (ok.inj hok)
          exact .refused e hterm (by simp [hcons]) he
        next t ht =>
          obtain ⟨rfl, rfl⟩ := Prod.mk.inj (ok.inj hok)
          exact .created slot rest t hterm hcons ht

lemma CreateOutcome.valid (h : s.Valid) (hstarting : s.starting = false) (hout : s.CreateOutcome type fd s' r) :
    s'.Valid := by
  cases hout with
  | terminating | full => exact h
  | refused => exact h.onSlots h.slots.skip rfl hstarting
  | created slot rest t hterm hempty =>
    have hfresh := h.slots.succ_notMem
    constructor
    · exact h.slots.take hstarting hempty
    · exact h.inproc.create hfresh t
    · exact fun hs => absurd (hstarting.symm.trans hs) (by decide)
    · exact fun hs => absurd (hterm.symm.trans hs) (by decide)
    · have hstops := h.stops
      rw [if_neg fun hboth => absurd (hterm.symm.trans hboth.1) (by decide)] at hstops
      exact hstops.trans (if_neg fun hboth => absurd (hterm.symm.trans hboth.1) (by decide)).symm
    · exact h.waits
    · intro sid htemp
      obtain ⟨hmem, hopen⟩ := h.temporary sid htemp
      refine ⟨mem_append_left _ hmem, ?_⟩
      have hne : sid ≠ s.maxSocketId + 1 := fun heq => hfresh (heq ▸ hmem)
      change (update s.socket _ _ sid).closed = false
      rw [update_of_ne hne]
      exact hopen

lemma Valid.wake (h : s.Valid) (hok : s.wake = .ok s') : s'.Valid ∧ s'.starting = false := by
  obtain ⟨heq, hslots, hsockets, -, hstarting⟩ := wake_eq hok h.slots
  refine ⟨?_, hstarting⟩
  rw [heq]
  exact h.onSlots hslots hsockets hstarting

lemma Valid.createSocket (h : s.Valid) (hok : s.createSocket type fd = .ok (s', r)) : s'.Valid := by
  obtain ⟨s1, hwake, hout⟩ := createSocket_cases hok
  obtain ⟨hvalid, hstarting⟩ := h.wake hwake
  exact hout.valid hvalid hstarting

end Create

namespace Valid

lemma destroySocket (h : s.Valid) (hsid : sid ∈ s.sockets) (hreaped : (s.socket sid).reaped = true) :
    (s.destroySocket sid).Valid := by
  have hzero : s.reaperStops = 0 := by
    rw [h.stops, if_neg]
    rintro ⟨-, hnil⟩
    rw [hnil] at hsid
    exact not_mem_nil hsid
  have hasleep : s.starting ≠ true := by
    intro hs
    rw [h.slots.asleep hs] at hsid
    exact not_mem_nil hsid
  have hrest : ∀ n, (n = if s.terminating = true ∧ s.sockets.erase sid = [] then 1 else 0) →
      { s with toCtxSlots := s.release sid, reaperStops := n }.Valid := by
    intro n hn
    constructor
    · exact h.slots.release hsid
    · exact h.inproc.destroy hreaped
    · exact fun hs => absurd hs hasleep
    · exact fun hterm sid' hsid' => h.obeyed hterm sid' (mem_of_mem_erase hsid')
    · exact hn
    · exact h.waits
    · intro sid' htemp
      obtain ⟨hmem, hopen⟩ := h.temporary sid' htemp
      refine ⟨(mem_erase_of_ne ?_).mpr hmem, hopen⟩
      rintro rfl
      exact absurd (hopen.symm.trans (h.inproc.reaped sid' hmem hreaped)) (by decide)
  unfold Ctx.destroySocket
  dsimp only
  split
  next hlast =>
    refine hrest _ ?_
    rw [hzero]
    exact (if_pos hlast).symm
  next hnot =>
    refine hrest _ ?_
    rw [hzero]
    exact (if_neg hnot).symm

lemma stopSockets (h : s.Valid) (hstarting : s.starting = false) (hterm : s.terminating = false) :
    { s with terminating := true }.stopSockets.Valid := by
  have hzero : s.reaperStops = 0 := by
    rw [h.stops, if_neg fun hboth => absurd (hterm.symm.trans hboth.1) (by decide)]
  have hsocket : ∀ sid ∈ s.sockets,
      (if sid ∈ s.sockets then { s.socket sid with stopped := true } else s.socket sid) =
        { s.socket sid with stopped := true } := fun sid hsid => if_pos hsid
  have hrest : ∀ n, (n = if s.sockets = [] then 1 else 0) →
      { s with
        terminating := true
        socket := fun sid => if sid ∈ s.sockets then { s.socket sid with stopped := true } else s.socket sid
        reaperStops := n }.Valid := by
    intro n hn
    constructor
    · exact h.slots
    · constructor
      · intro e he
        obtain ⟨hmem, hbound⟩ := h.inproc.bound e he
        refine ⟨hmem, ?_⟩
        simp only [hsocket _ hmem]
        exact hbound
      · exact h.inproc.settled
      · intro sid hsid
        simp only [hsocket sid hsid]
        exact h.inproc.reaped sid hsid
    · exact fun hs => absurd (hstarting.symm.trans hs) (by decide)
    · intro _ sid hsid
      simp only [hsocket sid hsid]
    · simp [hn]
    · exact fun _ => rfl
    · intro sid htemp
      obtain ⟨hmem, hopen⟩ := h.temporary sid htemp
      refine ⟨hmem, ?_⟩
      simp only [hsocket sid hmem]
      exact hopen
  unfold Ctx.stopSockets
  dsimp only
  split
  next hnil => exact hrest _ (by rw [hzero, if_pos hnil])
  next hne => exact hrest _ (by rw [hzero, if_neg hne])

lemma shutdown (h : s.Valid) : s.shutdown.Valid := by
  unfold Ctx.shutdown
  split
  next hboth => exact h.stopSockets hboth.1 hboth.2
  next => exact h

/-! ### The end -/

lemma delete (h : s.Valid) (hok : s.delete = .ok s') : s'.Valid := by
  unfold Ctx.delete at hok
  split at hok
  next =>
    rw [← ok.inj hok]
    refine h.setTermination (fun _ l hl => ?_) (fun heq => (by cases heq)) fun sid htemp => (by cases htemp)
    exact (some.inj hl).symm
  next => cases hok

lemma stop (h : s.Valid) (hok : s.stop = .ok s') : s'.Valid := by
  unfold Ctx.stop at hok
  split at hok
  next => exact h.delete hok
  next hstarting =>
    have hstarting := eq_false_of_ne_true hstarting
    rw [← ok.inj hok]
    split
    next hterm =>
      have heq : { s with terminating := true } = s := by rw [← hterm]
      rw [heq]
      refine h.setTermination (fun hs => ?_) (fun _ => hterm) fun sid htemp => (by cases htemp)
      exact absurd (hstarting.symm.trans hs) (by decide)
    next hterm =>
      have hvalid := h.stopSockets hstarting (eq_false_of_ne_true hterm)
      have hkept : { s with terminating := true }.stopSockets.starting = false ∧
          { s with terminating := true }.stopSockets.terminating = true := by
        unfold Ctx.stopSockets
        dsimp only
        split <;> exact ⟨hstarting, rfl⟩
      refine hvalid.setTermination (fun hs => ?_) (fun _ => hkept.2) fun sid htemp => (by cases htemp)
      exact absurd (hkept.1.symm.trans hs) (by decide)

lemma receiveDone (h : s.Valid) {interrupted : Bool} (hok : s.receiveDone interrupted = .ok s') : s'.Valid := by
  unfold Ctx.receiveDone at hok
  split at hok
  next =>
    rw [← ok.inj hok]
    exact h.setTermination (fun _ l hl => (by cases hl)) (fun heq => (by cases heq)) fun sid htemp => (by cases htemp)
  split at hok
  next =>
    rw [← ok.inj hok]
    exact h
  next => exact h.delete hok

lemma starting_eq_false (h : s.Valid) {addr : A} {rest : List A} (hrest : s.termination.rest = some (addr :: rest)) :
    s.starting = false := by
  by_contra hne
  exact cons_ne_nil _ _ ((h.asleep (eq_true_of_ne_false hne)).2.2 _ hrest)

lemma proceed (h : s.Valid) {fd : MailboxFd} {interrupted : Bool} (hok : s.proceed fd interrupted = .ok s') :
    s'.Valid := by
  unfold Ctx.proceed at hok
  split at hok
  next =>
    rw [← ok.inj hok]
    exact h
  next =>
    rw [← ok.inj hok]
    exact h
  next => exact h.stop hok
  next addr rest hterm =>
    split at hok
    next => cases hok
    next => cases hok
    next s1 sid hcreate =>
      rw [← ok.inj hok]
      obtain ⟨s2, hwake, hout⟩ := createSocket_cases hcreate
      obtain ⟨hvalid, hstarting⟩ := h.wake hwake
      have hvalid1 := hout.valid hvalid hstarting
      cases hout with
      | created slot rest' t hrun hempty =>
        refine hvalid1.setTermination (fun hs => absurd (hstarting.symm.trans hs) (by decide))
          (fun heq => (by cases heq)) fun sid' htemp => ?_
        obtain rfl := some.inj htemp
        refine ⟨mem_append_right _ (mem_singleton_self _), ?_⟩
        change (update s2.socket _ _ _).closed = false
        rw [update_self]
        rfl
  next sid addr rest hterm =>
    have htemp : s.temporary = some sid := by rw [Ctx.temporary, hterm]
    obtain ⟨hsid, hclosed⟩ := h.temporary sid htemp
    rw [← ok.inj hok]
    have hbound := h.onInproc hsid (h.inproc.bind hsid hclosed addr interrupted) (.bind _ sid addr interrupted)
    have hstarting : s.starting = false := h.starting_eq_false (by rw [hterm]; rfl)
    refine hbound.setTermination (fun hs => absurd (hstarting.symm.trans hs) (by decide))
      (fun heq => (by cases heq)) fun sid' htemp' => ?_
    obtain rfl := some.inj htemp'
    exact hbound.temporary sid htemp
  next sid rest hterm =>
    rw [← ok.inj hok]
    have hasleep : s.starting = true → ∀ l, (Termination.flushing rest).rest = some l → l = [] := by
      intro hs l hl
      refine (h.asleep hs).2.2 l ?_
      rw [hterm]
      exact hl
    exact
      { slots := h.slots
        inproc := h.inproc.close sid
        asleep := fun hs => ⟨(h.asleep hs).1, (h.asleep hs).2.1, hasleep hs⟩
        obeyed := fun hs sid' hsid' => (CtxInproc.close_stopped _ sid sid').trans (h.obeyed hs sid' hsid')
        stops := h.stops
        waits := fun heq => (by cases heq)
        temporary := fun _ htemp => (by cases htemp) }
  next => exact h.receiveDone hok

lemma close (h : s.Valid) (huse : s.Usable sid) : { s with toCtxInproc := s.close sid }.Valid where
  slots := h.slots
  inproc := h.inproc.close sid
  asleep := h.asleep
  obeyed hs sid' hsid' := (CtxInproc.close_stopped _ sid sid').trans (h.obeyed hs sid' hsid')
  stops := h.stops
  waits := h.waits
  temporary sid' htemp := by
    obtain ⟨hmem, hopen⟩ := h.temporary sid' htemp
    refine ⟨hmem, ?_⟩
    have hne : sid' ≠ sid := by
      rintro rfl
      exact huse.2.2 htemp
    rw [CtxInproc.close_of_ne _ hne]
    exact hopen

lemma terminate (h : s.Valid) :
    { s with termination := .flushing (s.pendingConnections.map Prod.fst) }.Valid := by
  refine h.setTermination (fun hs l hl => ?_) (fun heq => (by cases heq)) fun sid htemp => (by cases htemp)
  rw [(h.asleep hs).2.1] at hl
  exact (some.inj hl).symm

/-- **Every step keeps the slots and the endpoints in order.** -/
theorem step (h : s.Valid) (hok : s.step lim a = .ok s') : s'.Valid := by
  unfold Ctx.step at hok
  split at hok
  next =>
    rw [← ok.inj hok]
    exact h
  next =>
  cases a with
  | set option optval =>
    dsimp only at hok
    split at hok
    next hset =>
      rw [← ok.inj hok]
      exact h.set hset
    rw [← ok.inj hok]
    exact h
  | createSocket type fd =>
    dsimp only at hok
    split at hok
    next hcreate =>
      rw [← ok.inj hok]
      exact h.createSocket hcreate
    next => cases hok
  | bind sid addr interrupted =>
    rw [← ok.inj hok]
    split
    next huse => exact h.onInproc huse.1 (h.inproc.bind huse.1 huse.2.1 addr interrupted) (.bind _ sid addr interrupted)
    next => exact h
  | unbind sid addr =>
    rw [← ok.inj hok]
    split
    next huse => exact h.onInproc huse.1 (h.inproc.unregisterEndpoint addr sid) (.unregisterEndpoint _ addr sid)
    next => exact h
  | connect sid addr interrupted =>
    rw [← ok.inj hok]
    split
    next huse => exact h.onInproc huse.1 (h.inproc.connect sid addr interrupted) (.connect _ sid addr interrupted)
    next => exact h
  | close sid =>
    rw [← ok.inj hok]
    split
    next huse => exact h.close huse
    next => exact h
  | shutdown =>
    rw [← ok.inj hok]
    exact h.shutdown
  | terminate =>
    rw [← ok.inj hok]
    split
    next => exact h.terminate
    next => exact h
  | proceed fd interrupted => exact h.proceed hok
  | processCommands sid =>
    rw [← ok.inj hok]
    split
    next hsid => exact h.onInproc hsid (h.inproc.processCommands sid) (.processCommands _ sid)
    next => exact h
  | reap sid =>
    rw [← ok.inj hok]
    split
    next hall => exact h.onInproc hall.1 (h.inproc.startReaping hall.2.1) (.startReaping _ sid)
    next => exact h
  | destroySocket sid =>
    rw [← ok.inj hok]
    split
    next hall => exact h.destroySocket hall.1 hall.2.1
    next => exact h

end Valid

/-- **Every run that does not fail keeps the slots and the endpoints in order**, whatever the steps are. -/
theorem valid_of_run {acts : List (Act A)} (hrun : runSteps (Ctx.step lim) (new lim) acts = .ok s) : s.Valid := by
  have hall : StepsMeet (Ctx.step lim) (fun _ _ => True) (new lim : Ctx A) acts :=
    stepsMeet_of_forall (fun _ _ _ => trivial) _
  exact runSteps_preserves (fun _ _ _ h _ hok => h.step hok) valid_new hall hrun

theorem valid_of_run_pending :
    ∃ s, runSteps (Ctx.step ⟨-1, .inl rfl⟩) (new ⟨-1, .inl rfl⟩ : Ctx ℕ)
      [.createSocket (some .dealer) .opened, .connect 1 7 false, .createSocket (some .pair) .opened, .bind 2 7 false,
        .processCommands 1, .close 1, .reap 1, .destroySocket 1] = .ok s ∧ s.sockets = [2] ∧ s.Valid :=
  okAnd.exists_and (by decide +kernel) fun _ hrun => valid_of_run hrun

/-! ### Connections that wait -/

/-- `terminate`, if it is under way, still comes to every address a connection waits for. -/
def Flushed (s : Ctx A) : Prop := ∀ l, s.termination.rest = some l → ∀ p ∈ s.pendingConnections, p.1 ∈ l

/-- The condition under which a step does no harm: the first socket is created only if the slots can be numbered by
an `int`; `terminate` finds a slot and a descriptor for a socket of its own in a context that is not being terminated
yet; this socket is not told to stop, and not interrupted, before it has bound; and while `terminate` is under way,
connections are made only to addresses that are bound or that it has still to come to. -/
def Flushable (s : Ctx A) : Act A → Prop
  | .createSocket _ _ => s.starting = true → s.maxSockets + s.ioThreadCount + 2 < 2 ^ 31
  | .connect sid addr _ =>
    match s.termination.rest with
    | none => True
    | some l => (s.socket sid).stopped = true ∨ (s.endpoints.lookup addr).isSome = true ∨ addr ∈ l
  | .proceed fd interrupted =>
    match s.termination with
    | .flushing (_ :: _) => s.terminating = false ∧ s.emptySlots ≠ [] ∧ fd = .opened
    | .created sid _ _ => (s.socket sid).stopped = false ∧ interrupted = false
    | _ => True
  | _ => True

instance (s : Ctx A) (a : Act A) : Decidable (s.Flushable a) := by
  unfold Flushable
  split
  · infer_instance
  · split <;> infer_instance
  · split <;> infer_instance
  · infer_instance

omit [DecidableEq A] in
lemma Flushed.congr (h : s.Flushed) (hterm : s'.termination = s.termination)
    (hpend : ∀ p ∈ s'.pendingConnections, p ∈ s.pendingConnections) : s'.Flushed := by
  intro l hl p hp
  rw [hterm] at hl
  exact h l hl p (hpend p hp)

section Flush

variable {fd : MailboxFd} {interrupted : Bool}

omit [DecidableEq A] in
lemma exists_wake (h : s.starting = true → s.maxSockets + s.ioThreadCount + 2 < 2 ^ 31) :
    ∃ s', s.wake = .ok s' := by
  unfold Ctx.wake CtxSlots.start
  split
  next hstarting => exact ⟨_, by rw [if_pos (h hstarting)]⟩
  next => exact ⟨_, rfl⟩

omit [DecidableEq A] in
lemma exists_createSocket (h : s.starting = true → s.maxSockets + s.ioThreadCount + 2 < 2 ^ 31)
    (type : Option SocketType) (fd : MailboxFd) : ∃ s' r, s.createSocket type fd = .ok (s', r) := by
  obtain ⟨s1, hwake⟩ := exists_wake h
  unfold Ctx.createSocket
  rw [hwake]
  dsimp only
  split
  · exact ⟨_, _, rfl⟩
  split
  · exact ⟨_, _, rfl⟩
  split
  · exact ⟨_, _, rfl⟩
  · exact ⟨_, _, rfl⟩

omit [DecidableEq A] in
lemma createSocket_keeps (h : s.toCtxSlots.Valid) {type : Option SocketType} {r : Except CtxErrno ℕ}
    (hok : s.createSocket type fd = .ok (s', r)) :
    s'.termination = s.termination ∧ s'.pendingConnections = s.pendingConnections := by
  obtain ⟨s1, hwake, hout⟩ := createSocket_cases hok
  obtain ⟨heq, -⟩ := Valid.wake_eq hwake h
  have hkept : s1.termination = s.termination ∧ s1.pendingConnections = s.pendingConnections := by
    rw [heq]
    exact ⟨rfl, rfl⟩
  cases hout with
  | terminating | full | refused | created => exact hkept

omit [DecidableEq A] in
lemma Flushed.delete (h : s.Flushed) (hnil : s.sockets = []) (hrest : s.termination.rest = some []) :
    ∃ s', s.delete = .ok s' ∧ s'.Flushed := by
  refine ⟨_, if_pos hnil, fun l hl p hp => ?_⟩
  exact h l (hrest.trans hl) p hp

omit [DecidableEq A] in
lemma Flushed.stop (h : s.Flushed) (hslots : s.toCtxSlots.Valid) (hrest : s.termination.rest = some []) :
    ∃ s', s.stop = .ok s' ∧ s'.Flushed := by
  unfold Ctx.stop
  split
  next hstarting => exact h.delete (hslots.asleep hstarting) hrest
  refine ⟨_, rfl, fun l hl p hp => ?_⟩
  refine h l (hrest.trans hl) p ?_
  revert hp
  split
  · exact id
  · unfold stopSockets
    dsimp only
    split <;> exact id

lemma Valid.proceed_flushed (h : s.Valid) (hf : s.Flushed) (hgood : s.Flushable (.proceed fd interrupted)) :
    ∃ s', s.proceed fd interrupted = .ok s' ∧ s'.Flushed := by
  unfold Ctx.proceed
  cases hterm : s.termination with
  | idle | deleted => exact ⟨s, rfl, hf⟩
  | flushing rest =>
    cases rest with
    | nil => exact hf.stop h.slots (by rw [hterm]; rfl)
    | cons addr rest =>
      have hrest : s.termination.rest = some (addr :: rest) := by rw [hterm]; rfl
      have hstarting := h.starting_eq_false hrest
      simp only [Flushable, hterm] at hgood
      obtain ⟨hrun, hempty, rfl⟩ := hgood
      obtain ⟨slot, slots, hcons⟩ := exists_cons_of_ne_nil hempty
      have hwake : s.wake = .ok s := if_neg (ne_true_of_eq_false hstarting)
      have hcreate : s.createSocket (some .pair) .opened = .ok ({ s with
          toCtxSlots := s.take slot slots (s.maxSocketId + 1)
          socket := update s.socket (s.maxSocketId + 1) (.new .pair) }, .ok (s.maxSocketId + 1)) := by
        unfold Ctx.createSocket
        simp only [hwake, hrun, hcons, createSocketBase, Bool.false_eq_true, if_false]
      simp only [hcreate]
      refine ⟨_, rfl, fun l hl p hp => ?_⟩
      exact hf l (hrest.trans hl) p hp
  | created sid addr rest =>
    have htemp : s.temporary = some sid := by rw [Ctx.temporary, hterm]
    obtain ⟨hsid, hclosed⟩ := h.temporary sid htemp
    simp only [Flushable, hterm] at hgood
    obtain ⟨hstopped, rfl⟩ := hgood
    refine ⟨_, rfl, fun l hl p hp => ?_⟩
    rw [← some.inj hl]
    have hold : p ∈ s.pendingConnections := CtxInproc.mem_of_mem_bind hp
    have hmem : p.1 ∈ addr :: rest := hf _ (by rw [hterm]; rfl) p hold
    exact (mem_cons.mp hmem).resolve_left (h.inproc.fst_ne_of_mem_bind hsid hclosed hstopped hp)
  | bound sid rest =>
    refine ⟨_, rfl, fun l hl p hp => ?_⟩
    refine hf l ?_ p hp
    rw [hterm]
    exact hl
  | waiting =>
    have hrest : s.termination.rest = some [] := by rw [hterm]; rfl
    change ∃ s', s.receiveDone interrupted = .ok s' ∧ s'.Flushed
    unfold Ctx.receiveDone
    split
    · exact ⟨_, rfl, fun l hl => (by cases hl)⟩
    split
    next => exact ⟨s, rfl, hf⟩
    next hstops =>
      refine hf.delete ?_ hrest
      have heq := h.stops
      by_contra hne
      rw [if_neg fun hboth => hne hboth.2] at heq
      exact hstops heq

/-- **Every step that meets the condition succeeds, and `terminate` still comes to every address a connection waits
for.** -/
theorem Valid.step_flushed (h : s.Valid) (hf : s.Flushed) (hgood : s.Flushable a) :
    ∃ s', s.step lim a = .ok s' ∧ s'.Flushed := by
  unfold Ctx.step
  split
  next => exact ⟨s, rfl, hf⟩
  next =>
  cases a with
  | set option optval =>
    dsimp only
    split
    next s' hset =>
      refine ⟨s', rfl, ?_⟩
      obtain ⟨m, n, b, p, q, rfl⟩ := set_eq hset
      exact hf
    next => exact ⟨s, rfl, hf⟩
  | createSocket type fd =>
    obtain ⟨s', r, hcreate⟩ := exists_createSocket hgood type fd
    obtain ⟨hterm, hpend⟩ := createSocket_keeps h.slots hcreate
    dsimp only
    rw [hcreate]
    exact ⟨s', rfl, hf.congr hterm fun p hp => hpend ▸ hp⟩
  | bind sid addr interrupted =>
    refine ⟨_, rfl, ?_⟩
    split
    next => exact hf.congr rfl fun p hp => CtxInproc.mem_of_mem_bind hp
    next => exact hf
  | unbind sid addr =>
    refine ⟨_, rfl, ?_⟩
    split
    next =>
      refine hf.congr rfl fun p hp => ?_
      unfold CtxInproc.unregisterEndpoint at hp
      split at hp <;> exact hp
    next => exact hf
  | connect sid addr interrupted =>
    refine ⟨_, rfl, ?_⟩
    split
    next =>
      intro l hl p hp
      rcases CtxInproc.mem_of_mem_connect hp with hp | ⟨hstopped, hlookup, rfl⟩
      · exact hf l hl p hp
      · have hrest : s.termination.rest = some l := hl
        simp only [Flushable, hrest, hstopped, hlookup] at hgood
        simpa using hgood
    next => exact hf
  | close sid | processCommands sid | reap sid =>
    refine ⟨_, rfl, ?_⟩
    split
    next => exact hf.congr rfl fun _ hp => hp
    next => exact hf
  | shutdown =>
    refine ⟨_, rfl, ?_⟩
    unfold Ctx.shutdown
    split
    next =>
      unfold Ctx.stopSockets
      dsimp only
      split <;> exact hf.congr rfl fun _ hp => hp
    next => exact hf
  | terminate =>
    refine ⟨_, rfl, ?_⟩
    split
    next =>
      intro l hl p hp
      rw [← some.inj hl]
      exact mem_map_of_mem hp
    next => exact hf
  | proceed fd interrupted => exact h.proceed_flushed hf hgood
  | destroySocket sid =>
    refine ⟨_, rfl, ?_⟩
    split
    next =>
      unfold Ctx.destroySocket
      dsimp only
      split <;> exact hf.congr rfl fun _ hp => hp
    next => exact hf

end Flush

/-! ### The slot table -/

/-- What the slots and the connections should be like. -/
structure SlotTable (s : Ctx A) : Prop where
  /-- Each thread id there is for sockets is that of a socket or free, and not both. -/
  partition : s.sockets.map s.tid ++ s.emptySlots ~ s.socketTids
  disjoint : (s.sockets.map s.tid ++ s.emptySlots).Nodup
  distinct : ∀ sid ∈ s.sockets, ∀ sid' ∈ s.sockets, s.tid sid = s.tid sid' → sid = sid'
  /-- The array of mailboxes has the mailboxes of the sockets in their slots, and none in the free ones. -/
  mailboxes : (∀ sid ∈ s.sockets, s.slots (s.tid sid) = some (.socket sid)) ∧ ∀ tid ∈ s.emptySlots, s.slots tid = none
  /-- `create_socket` says `ETERM` if the context is being terminated, and `EMFILE` if it is not and each slot belongs
  to a socket; a process without descriptors apart. -/
  createSocket : ∀ type fd s' r, fd ≠ MailboxFd.emfile → s.createSocket type fd = .ok (s', r) →
    (r = .error .eterm ↔ s.terminating = true) ∧
    (r = .error .emfile ↔ s.terminating = false ∧ ∀ tid ∈ s'.socketTids, ∃ sid ∈ s.sockets, s.tid sid = tid)
  /-- When `terminate` waits for the reaper or has returned, no connection waits. -/
  resolved : s.termination = .waiting ∨ s.termination = .deleted → s.pendingConnections = []

omit [DecidableEq A] in
lemma createSocketBase_error {type : Option SocketType} {fd : MailboxFd} {e : CtxErrno}
    (h : createSocketBase type fd = .error e) (hfd : fd ≠ .emfile) : e ≠ .eterm ∧ e ≠ .emfile := by
  cases type with
  | none =>
    obtain rfl := error.inj h
    decide
  | some t =>
    cases fd with
    | opened => cases h
    | emfile => exact absurd rfl hfd
    | enfile =>
      obtain rfl := error.inj h
      decide

lemma Valid.createSocket_errno (h : s.Valid) {type : Option SocketType} {fd : MailboxFd} {r : Except CtxErrno ℕ}
    (hfd : fd ≠ .emfile) (hok : s.createSocket type fd = .ok (s', r)) :
    (r = .error .eterm ↔ s.terminating = true) ∧
    (r = .error .emfile ↔ s.terminating = false ∧ ∀ tid ∈ s'.socketTids, ∃ sid ∈ s.sockets, s.tid sid = tid) := by
  obtain ⟨s1, hwake, hout⟩ := createSocket_cases hok
  obtain ⟨heq, hslots, hsockets, htid, -⟩ := Valid.wake_eq hwake h.slots
  have hterm : s1.terminating = s.terminating := by rw [heq]
  have hfull := hslots.emptySlots_eq_nil_iff
  rw [hsockets, htid] at hfull
  rw [← hterm]
  cases hout with
  | terminating hyes => simp [hyes]
  | full hno hnil => exact ⟨by simp [hno], iff_of_true rfl ⟨hno, hfull.mp hnil⟩⟩
  | refused e hno hne he =>
    obtain ⟨h1, h2⟩ := createSocketBase_error he hfd
    have hnot : ¬∀ tid ∈ s1.socketTids, ∃ sid ∈ s.sockets, s.tid sid = tid := fun hall => hne (hfull.mpr hall)
    exact ⟨iff_of_false (fun heq' => h1 (error.inj heq')) (by simp [hno]),
      iff_of_false (fun heq' => h2 (error.inj heq')) fun hboth => hnot hboth.2⟩
  | created slot rest t hno hcons =>
    have hnot : ¬∀ tid ∈ s1.socketTids, ∃ sid ∈ s.sockets, s.tid sid = tid := fun hall =>
      absurd (hcons.symm.trans (hfull.mpr hall)) (cons_ne_nil _ _)
    exact ⟨iff_of_false (fun heq' => (by cases heq')) (by simp [hno]),
      iff_of_false (fun heq' => (by cases heq')) fun hboth => hnot hboth.2⟩

lemma Valid.slotTable (h : s.Valid) (hf : s.Flushed) : s.SlotTable where
  partition := h.slots.partition
  disjoint := h.slots.nodup
  distinct _ hsid _ hsid' heq := inj_on_of_nodup_map h.slots.nodup_tids hsid hsid' heq
  mailboxes := ⟨h.slots.owner, h.slots.free⟩
  createSocket _ _ _ _ hfd hok := h.createSocket_errno hfd hok
  resolved hend := by
    have hrest : s.termination.rest = some [] := by
      rcases hend with hend | hend <;> rw [hend] <;> rfl
    rw [eq_nil_iff_forall_not_mem]
    exact fun p hp => not_mem_nil (hf [] hrest p hp)

/-- **The slot table.** In every run whose steps all meet the condition nothing goes wrong, and in every state it
comes to the slots and the connections are as they should be. -/
theorem slotTable_of_flushable (lim : PollerLimit) (acts : List (Act A))
    (h : StepsMeet (Ctx.step lim) Flushable (new lim) acts) :
    ∃ s, runSteps (Ctx.step lim) (new lim : Ctx A) acts = .ok s ∧ s.SlotTable := by
  have hnew : (new lim : Ctx A).Valid ∧ (new lim : Ctx A).Flushed := ⟨valid_new, fun _ hl => (by cases hl)⟩
  have hstep : ∀ (s : Ctx A) (a : Act A), s.Valid ∧ s.Flushed → s.Flushable a →
      ∃ s', s.step lim a = .ok s' ∧ s'.Valid ∧ s'.Flushed := by
    rintro s a ⟨hvalid, hflushed⟩ hgood
    obtain ⟨s', hok, hflushed'⟩ := hvalid.step_flushed hflushed hgood
    exact ⟨s', hok, hvalid.step hok, hflushed'⟩
  obtain ⟨s, hrun, hvalid, hflushed⟩ := runSteps_invariant hstep hnew h
  exact ⟨s, hrun, hvalid.slotTable hflushed⟩

/-- A connection waits, and `terminate` binds its address. -/
theorem slotTable_of_flushable_three :
    ∃ s, runSteps (Ctx.step ⟨-1, .inl rfl⟩) (new ⟨-1, .inl rfl⟩ : Ctx ℕ)
        [.set .maxSockets 3, .createSocket (some .dealer) .opened, .connect 1 7 false, .terminate,
          .proceed .opened false, .proceed .opened false, .proceed .opened false, .proceed .opened false,
          .close 1, .reap 2, .destroySocket 2, .processCommands 1, .reap 1, .destroySocket 1, .proceed .opened false] =
          .ok s ∧ s.SlotTable :=
  slotTable_of_flushable _ _ (by decide +kernel)

/-- A context with a connection that waits is shut down before it is terminated, or has no slot left: `terminate` uses
a socket that was not created. -/
theorem terminate_uses_null :
    runSteps (Ctx.step ⟨-1, .inl rfl⟩) (new ⟨-1, .inl rfl⟩ : Ctx ℕ)
        [.createSocket (some .dealer) .opened, .connect 1 7 false, .shutdown, .terminate, .proceed .opened false] =
      .error .nullSocket ∧
    runSteps (Ctx.step ⟨-1, .inl rfl⟩) (new ⟨-1, .inl rfl⟩ : Ctx ℕ)
        [.set .maxSockets 1, .createSocket (some .dealer) .opened, .connect 1 7 false, .terminate,
          .proceed .opened false] =
      .error .nullSocket :=
  ⟨rfl, rfl⟩

end Ctx

end Zmq
