import ZeroMQ.Engine.Engine

/-!
# Nothing is pushed before the mechanism is ready

An engine with a mechanism starts with `process_handshake_command`, and only `mechanism_ready` replaces
it. So no frame is pushed into the session before the mechanism has reported that it is ready.

What a mechanism and the session's ZAP pipe have in common is an invariant of the mechanism; `Keeps`
says what is to be shown about the functions of the mechanism, and `Guarded.run` carries it to the runs
of the engine.
-/

namespace Zmq

open Foundation

/-! ### What is asked of a mechanism -/

/-- `I` is an invariant of the mechanism and the ZAP pipe; a mechanism that is ready stays so, and then
`A` holds of the pipe. A mechanism that has failed is not used again, so nothing but the last is asked
of it. -/
structure MechanismOps.Keeps {μ : Type} (ops : MechanismOps μ) (I : μ → Zap → Prop) (A : Zap → Prop) :
    Prop where
  next : ∀ {m z r m' z'}, I m z → ops.nextHandshakeCommand m z = .ok (r, m', z') →
    I m' z' ∧ (ops.status m = .ready → ops.status m' = .ready)
  process : ∀ {msg m z m' z'}, I m z → ops.processHandshakeCommand msg m z = .ok (.ok (), m', z') →
    I m' z' ∧ (ops.status m = .ready → ops.status m' = .ready)
  processError : ∀ {msg m z e m' z'}, I m z →
    ops.processHandshakeCommand msg m z = .ok (.error e, m', z') →
    e ≠ .eagain ∧ (ops.status m = .ready → A z')
  zapMsg : ∀ {m z m' z'}, I m z → ops.zapMsgAvailable m z = .ok (.ok (), m', z') →
    I m' z' ∧ (ops.status m = .ready → ops.status m' = .ready)
  zapMsgError : ∀ {m z e m' z'}, I m z → ops.zapMsgAvailable m z = .ok (.error e, m', z') →
    ops.status m = .ready → A z'
  encode : ∀ {msg m z r m'}, I m z → ops.encode msg m = .ok (r, m') →
    I m' z ∧ (ops.status m = .ready → ops.status m' = .ready)
  decode : ∀ {msg m z r m'}, I m z → ops.decode msg m = .ok (r, m') →
    I m' z ∧ (ops.status m = .ready → ops.status m' = .ready)
  /-- The handler sends frames, the pipe goes away, and handlers come and go. -/
  pipe : ∀ {m z}, I m z → ∀ pipe, (z.pipe = none → pipe = none) → I m { z with pipe }
  handler : ∀ {m z}, I m z → ∀ handler, I m { z with handler }
  ready : ∀ {m z}, I m z → ops.status m = .ready → A z
  stable : ∀ {z}, A z → ∀ handler pipe, A { z with handler, pipe }

namespace Engine

variable {σ μ : Type} {env : Surroundings} {ops : MechanismOps μ} {I : μ → Zap → Prop}
  {A : Zap → Prop} {s t : Engine σ μ}

/-- The mechanism has its invariant, it is ready if it has said so, and before that nothing has been
pushed. -/
structure Guarded (ops : MechanismOps μ) (I : μ → Zap → Prop) (s : Engine σ μ) : Prop where
  mechanism : ∃ m, s.mechanism = some m ∧ I m s.zap ∧ (.ready ∈ s.reports → ops.status m = .ready)
  early : s.early = []
  guard : s.processMsg ≠ .processHandshakeCommand → .ready ∈ s.reports

/-- The mechanism has said that it is ready only if `A` holds, and before that nothing has been pushed. -/
structure Vouched (A : Zap → Prop) (s : Engine σ μ) : Prop where
  early : s.early = []
  ready : .ready ∈ s.reports → A s.zap

lemma Guarded.vouched (hops : ops.Keeps I A) (h : s.Guarded ops I) : s.Vouched A := by
  obtain ⟨m, -, hI, hready⟩ := h.mechanism
  exact ⟨h.early, fun hmem => hops.ready hI (hready hmem)⟩

/-- What is left when a member function returns: after a failure the engine will be closed. -/
def Returns (ops : MechanismOps μ) (I : μ → Zap → Prop) (A : Zap → Prop) (rc : Rc) (s : Engine σ μ) : Prop :=
  if rc = .failed then s.Vouched A else s.Guarded ops I

lemma Guarded.returns (hops : ops.Keeps I A) (h : s.Guarded ops I) (rc : Rc) : s.Returns ops I A rc := by
  unfold Returns
  split
  · exact h.vouched hops
  · exact h

lemma Returns.guarded {rc : Rc} (h : s.Returns ops I A rc) (hrc : rc ≠ .failed) : s.Guarded ops I := by
  rwa [Returns, if_neg hrc] at h

lemma Returns.vouched {rc : Rc} (hops : ops.Keeps I A) (h : s.Returns ops I A rc) : s.Vouched A := by
  unfold Returns at h
  split at h
  · exact h
  · exact h.vouched hops

variable {b : Bool}

lemma Guarded.pushMsg (h : s.Guarded ops I) (hready : .ready ∈ s.reports) {m : Msg}
    (hrun : s.pushMsg env m = (b, t)) : t.Guarded ops I ∧ .ready ∈ t.reports := by
  simp only [Engine.pushMsg, if_pos hready] at hrun
  split at hrun
  · cases hrun
    exact ⟨{ h with }, hready⟩
  · cases hrun
    exact ⟨{ h with }, hready⟩

lemma Guarded.pushCurrent (h : s.Guarded ops I) (hready : .ready ∈ s.reports) {next : ProcessMsg}
    {rc : Rc} (hrun : s.pushCurrent env next = (rc, t)) : t.Guarded ops I ∧ .ready ∈ t.reports := by
  simp only [Engine.pushCurrent] at hrun
  split at hrun
  next s' hpush =>
    obtain ⟨hs', hr'⟩ := h.pushMsg hready hpush
    cases hrun
    exact ⟨⟨hs'.mechanism, hs'.early, fun _ => hr'⟩, hr'⟩
  next s' hpush =>
    cases hrun
    exact h.pushMsg hready hpush

lemma Guarded.askStatus (h : s.Guarded ops I) {m : μ} (hm : s.mechanism = some m) {status : MechanismStatus}
    (hask : s.askStatus ops m = (status, t)) :
    t.Guarded ops I ∧ t.mechanism = some m ∧ (status = .ready → .ready ∈ t.reports) := by
  simp only [Engine.askStatus, Prod.mk.injEq] at hask
  obtain ⟨hstatus, rfl⟩ := hask
  obtain ⟨m', hm', hI, hready⟩ := h.mechanism
  obtain rfl : m = m' := Option.some.inj (hm.symm.trans hm')
  refine ⟨⟨⟨m, hm, hI, fun hmem => ?_⟩, h.early, fun hp => ?_⟩, hm, fun hs => ?_⟩
  · rcases List.mem_append.1 hmem with hmem | hmem
    · exact hready hmem
    · exact (List.mem_singleton.1 hmem).symm
  · exact List.mem_append_left _ (h.guard hp)
  · rw [← hs, ← hstatus]
    simp

lemma Guarded.mechanismReady (h : s.Guarded ops I) (hready : .ready ∈ s.reports) {m : μ}
    (hrun : s.mechanismReady env ops m = .ok t) : t.Guarded ops I := by
  -- The pointers are switched.
  have hswitch : ∀ {s t : Engine σ μ} {nextMsg : NextMsg} {metadata : Bool}, s.Guarded ops I →
      .ready ∈ s.reports →
      (if s.metadata then .error .assertFailed
        else .ok { s with nextMsg, processMsg := .writeCredential, metadata } :
          Except EngineFault (Engine σ μ)) = .ok t → t.Guarded ops I := by
    intro s t nextMsg metadata h hready hrun
    split at hrun
    · cases hrun
    · cases hrun
      exact ⟨h.mechanism, h.early, fun _ => hready⟩
  simp only [Engine.mechanismReady] at hrun
  split at hrun
  · split at hrun
    next s' hpush =>
      cases hrun
      exact (h.pushMsg hready hpush).1
    next s' hpush => exact hswitch (h.pushMsg hready hpush).1 (h.pushMsg hready hpush).2 hrun
  · exact hswitch h hready hrun

/-! ### Output -/

variable {pulled : Option Msg}

section

variable (hops : ops.Keeps I A)

include hops

lemma Guarded.pullAndEncode (h : s.Guarded ops I)
    (hrun : s.pullAndEncode ops pulled = .ok (b, t)) : t.Guarded ops I := by
  obtain ⟨m, hm, hI, hready⟩ := h.mechanism
  cases pulled with
  | none =>
    simp only [Engine.pullAndEncode, hm] at hrun
    cases hrun
    exact h
  | some msg =>
    simp only [Engine.pullAndEncode, hm] at hrun
    split at hrun
    · cases hrun
    next m' hencode =>
      cases hrun
      obtain ⟨hI', hstays⟩ := hops.encode hI hencode
      exact ⟨⟨m', rfl, hI', hstays ∘ hready⟩, h.early, h.guard⟩
    next m' hencode =>
      cases hrun
      obtain ⟨hI', hstays⟩ := hops.encode hI hencode
      exact ⟨⟨m', rfl, hI', hstays ∘ hready⟩, h.early, h.guard⟩

lemma Guarded.nextHandshakeCommand (h : s.Guarded ops I)
    (hrun : s.nextHandshakeCommand env ops pulled = .ok (b, t)) : t.Guarded ops I := by
  obtain ⟨m, hm, -⟩ := h.mechanism
  simp only [Engine.nextHandshakeCommand, hm] at hrun
  split at hrun
  next s' hask =>
    obtain ⟨hs', -, hready⟩ := h.askStatus hm hask
    split at hrun
    · cases hrun
    next s'' hready' => exact (hs'.mechanismReady (hready rfl) hready').pullAndEncode hops hrun
  next s' hask =>
    cases hrun
    exact (h.askStatus hm hask).1
  next s' hask =>
    obtain ⟨hs', hm', -⟩ := h.askStatus hm hask
    obtain ⟨m', hm'', hI, hready⟩ := hs'.mechanism
    obtain rfl : m = m' := Option.some.inj (hm'.symm.trans hm'')
    split at hrun
    · cases hrun
    next m1 z1 hnext =>
      cases hrun
      obtain ⟨hI', hstays⟩ := hops.next hI hnext
      exact ⟨⟨m1, rfl, hI', hstays ∘ hready⟩, hs'.early, hs'.guard⟩
    next m1 z1 hnext =>
      cases hrun
      obtain ⟨hI', hstays⟩ := hops.next hI hnext
      exact ⟨⟨m1, rfl, hI', hstays ∘ hready⟩, hs'.early, hs'.guard⟩

lemma Guarded.callNextMsg (h : s.Guarded ops I)
    (hrun : s.callNextMsg env ops pulled = .ok (b, t)) : t.Guarded ops I := by
  simp only [Engine.callNextMsg] at hrun
  split at hrun
  · cases hrun
    exact { h with }
  · exact h.nextHandshakeCommand hops hrun
  · cases hrun
    exact h
  · exact h.pullAndEncode hops hrun

lemma Guarded.fillBatch {batch : List (Option Msg)}
    (h : s.Guarded ops I) (hrun : fillBatch env ops batch s = .ok (b, t)) : t.Guarded ops I := by
  induction batch generalizing s b with
  | nil =>
    cases hrun
    exact h
  | cons pulled batch ih =>
    simp only [Engine.fillBatch] at hrun
    split at hrun
    · cases hrun
    next s' hcall =>
      cases hrun
      exact h.callNextMsg hops hcall
    next s' hcall =>
      split at hrun
      · cases hrun
      next b' s'' hrest =>
        cases hrun
        exact ih (h.callNextMsg hops hcall) hrest

lemma Guarded.outEvent (h : s.Guarded ops I) (hrun : s.outEvent env ops = .ok t) : t.Guarded ops I := by
  simp only [Engine.outEvent] at hrun
  split at hrun
  · cases hrun
  next b s' hfill =>
    have hcount : Guarded ops I { s with outEvents := s.outEvents + 1 } := { h with }
    have hs' := hcount.fillBatch hops hfill
    cases hrun
    split
    · exact { hs' with }
    · exact hs'

lemma Guarded.restartOutput (h : s.Guarded ops I) (hrun : s.restartOutput env ops = .ok t) : t.Guarded ops I := by
  simp only [Engine.restartOutput] at hrun
  split at hrun
  · cases hrun
    exact h
  · refine Guarded.outEvent (s := { s with outputStopped := false }) hops ?_ hrun
    exact { h with }

end

/-! ### Input -/

lemma Guarded.processIdentityMsg (h : s.Guarded ops I) (hready : .ready ∈ s.reports) {rc : Rc}
    (hrun : s.processIdentityMsg env = .ok (rc, t)) : t.Guarded ops I := by
  simp only [Engine.processIdentityMsg] at hrun
  split at hrun
  · split at hrun
    · cases hrun
    next s' hpush =>
      obtain ⟨hs', hr'⟩ := h.pushMsg hready hpush
      cases hrun
      exact ⟨hs'.mechanism, hs'.early, fun _ => hr'⟩
  · cases hrun
    exact ⟨h.mechanism, h.early, fun _ => hready⟩

lemma Guarded.writeSubscriptionMsg (h : s.Guarded ops I) (hready : .ready ∈ s.reports) {rc : Rc}
    (hrun : s.writeSubscriptionMsg env = (rc, t)) : t.Guarded ops I := by
  simp only [Engine.writeSubscriptionMsg] at hrun
  split at hrun
  next s' hpush =>
    cases hrun
    exact (h.pushMsg hready hpush).1
  next s' hpush =>
    obtain ⟨hs', hr'⟩ := h.pushMsg hready hpush
    have hnext : Guarded ops I { s' with processMsg := .pushMsgToSession } :=
      ⟨hs'.mechanism, hs'.early, fun _ => hr'⟩
    exact (hnext.pushCurrent hr' hrun).1

section

variable (hops : ops.Keeps I A) (h : s.Guarded ops I)

include hops h

lemma Guarded.decodeAndPush (hready : .ready ∈ s.reports)
    {rc : Rc} (hrun : s.decodeAndPush env ops = .ok (rc, t)) : t.Guarded ops I := by
  obtain ⟨m, hm, hI, hstatus⟩ := h.mechanism
  simp only [Engine.decodeAndPush, hm] at hrun
  split at hrun
  · cases hrun
  next e m' hdecode =>
    cases hrun
    obtain ⟨hI', hstays⟩ := hops.decode hI hdecode
    exact ⟨⟨m', rfl, hI', hstays ∘ hstatus⟩, h.early, h.guard⟩
  next msg m' hdecode =>
    obtain ⟨hI', hstays⟩ := hops.decode hI hdecode
    have hs' : Guarded ops I { s with
        mechanism := some m', current := msg, decodes := s.decodes ++ [(s.current, some msg)] } :=
      ⟨⟨m', rfl, hI', hstays ∘ hstatus⟩, h.early, h.guard⟩
    split at hrun
    next s'' hpush =>
      obtain ⟨ht, hr⟩ := hs'.pushCurrent hready hpush
      cases hrun
      exact ⟨ht.mechanism, ht.early, fun _ => hr⟩
    next rc' s'' _ hpush =>
      cases hrun
      exact (hs'.pushCurrent hready hpush).1

lemma Guarded.writeCredential (hready : .ready ∈ s.reports)
    {rc : Rc} (hrun : s.writeCredential env ops = .ok (rc, t)) : t.Guarded ops I := by
  obtain ⟨m, hm, hI, hstatus⟩ := h.mechanism
  simp only [Engine.writeCredential, hm] at hrun
  split at hrun
  · refine Guarded.decodeAndPush (s := { s with mechanism := some m, processMsg := .decodeAndPush }) hops ?_
      hready hrun
    exact ⟨⟨m, rfl, hI, hstatus⟩, h.early, fun _ => hready⟩
  · split at hrun
    next s' hpush =>
      cases hrun
      exact (h.pushMsg hready hpush).1
    next s' hpush =>
      obtain ⟨hs', hr'⟩ := h.pushMsg hready hpush
      refine Guarded.decodeAndPush (s := { s' with processMsg := .decodeAndPush }) hops ?_ hr' hrun
      exact ⟨hs'.mechanism, hs'.early, fun _ => hr'⟩

lemma Guarded.processHandshakeCommand {rc : Rc}
    (hrun : s.processHandshakeCommand env ops = .ok (rc, t)) : t.Returns ops I A rc := by
  obtain ⟨m, hm, hI, hstatus⟩ := h.mechanism
  simp only [Engine.processHandshakeCommand, hm] at hrun
  split at hrun
  · cases hrun
  next e m' z' hprocess =>
    cases hrun
    obtain ⟨hne, hA⟩ := hops.processError hI hprocess
    rw [Returns, if_pos (by simp [Rc.ofErrno, hne])]
    exact ⟨h.early, hA ∘ hstatus⟩
  next m' z' hprocess =>
    obtain ⟨hI', hstays⟩ := hops.process hI hprocess
    have hs' : Guarded ops I { s with mechanism := some m', zap := z', current := emptyMsg } :=
      ⟨⟨m', rfl, hI', hstays ∘ hstatus⟩, h.early, h.guard⟩
    split at hrun
    next s'' hask =>
      obtain ⟨hs'', -, hready⟩ := hs'.askStatus rfl hask
      split at hrun
      · cases hrun
      next s1 hready1 =>
        have hs1 := hs''.mechanismReady (hready rfl) hready1
        split at hrun
        · split at hrun
          · cases hrun
          next s2 hout =>
            cases hrun
            exact (hs1.restartOutput hops hout).returns hops _
        · cases hrun
          exact hs1.returns hops _
    next s'' hask =>
      cases hrun
      exact (hs'.askStatus rfl hask).1.returns hops _
    next s'' hask =>
      have hs1 := (hs'.askStatus rfl hask).1
      split at hrun
      · split at hrun
        · cases hrun
        next s2 hout =>
          cases hrun
          exact (hs1.restartOutput hops hout).returns hops _
      · cases hrun
        exact hs1.returns hops _

/-- **A call of `process_msg`.** -/
theorem Guarded.callProcessMsg {rc : Rc}
    (hrun : s.callProcessMsg env ops = .ok (rc, t)) : t.Returns ops I A rc := by
  have hguard := h.guard
  simp only [Engine.callProcessMsg] at hrun
  split at hrun
  next hp => exact (h.processIdentityMsg (hguard (by simp [hp])) hrun).returns hops rc
  · exact h.processHandshakeCommand hops hrun
  next hp => exact (h.writeSubscriptionMsg (hguard (by simp [hp])) (Except.ok.inj hrun)).returns hops rc
  next hp => exact (h.pushCurrent (hguard (by simp [hp])) (Except.ok.inj hrun)).1.returns hops rc
  next hp => exact (h.writeCredential hops (hguard (by simp [hp])) hrun).returns hops rc
  next hp => exact (h.decodeAndPush hops (hguard (by simp [hp])) hrun).returns hops rc
  next hp => exact (h.pushCurrent (hguard (by simp [hp])) (Except.ok.inj hrun)).1.returns hops rc

end

variable {S : Stages σ}

lemma Guarded.round (hops : ops.Keeps I A) (h : s.Guarded ops I) {r : Option Rc}
    (hrun : s.round env ops S = .ok (r, t)) : t.Returns ops I A (r.getD .ok) := by
  simp only [Engine.round] at hrun
  split at hrun
  · cases hrun
  split at hrun
  · cases hrun
    exact h.returns hops _
  next used d _ =>
    have hs' : Guarded ops I { s with decoder := d, input := s.input.drop used, direct := false } := { h with }
    cases hrun
    exact hs'.returns hops _
  next m used d _ =>
    have hafter : Guarded ops I (s.afterDecode m used d) := { h with }
    split at hrun
    · cases hrun
    next s' hcall =>
      cases hrun
      exact hafter.callProcessMsg hops hcall
    next rc s' _ hcall =>
      cases hrun
      exact hafter.callProcessMsg hops hcall

variable {n limit : ℕ}

lemma Guarded.decodeLoop (hops : ops.Keeps I A) {rc : Rc} (h : s.Guarded ops I)
    (hrun : decodeLoop env ops S n s = .ok (rc, t)) : t.Returns ops I A rc := by
  induction n generalizing s with
  | zero =>
    cases hrun
    exact h.returns hops _
  | succ n ih =>
    simp only [Engine.decodeLoop] at hrun
    split at hrun
    · cases hrun
      exact h.returns hops _
    split at hrun
    · cases hrun
    next rc' s' hround =>
      cases hrun
      exact h.round hops hround
    next s' hround => exact ih ((h.round hops hround).guarded (by simp)) hrun

/-! ### Events -/

/-- What holds between two calls. -/
def Watched (ops : MechanismOps μ) (I : μ → Zap → Prop) (A : Zap → Prop) (s : Engine σ μ) : Prop :=
  s.Vouched A ∧ (s.closed = none → s.Guarded ops I)

lemma Guarded.watched (hops : ops.Keeps I A) (h : s.Guarded ops I) : s.Watched ops I A :=
  ⟨h.vouched hops, fun _ => h⟩

lemma Vouched.close (h : s.Vouched A) (reason : ErrorReason) : (s.close reason).Watched ops I A :=
  ⟨⟨h.early, h.ready⟩, fun hc => absurd hc (Option.some_ne_none reason)⟩

lemma Guarded.fillBuffer (h : s.Guarded ops I) (hfill : s.fillBuffer limit = (b, t)) : t.Guarded ops I := by
  simp only [Engine.fillBuffer] at hfill
  split at hfill
  · cases hfill
    exact h
  split at hfill <;> cases hfill <;> exact { h with }

lemma Guarded.inEvent (hops : ops.Keeps I A) (h : s.Guarded ops I)
    (hrun : s.inEvent env ops S limit = .ok t) : t.Watched ops I A := by
  simp only [Engine.inEvent] at hrun
  split at hrun
  · cases hrun
    exact Guarded.watched hops { h with }
  split at hrun
  next s' hfill =>
    cases hrun
    exact (h.fillBuffer hfill).watched hops
  next s' hfill =>
    have hs' := h.fillBuffer hfill
    split at hrun
    · cases hrun
    next s'' hloop =>
      cases hrun
      exact ((hs'.decodeLoop hops hloop).guarded (by simp)).watched hops
    next s'' hloop =>
      have hs'' := (hs'.decodeLoop hops hloop).guarded (by simp)
      cases hrun
      exact Guarded.watched hops { hs'' with }
    next s'' hloop =>
      cases hrun
      exact ((hs'.decodeLoop hops hloop).vouched hops).close _

lemma Guarded.restartInput (hops : ops.Keeps I A) (h : s.Guarded ops I)
    (hrun : s.restartInput env ops S limit = .ok t) : t.Watched ops I A := by
  simp only [Engine.restartInput] at hrun
  split at hrun
  · split at hrun
    · cases hrun
    next s' hcall =>
      cases hrun
      exact ((h.callProcessMsg hops hcall).guarded (by simp)).watched hops
    next s' hcall =>
      cases hrun
      exact ((h.callProcessMsg hops hcall).vouched hops).close _
    next s' hcall =>
      have hs' := (h.callProcessMsg hops hcall).guarded (by simp)
      split at hrun
      · cases hrun
      next s'' hloop =>
        cases hrun
        exact ((hs'.decodeLoop hops hloop).guarded (by simp)).watched hops
      next rc s'' _ hloop =>
        have hreturns := hs'.decodeLoop hops hloop
        split at hrun
        · cases hrun
          exact (hreturns.vouched hops).close _
        split at hrun
        · cases hrun
          exact (hreturns.vouched hops).close _
        next hrc =>
          have hs'' := hreturns.guarded hrc
          refine Guarded.inEvent (s := { s'' with inputStopped := false }) hops ?_ hrun
          exact { hs'' with }
  · cases hrun

lemma Guarded.zapMsgAvailable (hops : ops.Keeps I A) (h : s.Guarded ops I)
    (hrun : s.zapMsgAvailable env ops S limit = .ok t) : t.Watched ops I A := by
  obtain ⟨m, hm, hI, hstatus⟩ := h.mechanism
  have houtput : ∀ {s t : Engine σ μ}, s.Watched ops I A →
      (if s.closed.isSome then .error .useAfterFree
        else if s.outputStopped then s.restartOutput env ops
        else .ok s : Except EngineFault (Engine σ μ)) = .ok t → t.Watched ops I A := by
    intro s t h hrun
    split at hrun
    · cases hrun
    next hclosed =>
      split at hrun
      · have hs := h.2 (by simpa using hclosed)
        exact (hs.restartOutput hops hrun).watched hops
      · cases hrun
        exact h
  simp only [Engine.zapMsgAvailable, hm] at hrun
  split at hrun
  · cases hrun
  next e m' z' hzap =>
    have hs' : Vouched A { s with mechanism := some m', zap := z' } := ⟨h.early, hops.zapMsgError hI hzap ∘ hstatus⟩
    cases hrun
    exact hs'.close _
  next m' z' hzap =>
    obtain ⟨hI', hstays⟩ := hops.zapMsg hI hzap
    have hs' : Guarded ops I { s with mechanism := some m', zap := z' } :=
      ⟨⟨m', rfl, hI', hstays ∘ hstatus⟩, h.early, h.guard⟩
    split at hrun
    · split at hrun
      · cases hrun
      next s'' hrestart => exact houtput (hs'.restartInput hops hrestart) hrun
    · exact houtput (hs'.watched hops) hrun

lemma Watched.zap (hops : ops.Keeps I A) (h : s.Watched ops I A) (handler : Option Bool)
    (pipe : Option (List Msg)) (hpipe : s.zap.pipe = none → pipe = none) :
    Watched ops I A { s with zap := { s.zap with handler, pipe } } := by
  refine ⟨⟨h.1.early, fun hmem => hops.stable (h.1.ready hmem) handler pipe⟩, fun hc => ?_⟩
  have hs := h.2 hc
  obtain ⟨m, hm, hI, hstatus⟩ := hs.mechanism
  exact ⟨⟨m, hm, hops.handler (hops.pipe hI pipe hpipe) handler, hstatus⟩, hs.early, hs.guard⟩

lemma Watched.step (hops : ops.Keeps I A) (h : s.Watched ops I A) {a : EngineAct}
    (hrun : s.step env ops S a = .ok t) : t.Watched ops I A := by
  cases a with
  | inEvent limit =>
    simp only [Engine.step] at hrun
    split at hrun
    · cases hrun
      exact h
    next hopen => exact (h.2 (by simpa using fun hc => hopen (.inl hc))).inEvent hops hrun
  | outEvent =>
    simp only [Engine.step] at hrun
    split at hrun
    · cases hrun
      exact h
    next hopen =>
      exact ((h.2 (by simpa using fun hc => hopen (.inl hc))).outEvent hops hrun).watched hops
  | restartInput limit =>
    simp only [Engine.step] at hrun
    split at hrun
    · cases hrun
      exact h
    next hopen =>
      have hs := h.2 (by simpa using fun hc => hopen (.inl hc))
      refine Guarded.restartInput (s := { s with refused := false }) hops ?_ hrun
      exact { hs with }
  | zapMsgAvailable limit =>
    simp only [Engine.step] at hrun
    split at hrun
    · cases hrun
      exact h
    next hopen => exact (h.2 (by simpa using fun hc => hopen (.inl hc))).zapMsgAvailable hops hrun
  | zapFrames frames =>
    cases hrun
    exact h.zap hops s.zap.handler _ fun hn => by rw [hn]; rfl
  | zapGone =>
    cases hrun
    exact h.zap hops s.zap.handler none fun _ => rfl
  | zapHandler handler =>
    cases hrun
    exact h.zap hops handler s.zap.pipe id

/-- **Every run of an engine is watched.** -/
theorem Watched.run (hops : ops.Keeps I A) (h : s.Watched ops I A) {acts : List EngineAct}
    (hrun : runSteps (Engine.step env ops S) s acts = .ok t) : t.Watched ops I A := by
  have hall : StepsMeet (Engine.step env ops S) (fun _ _ => True) s acts :=
    stepsMeet_of_forall (fun _ _ _ => trivial) s
  exact runSteps_preserves (fun _ _ _ hs _ hstep => hs.step hops hstep) h hall hrun

end Engine

end Zmq
