import ZeroMQ.Gds.BrokerHandlers

/-!
# The lists of waiting workers in the GDS broker

A worker that waits is on the list of the broker and on that of its service. A reply puts it on both
without looking whether it is there, and a dispatch takes it off the one wherever it is and off the other
once; so the lists agree as long as no worker replies that waits already. Whatever the workers send, the
pointers on the lists lead to workers that are registered.
-/

namespace Gds

open Foundation List Option

/-- The worker is on the list of a service. -/
def Listed (b : Broker) (p : ℕ) : Prop := ∃ name srv, b.services.lookup name = some srv ∧ p ∈ srv.waiting

/-- The two kinds of lists agree: no worker is on a list twice, and the same workers are on both. -/
structure WaitingAgree (b : Broker) : Prop where
  nodup : b.waiting.Nodup
  service_nodup : ∀ name srv, b.services.lookup name = some srv → srv.waiting.Nodup
  /-- The workers on the list of the broker are those on the lists of their services. -/
  agree : ∀ p wrk, b.heap p = some wrk → (p ∈ b.waiting ↔
    ∃ name srv, wrk.service = some name ∧ b.services.lookup name = some srv ∧ p ∈ srv.waiting)

/-- What is on a list is a worker that is registered. -/
def ListsLive (b : Broker) : Prop :=
  ∀ p, p ∈ b.waiting ∨ Listed b p → ∃ wrk, b.heap p = some wrk ∧ b.workers.lookup wrk.identity = some p

lemma Live.lists (h : Live b) : ListsLive b := by
  intro p hp
  have hlive : ∃ wrk, b.heap p = some wrk := by
    obtain hp | ⟨name, srv, hsrv, hp⟩ := hp
    · exact h.listed p hp
    · obtain ⟨wrk, hwrk, -⟩ := h.attached name srv hsrv p hp
      exact ⟨wrk, hwrk⟩
  obtain ⟨wrk, hwrk⟩ := hlive
  exact ⟨wrk, hwrk, h.registered p wrk hwrk⟩

/-- The lists agree, as far as the pointers say. -/
structure Agrees (b : Broker) : Prop where
  nodup : b.waiting.Nodup
  service_nodup : ∀ name srv, b.services.lookup name = some srv → srv.waiting.Nodup
  agree : ∀ p, p ∈ b.waiting ↔ Listed b p

lemma Agrees.waitingAgree {b : Broker} (h : Agrees b) (hlive : Live b) : WaitingAgree b where
  nodup := h.nodup
  service_nodup := h.service_nodup
  agree p wrk hp := by
    rw [h.agree]
    constructor
    · rintro ⟨name, srv, hsrv, hmem⟩
      obtain ⟨w, hw, hname⟩ := hlive.attached name srv hsrv p hmem
      obtain rfl := some.inj (hp.symm.trans hw)
      exact ⟨name, srv, hname, hsrv, hmem⟩
    · exact fun ⟨name, srv, _, hsrv, hmem⟩ => ⟨name, srv, hsrv, hmem⟩

section Moves

variable {memory : UInt64} {b b' : Broker}

lemma Agrees.of_lists (h : Agrees b) (hwaiting : b'.waiting = b.waiting)
    (hservices : ∀ name srv, b'.services.lookup name = some srv →
      (∃ srv0, b.services.lookup name = some srv0 ∧ srv.waiting = srv0.waiting) ∨ srv.waiting = [])
    (hkept : ∀ name srv, b.services.lookup name = some srv →
      ∃ srv', b'.services.lookup name = some srv' ∧ srv'.waiting = srv.waiting) : Agrees b' where
  nodup := by
    rw [hwaiting]
    exact h.nodup
  service_nodup name srv hsrv := by
    obtain ⟨srv0, hsrv0, heq⟩ | hnil := hservices name srv hsrv
    · rw [heq]
      exact h.service_nodup name srv0 hsrv0
    · rw [hnil]
      exact nodup_nil
  agree p := by
    rw [hwaiting, h.agree]
    constructor
    · rintro ⟨name, srv, hsrv, hmem⟩
      obtain ⟨srv', hsrv', heq⟩ := hkept name srv hsrv
      exact ⟨name, srv', hsrv', by rw [heq]; exact hmem⟩
    · rintro ⟨name, srv, hsrv, hmem⟩
      obtain ⟨srv0, hsrv0, heq⟩ | hnil := hservices name srv hsrv
      · exact ⟨name, srv0, hsrv0, by rw [← heq]; exact hmem⟩
      · rw [hnil] at hmem
        cases hmem

lemma Agrees.setService (h : Agrees b) {name : String} {srv : Service}
    (hsrv : (∃ srv0, b.services.lookup name = some srv0 ∧ srv.waiting = srv0.waiting) ∨
      (b.services.lookup name = none ∧ srv.waiting = [])) : Agrees (b.setService name srv) := by
  refine h.of_lists rfl (fun n srv' hsrv' => ?_) fun n srv' hsrv' => ?_
  · rw [Broker.lookup_setService] at hsrv'
    split at hsrv'
    next hn =>
      rw [hn, ← some.inj hsrv']
      exact hsrv.imp_right And.right
    next => exact .inl ⟨srv', hsrv', rfl⟩
  · rw [Broker.lookup_setService]
    split
    next hn =>
      rw [hn] at hsrv'
      obtain ⟨srv0, hsrv0, heq⟩ | ⟨hnone, -⟩ := hsrv
      · obtain rfl := some.inj (hsrv'.symm.trans hsrv0)
        exact ⟨srv, rfl, heq⟩
      · rw [hnone] at hsrv'
        cases hsrv'
    next => exact ⟨srv', hsrv', rfl⟩

lemma Agrees.remove (h : Agrees b) (hlive : Live b) {p : ℕ} {wrk : Worker} (hp : b.heap p = some wrk) :
    Agrees (b.remove p wrk) := by
  have hlookup : ∀ n srv, (b.remove p wrk).services.lookup n = some srv →
      ∃ srv0, b.services.lookup n = some srv0 ∧ srv.waiting = srv0.waiting.filter (· ≠ p) := fun n srv hsrv => by
    rw [hlive.lookup_remove hp] at hsrv
    obtain ⟨srv0, hsrv0, rfl⟩ := map_eq_some_iff.mp hsrv
    exact ⟨srv0, hsrv0, rfl⟩
  have hkept : ∀ n srv0, b.services.lookup n = some srv0 → ∃ srv, (b.remove p wrk).services.lookup n = some srv :=
    fun n srv0 hsrv0 => ⟨_, by rw [hlive.lookup_remove hp, hsrv0]; rfl⟩
  refine ⟨?_, fun n srv hsrv => ?_, fun q => ?_⟩
  · change ((b.detach p wrk).waiting.filter _).Nodup
    rw [Broker.detach_waiting]
    exact h.nodup.filter _
  · obtain ⟨srv0, hsrv0, heq⟩ := hlookup n srv hsrv
    rw [heq]
    exact (h.service_nodup n srv0 hsrv0).filter _
  · change q ∈ (b.detach p wrk).waiting.filter _ ↔ _
    rw [Broker.detach_waiting, mem_filter, h.agree]
    constructor
    · rintro ⟨⟨n, srv0, hsrv0, hmem⟩, hne⟩
      obtain ⟨srv, hsrv⟩ := hkept n srv0 hsrv0
      obtain ⟨srv1, hsrv1, heq⟩ := hlookup n srv hsrv
      obtain rfl := some.inj (hsrv0.symm.trans hsrv1)
      exact ⟨n, srv, hsrv, by rw [heq]; exact mem_filter.mpr ⟨hmem, hne⟩⟩
    · rintro ⟨n, srv, hsrv, hmem⟩
      obtain ⟨srv0, hsrv0, heq⟩ := hlookup n srv hsrv
      rw [heq] at hmem
      obtain ⟨hmem, hne⟩ := mem_filter.mp hmem
      exact ⟨⟨n, srv0, hsrv0, hmem⟩, hne⟩

lemma Agrees.enlist (h : Agrees b) {p : ℕ} {name : String} {srv : Service}
    (hsrv : b.services.lookup name = some srv) (hidle : p ∉ b.waiting) : Agrees (b.enlist p name srv) := by
  have hnot : ∀ n srv', b.services.lookup n = some srv' → p ∉ srv'.waiting := fun n srv' hsrv' hmem =>
    hidle ((h.agree p).mpr ⟨n, srv', hsrv', hmem⟩)
  have hlookup : ∀ n, (b.enlist p name srv).services.lookup n =
      if n = name then some { srv with waiting := srv.waiting ++ [p] } else b.services.lookup n :=
    fun n => b.lookup_setService name n _
  refine ⟨?_, fun n srv' hsrv' => ?_, fun q => ?_⟩
  · exact nodup_append.mpr ⟨h.nodup, nodup_singleton p, fun a ha c hc heq => by
      rw [mem_singleton.mp hc] at heq
      exact hidle (heq ▸ ha)⟩
  · rw [hlookup] at hsrv'
    split at hsrv'
    next hn =>
      rw [← some.inj hsrv']
      exact nodup_append.mpr ⟨h.service_nodup name srv hsrv, nodup_singleton p, fun a ha c hc heq => by
        rw [mem_singleton.mp hc] at heq
        exact hnot name srv hsrv (heq ▸ ha)⟩
    next => exact h.service_nodup n srv' hsrv'
  · change q ∈ b.waiting ++ [p] ↔ _
    rw [mem_append, h.agree, mem_singleton]
    constructor
    · rintro (⟨n, srv', hsrv', hmem⟩ | rfl)
      · by_cases hn : n = name
        · rw [hn] at hsrv'
          obtain rfl := some.inj (hsrv.symm.trans hsrv')
          exact ⟨name, _, by rw [hlookup, if_pos rfl], mem_append_left _ hmem⟩
        · exact ⟨n, srv', by rw [hlookup, if_neg hn]; exact hsrv', hmem⟩
      · exact ⟨name, _, by rw [hlookup, if_pos rfl], mem_append_right _ mem_cons_self⟩
    · rintro ⟨n, srv', hsrv', hmem⟩
      rw [hlookup] at hsrv'
      split at hsrv'
      next hn =>
        rw [← some.inj hsrv'] at hmem
        rcases mem_append.mp hmem with hmem | hmem
        · exact .inl ⟨name, srv, hsrv, hmem⟩
        · exact .inr (mem_singleton.mp hmem)
      next => exact .inl ⟨n, srv', hsrv', hmem⟩

lemma Agrees.handOver (h : Agrees b) (hlive : Live b) {name : String} {srv : Service} {p : ℕ} {wrk : Worker}
    {before after : List ℕ} {msg : Zmsg} {rest : List Zmsg} (hsrv : b.services.lookup name = some srv)
    (hwaiting : srv.waiting = before ++ p :: after) :
    Agrees (b.handOver name srv p wrk (before ++ after) msg rest) := by
  have hnodup : (before ++ p :: after).Nodup := hwaiting ▸ h.service_nodup name srv hsrv
  have hcons : (p :: (before ++ after)).Nodup := (perm_middle.nodup_iff).mp hnodup
  have hmem : ∀ q, q ∈ before ++ after ↔ q ∈ srv.waiting ∧ q ≠ p := fun q => by
    rw [hwaiting]
    constructor
    · intro hq
      refine ⟨?_, fun heq => (nodup_cons.mp hcons).1 (heq ▸ hq)⟩
      exact perm_middle.mem_iff.mpr (mem_cons_of_mem _ hq)
    · rintro ⟨hq, hne⟩
      exact (mem_cons.mp (perm_middle.mem_iff.mp hq)).resolve_left hne
  have hlookup : ∀ n, (b.handOver name srv p wrk (before ++ after) msg rest).services.lookup n =
      if n = name then some { srv.takeRequest wrk.uuid rest with waiting := before ++ after }
      else b.services.lookup n :=
    fun n => (b.workerSend wrk mdpwRequest "" msg).lookup_setService name n _
  -- The worker is on the list of no other service.
  have hother : ∀ n srv', b.services.lookup n = some srv' → p ∈ srv'.waiting → n = name := fun n srv' hsrv' hp => by
    obtain ⟨w, hw, hname⟩ := hlive.attached n srv' hsrv' p hp
    obtain ⟨w', hw', hname'⟩ := hlive.attached name srv hsrv p (by rw [hwaiting]; simp)
    obtain rfl := some.inj (hw.symm.trans hw')
    exact some.inj (hname.symm.trans hname')
  refine ⟨h.nodup.filter _, fun n srv' hsrv' => ?_, fun q => ?_⟩
  · rw [hlookup] at hsrv'
    split at hsrv'
    next =>
      rw [← some.inj hsrv']
      exact (nodup_cons.mp hcons).2
    next => exact h.service_nodup n srv' hsrv'
  · change q ∈ b.waiting.filter (fun x => decide (x ≠ p)) ↔ _
    rw [mem_filter, decide_eq_true_eq, h.agree]
    constructor
    · rintro ⟨⟨n, srv', hsrv', hq⟩, hne⟩
      by_cases hn : n = name
      · rw [hn] at hsrv'
        obtain rfl := some.inj (hsrv.symm.trans hsrv')
        exact ⟨name, _, by rw [hlookup, if_pos rfl], (hmem q).mpr ⟨hq, hne⟩⟩
      · exact ⟨n, srv', by rw [hlookup, if_neg hn]; exact hsrv', hq⟩
    · rintro ⟨n, srv', hsrv', hq⟩
      rw [hlookup] at hsrv'
      split at hsrv'
      next =>
        rw [← some.inj hsrv'] at hq
        obtain ⟨hq, hne⟩ := (hmem q).mp hq
        exact ⟨⟨name, srv, hsrv, hq⟩, hne⟩
      next hn =>
        refine ⟨⟨n, srv', hsrv', hq⟩, ?_⟩
        rintro rfl
        exact hn (hother n srv' hsrv' hq)

lemma Move.agrees (hmove : Move False memory b b') (hlive : Live b) (h : Agrees b) : Agrees b' := by
  cases hmove with
  | create name hname => exact h.setService (.inr ⟨hname, rfl⟩)
  | remove p wrk hp => exact h.remove hlive hp
  | attach p wrk info name srv _ _ hsrv =>
    have hset : Agrees (b.setWorker p { wrk with service := some name, projInfo := info }) := { h with }
    exact hset.setService (.inl ⟨srv, hsrv, rfl⟩)
  | enlist p wrk name srv _ _ hsrv hagain => exact h.enlist hsrv hagain
  | handOver name srv p wrk before after msg rest hsrv hwaiting _ _ => exact h.handOver hlive hsrv hwaiting
  | _ => exact { h with }

lemma Moves.agrees (hmoves : Moves False memory b b') (hlive : Live b) (h : Agrees b) : Agrees b' := by
  induction hmoves with
  | refl => exact h
  | tail hmoves hmove ih => exact hmove.agrees (Moves.live hmoves hlive) ih

lemma Takes.agrees {request : Option Queued} (htakes : Takes False memory b request b') (hlive : Live b)
    (h : Agrees b) : Agrees b' := by
  obtain ⟨b1, b2, hmoves, hrequested, hmoves'⟩ := htakes
  refine hmoves'.agrees (hrequested.live (hmoves.live hlive)) ?_
  have h1 := hmoves.agrees hlive h
  cases request with
  | none =>
    rw [show b2 = b1 from hrequested]
    exact h1
  | some q =>
    obtain ⟨srv, hsrv, rfl⟩ := hrequested
    have hset : Agrees (b1.setService q.service
        { srv with requests := srv.requests.insert q.uuid (srv.queue q.uuid ++ [q.msg]) }) :=
      h1.setService (.inl ⟨srv, hsrv, rfl⟩)
    exact { hset with }

end Moves

/-! ### Runs -/

/-- A worker that waits already sends a reply. -/
def RepliesAgain (b : Broker) : BrokerEvent → Prop
  | .message parts _ => b.AnswersWaiting parts
  | .tick _ _ => False

instance (b : Broker) : (event : BrokerEvent) → Decidable (RepliesAgain b event)
  | .message parts _ => inferInstanceAs (Decidable (b.AnswersWaiting parts))
  | .tick _ _ => inferInstanceAs (Decidable False)

section Runs

variable {lib : JsonLib} {debug : Bool} {b b' : Broker}

lemma Agrees.step (h : Agrees b) (hlive : Live b) {event : BrokerEvent} (hgood : ¬ RepliesAgain b event)
    (hok : b.step lib debug event = .ok b') : Agrees b' := by
  cases event with
  | message parts r =>
    obtain ⟨-, htakes | ⟨-, sender, command, ⟨_, _, _, hnew⟩, hmoves, -⟩⟩ := process_does False hlive hgood hok
    · exact htakes.agrees hlive h
    · exact hmoves.agrees (hlive.register hnew r.iOther) { h with }
  | tick sclock r =>
    have hmoves : Moves False 0 b b' := tick_moves_of_ok False 0 hlive hok
    exact hmoves.agrees hlive h

/-- **The waiting lists.** In every run in which no worker replies that waits already the list of the broker
and those of the services agree, and no worker is on a list twice; in every run at all what is on a list is a
worker that is registered. -/
theorem waiting_lists_agree (lib : JsonLib) (debug : Bool) (heartbeatAt : ℤ) (events : List BrokerEvent) :
    (StepsMeet (Broker.step lib debug) (fun b event => ¬ RepliesAgain b event) (Broker.initial heartbeatAt) events →
      Ensures (runSteps (Broker.step lib debug) (Broker.initial heartbeatAt) events) WaitingAgree) ∧
    Ensures (runSteps (Broker.step lib debug) (Broker.initial heartbeatAt) events) ListsLive := by
  constructor
  · intro hmeet b hrun
    have hinitial : Agrees (Broker.initial heartbeatAt) :=
      ⟨nodup_nil, fun _ _ h => (by cases h), fun _ => ⟨fun h => (by cases h), fun ⟨_, _, h, _⟩ => (by cases h)⟩⟩
    have hboth : Live b ∧ Agrees b :=
      runSteps_preserves (I := fun b => Live b ∧ Agrees b)
        (fun b event b' hb hgood hok => ⟨hb.1.step hok, hb.2.step hb.1 hgood hok⟩)
        ⟨live_initial heartbeatAt, hinitial⟩ hmeet hrun
    exact hboth.2.waitingAgree hboth.1
  · intro b hrun
    have hreachable : b.Reachable lib debug := ⟨heartbeatAt, events, hrun⟩
    exact hreachable.live.lists

/-- A worker registers, gets a request and answers it. -/
theorem waiting_lists_agree_run : ∃ b, runSteps (Broker.step JsonLib.none true) (Broker.initial 0)
    [.message [bytes "wrkA", [], bytes "MDPW01", [1], bytes "echo", bytes "x"] Readings.plain,
      .message [bytes "client", [], bytes "MDPC01", bytes "echo", bytes "hello"] ⟨0, -1, 0, 0⟩,
      .message [bytes "wrkA", [], bytes "MDPW01", [3], bytes "client", [], bytes "hello"] Readings.plain] = .ok b ∧
    b.dispatched.length = 1 ∧ WaitingAgree b := by
  refine okAnd.exists_and ?_ ((waiting_lists_agree JsonLib.none true 0 _).1 ?_)
  all_goals decide +kernel

/-- A worker that waits and sends a reply nobody asked for waits twice. -/
theorem waiting_twice : ∃ b, runSteps (Broker.step JsonLib.none true) (Broker.initial 0)
    [.message [bytes "wrkA", [], bytes "MDPW01", [1], bytes "echo", bytes "x"] Readings.plain,
      .message [bytes "wrkA", [], bytes "MDPW01", [3], bytes "client", [], bytes "hello"] Readings.plain] = .ok b ∧
    ¬ b.waiting.Nodup := by
  refine okAnd.exists ?_
  decide +kernel

end Runs

end Gds
