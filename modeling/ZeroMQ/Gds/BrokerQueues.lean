import ZeroMQ.Gds.BrokerHandlers

/-!
# Requests in the GDS broker

The requests for one service and one project are sent to workers in the order in which the clients sent
them, each once, and what has not been sent is in the queue. A worker that gets a request belongs to the
service and serves the project. This holds in every state of every run, whichever workers come, go, expire
or register again.
-/

namespace Gds

open Foundation List Finmap

/-! ### Queues -/

/-- The queue of a service for a project; it is empty if there is no such service. -/
def Broker.queue (b : Broker) (name uuid : String) : List Zmsg :=
  match b.services.lookup name with
  | some srv => srv.queue uuid
  | none => []

/-- The requests for a service and a project among those that have been queued. -/
def requestsFor (queued : List Queued) (name uuid : String) : List Zmsg :=
  (queued.filter fun q => q.service = name ∧ q.uuid = uuid).map Queued.msg

/-- The requests for a service and a project among those that have been sent to workers. -/
def sentFor (dispatched : List Dispatched) (name uuid : String) : List Zmsg :=
  (dispatched.filter fun d => d.service = name ∧ d.uuid = uuid).map Dispatched.msg

/-- What is sent when a request is dispatched. -/
def Dispatched.frames (d : Dispatched) : Zmsg :=
  Zmsg.wrap (mdpwWorker :: mdpwRequest :: d.msg) d.wrk.identity ""

section Queues

variable (b : Broker) (srv : Service) (name n uuid u : String)

lemma Broker.queue_setService :
    (b.setService name srv).queue n u = if n = name then srv.queue u else b.queue n u := by
  rw [queue, lookup_setService]
  split
  next h =>
    by_cases hn : n = name
    · rw [if_pos hn] at h ⊢
      rw [Option.some.inj h]
    · rw [if_neg hn] at h ⊢
      rw [queue, h]
  next h =>
    by_cases hn : n = name
    · rw [if_pos hn] at h
      cases h
    · rw [if_neg hn] at h ⊢
      rw [queue, h]

lemma Broker.queue_detach (p : ℕ) (wrk : Worker) : (b.detach p wrk).queue n u = b.queue n u := by
  rw [queue, queue, lookup_detach]
  by_cases hc : wrk.service = some n
  · rw [if_pos hc]
    cases b.services.lookup n <;> rfl
  · rw [if_neg hc]

lemma Service.queue_takeRequest (rest : List Zmsg) :
    (srv.takeRequest uuid rest).queue u = if u = uuid then rest else srv.queue u := by
  rw [queue, takeRequest]
  by_cases hrest : rest = []
  · by_cases hu : u = uuid
    · rw [if_pos hrest, if_pos hu, hu, lookup_erase, hrest]
      rfl
    · rw [if_pos hrest, if_neg hu, lookup_erase_ne hu]
      rfl
  · by_cases hu : u = uuid
    · rw [if_neg hrest, if_pos hu, hu, lookup_insert]
      rfl
    · rw [if_neg hrest, if_neg hu, lookup_insert_of_ne _ hu]
      rfl

lemma Broker.queue_queueRequest (msg : Zmsg) (hsrv : b.services.lookup name = some srv) :
    (b.queueRequest name srv msg uuid).queue n u =
      b.queue n u ++ if n = name ∧ u = uuid then [msg] else [] := by
  change (b.setService name _).queue n u = _
  rw [queue_setService]
  by_cases hn : n = name
  · rw [if_pos hn, hn]
    have hold : b.queue name u = srv.queue u := by rw [queue, hsrv]
    rw [hold]
    by_cases hu : u = uuid
    · rw [if_pos ⟨rfl, hu⟩, Service.queue, hu, lookup_insert]
      rfl
    · rw [if_neg fun h => hu h.2, append_nil, Service.queue, lookup_insert_of_ne _ hu]
      rfl
  · rw [if_neg hn, if_neg fun h => hn h.1, append_nil]

end Queues

/-! ### Requests are routed -/

/-- The requests that have been queued are those that have been sent and those that are still in the queue,
in this order; they have been sent to workers of the service that serve the project; and nothing else has
been sent as a request. -/
structure Routed (b : Broker) : Prop where
  order : ∀ name uuid, requestsFor b.queued name uuid = sentFor b.dispatched name uuid ++ b.queue name uuid
  served : ∀ d ∈ b.dispatched, d.wrk.service = some d.service ∧ d.wrk.uuid = d.uuid
  sent : b.sent.filter (fun msg => IsRequest msg) = b.dispatched.map Dispatched.frames

lemma routed_initial (heartbeatAt : ℤ) : Routed (Broker.initial heartbeatAt) where
  order _ _ := rfl
  served _ h := by cases h
  sent := rfl

section Routed

variable {again : Prop} {memory : UInt64} {b b' : Broker}

lemma Routed.of_same (h : Routed b) (hqueued : b'.queued = b.queued) (hdispatched : b'.dispatched = b.dispatched)
    (hqueue : ∀ name uuid, b'.queue name uuid = b.queue name uuid)
    (hsent : b'.sent.filter (fun msg => IsRequest msg) = b.sent.filter fun msg => IsRequest msg) : Routed b' where
  order name uuid := by rw [hqueued, hdispatched, hqueue, h.order]
  served := by
    rw [hdispatched]
    exact h.served
  sent := by rw [hsent, hdispatched, h.sent]

lemma Routed.handOver (h : Routed b) {name : String} {srv : Service} {p : ℕ} {wrk : Worker}
    {waiting : List ℕ} {msg : Zmsg} {rest : List Zmsg} (hsrv : b.services.lookup name = some srv)
    (hservice : wrk.service = some name) (hqueue : srv.queue wrk.uuid = msg :: rest) :
    Routed (b.handOver name srv p wrk waiting msg rest) where
  order n u := by
    have hsent : sentFor (b.handOver name srv p wrk waiting msg rest).dispatched n u =
        sentFor b.dispatched n u ++ if name = n ∧ wrk.uuid = u then [msg] else [] := by
      change sentFor (b.dispatched ++ [_]) n u = _
      rw [sentFor, filter_append, map_append]
      congr 1
      by_cases heq : name = n ∧ wrk.uuid = u
      · simp [heq]
      · simp [heq]
    have hnew : (b.handOver name srv p wrk waiting msg rest).queue n u =
        if n = name then (if u = wrk.uuid then rest else srv.queue u) else b.queue n u := by
      change ((b.workerSend wrk mdpwRequest "" msg).setService name _).queue n u = _
      rw [Broker.queue_setService]
      change ite _ ((srv.takeRequest wrk.uuid rest).queue u) _ = _
      rw [Service.queue_takeRequest]
      rfl
    have hold : n = name → b.queue n u = srv.queue u := fun hn => by rw [hn, Broker.queue, hsrv]
    change requestsFor b.queued n u = _
    rw [h.order, hsent, hnew, append_assoc]
    by_cases hn : n = name
    · by_cases hu : u = wrk.uuid
      · rw [hold hn, if_pos ⟨hn.symm, hu.symm⟩, if_pos hn, if_pos hu, hu, hqueue]
        rfl
      · rw [hold hn, if_neg fun hall => hu hall.2.symm, if_pos hn, if_neg hu]
        rfl
    · rw [if_neg fun hall => hn hall.1.symm, if_neg hn]
      rfl
  served d hd := by
    rcases mem_append.mp hd with hd | hd
    · exact h.served d hd
    · obtain rfl := mem_singleton.mp hd
      exact ⟨hservice, rfl⟩
  sent := by
    have hrequest : IsRequest (Zmsg.wrap (mdpwWorker :: mdpwRequest :: msg) wrk.identity "") := ⟨rfl, rfl⟩
    change (b.sent ++ [Zmsg.wrap (mdpwWorker :: mdpwRequest :: msg) wrk.identity ""]).filter _ =
      (b.dispatched ++ [_]).map _
    rw [filter_append, map_append, h.sent, filter_singleton, decide_eq_true hrequest]
    rfl

lemma Move.routed (hmove : Move again memory b b') (hlive : Live b) (h : Routed b) : Routed b' := by
  cases hmove with
  | send msg hmsg =>
    refine h.of_same rfl rfl (fun _ _ => rfl) ?_
    change (b.sent ++ [msg]).filter _ = _
    rw [filter_append, filter_singleton, decide_eq_false hmsg]
    exact append_nil _
  | create name hname =>
    refine h.of_same rfl rfl (fun n u => ?_) rfl
    rw [Broker.queue_setService]
    split
    next hn =>
      rw [hn, Broker.queue, hname]
      rfl
    next => rfl
  | remove p wrk _ =>
    exact h.of_same (b.detach_queued p wrk) (b.detach_dispatched p wrk) (fun n u => b.queue_detach n u p wrk)
      (congrArg _ (b.detach_sent p wrk))
  | attach p wrk info name srv _ _ hsrv =>
    refine h.of_same rfl rfl (fun n u => ?_) rfl
    change ((b.setWorker p _).setService name _).queue n u = _
    rw [Broker.queue_setService]
    split
    next hn =>
      rw [hn, Broker.queue, hsrv]
      rfl
    next => rfl
  | enlist p wrk name srv _ _ hsrv _ =>
    refine h.of_same rfl rfl (fun n u => ?_) rfl
    change (b.setService name _).queue n u = _
    rw [Broker.queue_setService]
    split
    next hn =>
      rw [hn, Broker.queue, hsrv]
      rfl
    next => rfl
  | handOver name srv p wrk before after msg rest hsrv hwaiting hp hqueue =>
    obtain ⟨w, hw, hservice⟩ := hlive.attached name srv hsrv p (by rw [hwaiting]; simp)
    obtain rfl := Option.some.inj (hp.symm.trans hw)
    exact h.handOver hsrv hservice hqueue
  | _ => exact h.of_same rfl rfl (fun _ _ => rfl) rfl

lemma Moves.routed (hmoves : Moves again memory b b') (hlive : Live b) (h : Routed b) : Routed b' := by
  induction hmoves with
  | refl => exact h
  | tail hmoves hmove ih => exact hmove.routed (Moves.live hmoves hlive) ih

lemma Move.queued (hmove : Move again memory b b') : b'.queued = b.queued := by
  cases hmove with
  | remove p wrk _ => exact b.detach_queued p wrk
  | _ => rfl

lemma Moves.queued (hmoves : Moves again memory b b') : b'.queued = b.queued := by
  induction hmoves with
  | refl => rfl
  | tail _ hmove ih => rw [hmove.queued, ih]

lemma Routed.requested (h : Routed b) {request : Option Queued} (hrequested : Requested b request b') :
    Routed b' ∧ b'.queued = b.queued ++ request.toList := by
  cases request with
  | none =>
    obtain rfl : b' = b := hrequested
    exact ⟨h, (append_nil _).symm⟩
  | some q =>
    obtain ⟨srv, hsrv, rfl⟩ := hrequested
    refine ⟨⟨fun n u => ?_, h.served, h.sent⟩, rfl⟩
    have hnew : requestsFor (b.queued ++ [q]) n u =
        requestsFor b.queued n u ++ if n = q.service ∧ u = q.uuid then [q.msg] else [] := by
      rw [requestsFor, filter_append, map_append]
      congr 1
      by_cases heq : q.service = n ∧ q.uuid = u
      · simp [heq]
      · have hne : ¬ (n = q.service ∧ u = q.uuid) := fun hall => heq ⟨hall.1.symm, hall.2.symm⟩
        simp [heq, hne]
    change requestsFor (b.queued ++ [q]) n u = _
    rw [hnew, h.order, Broker.queue_queueRequest _ _ _ _ _ _ _ hsrv, append_assoc]
    rfl

lemma Routed.register (h : Routed b) (identity : String) (iOther : ℤ) : Routed (b.register identity iOther) :=
  h.of_same rfl rfl (fun _ _ => rfl) rfl

end Routed

/-- The request that an event brings. -/
def BrokerEvent.request : BrokerEvent → Option Queued
  | .message parts _ => requestOf parts
  | .tick _ _ => none

section Runs

variable {lib : JsonLib} {debug : Bool} {b b' : Broker}

lemma Routed.step (h : Routed b) (hlive : Live b) {event : BrokerEvent} (hok : b.step lib debug event = .ok b') :
    Routed b' ∧ b'.queued = b.queued ++ event.request.toList := by
  cases event with
  | message parts r =>
    obtain ⟨-, ⟨b1, b2, hmoves, hrequested, hmoves'⟩ | ⟨hnone, sender, command, ⟨_, _, _, hnew⟩, hmoves, -⟩⟩ :=
      process_does True hlive (fun _ => trivial) hok
    · obtain ⟨hrouted, hqueued⟩ := (hmoves.routed hlive h).requested hrequested
      refine ⟨hmoves'.routed (hrequested.live (hmoves.live hlive)) hrouted, ?_⟩
      rw [hmoves'.queued, hqueued, hmoves.queued]
      rfl
    · refine ⟨hmoves.routed (hlive.register hnew r.iOther) (h.register sender r.iOther), ?_⟩
      rw [hmoves.queued, BrokerEvent.request, hnone]
      exact (append_nil _).symm
  | tick sclock r =>
    have hmoves : Moves True 0 b b' := tick_moves_of_ok True 0 hlive hok
    refine ⟨hmoves.routed hlive h, ?_⟩
    rw [hmoves.queued]
    exact (append_nil _).symm

lemma Routed.run (h : Routed b) (hlive : Live b) {events : List BrokerEvent}
    (hrun : runSteps (Broker.step lib debug) b events = .ok b') :
    Routed b' ∧ b'.queued = b.queued ++ events.filterMap BrokerEvent.request := by
  induction events generalizing b with
  | nil =>
    obtain rfl := Except.ok.inj hrun
    exact ⟨h, (append_nil _).symm⟩
  | cons event events ih =>
    rw [runSteps] at hrun
    cases hstep : b.step lib debug event with
    | error e => simp [hstep] at hrun
    | ok b1 =>
      rw [hstep] at hrun
      obtain ⟨hrouted, hqueued⟩ := h.step hlive hstep
      obtain ⟨hrouted', hqueued'⟩ := ih hrouted (hlive.step hstep) hrun
      refine ⟨hrouted', ?_⟩
      rw [hqueued', hqueued, append_assoc, filterMap_cons]
      cases event.request <;> rfl

/-- **Routing.** In every run of the broker the requests of the clients for a service and a project are those
that have been sent to workers, in the order received, followed by those in the queue; every request is sent
to a worker of the service that serves the project. -/
theorem requests_routed (lib : JsonLib) (debug : Bool) (heartbeatAt : ℤ) (events : List BrokerEvent) :
    Ensures (runSteps (Broker.step lib debug) (Broker.initial heartbeatAt) events) fun b =>
      b.queued = events.filterMap BrokerEvent.request ∧ Routed b := by
  intro b hrun
  obtain ⟨hrouted, hqueued⟩ := (routed_initial heartbeatAt).run (live_initial heartbeatAt) hrun
  exact ⟨hqueued, hrouted⟩

end Runs

end Gds
