import ZeroMQ.Gds.BrokerInput

/-!
# The handlers of the GDS broker

The handlers take the parts of a message off without looking how many there are, and look names up that need
not be there. For each handler there is the exact condition under which it does not fail, in the words of
the message and of the state before it; where it holds the handler ends, after moves. A message from a
worker that is not registered registers it first.

A message that is none leaves the broker as it is, unless it comes from an unknown peer in the name of the
workers: then a worker is registered although the command is not known.
-/

namespace Gds

open Foundation List Option Finmap Except

/-! ### Handlers -/

/-- A handler ends, in a state with a property, exactly if a condition holds; the service of a worker that has
none is read only if `null`. -/
structure Ends (r : Except BrokerFault Broker) (null cond : Prop) (Q : Broker → Prop) : Prop where
  ends : cond → ∃ b', r = .ok b' ∧ Q b'
  only : Succeeds r → cond
  reads : r = .error .nullService → null

section Ends

variable {r : Except BrokerFault Broker} {null null' cond cond' : Prop} {Q Q' : Broker → Prop}

lemma Ends.of_ok (h : ∃ b', r = .ok b' ∧ Q b') : Ends r null True Q where
  ends _ := h
  only _ := trivial
  reads hr := by
    obtain ⟨b', hok, -⟩ := h
    rw [hok] at hr
    cases hr

lemma Ends.of_error {e : BrokerFault} (h : ¬ cond) (hnull : e = .nullService → null := by intro h; cases h) :
    Ends (.error e) null cond Q where
  ends hcond := (h hcond).elim
  only := fun ⟨_, hok⟩ => (by cases hok)
  reads hr := hnull (error.inj hr)

lemma Ends.iff (h : Ends r null cond Q) (hiff : cond ↔ cond') : Ends r null cond' Q where
  ends hc := h.ends (hiff.mpr hc)
  only hr := hiff.mp (h.only hr)
  reads := h.reads

lemma Ends.mono (h : Ends r null cond Q) (hQ : ∀ b, Q b → Q' b) : Ends r null cond Q' where
  ends hc := by
    obtain ⟨b', hok, hb'⟩ := h.ends hc
    exact ⟨b', hok, hQ b' hb'⟩
  only := h.only
  reads := h.reads

lemma Ends.null_mono (h : Ends r null cond Q) (hnull : null → null') : Ends r null' cond Q where
  ends := h.ends
  only := h.only
  reads hr := hnull (h.reads hr)

end Ends

/-- What a service of the broker needs of the body of a request. -/
def Answerable (lib : JsonLib) (debug : Bool) (b : Broker) (serviceName body : String) : Prop :=
  (serviceName = msgVirtualService → ∀ node, lib.parse body = some node → VirtualReadable debug node) ∧
    (serviceName = "mmi.service" → body ∈ b.services ∨ body = serviceName)

/-- What a client may send after the header: the name of a service, and a body that the service can read. -/
def ClientReadable (lib : JsonLib) (debug : Bool) (b : Broker) (msg : Zmsg) : Prop :=
  ∃ name rest body, msg = name :: rest ∧ rest.getLast? = some body ∧ (splitService name).1 ≠ "" ∧
    Answerable lib debug b (splitService name).1 body

section Handlers

variable {lib : JsonLib} {debug : Bool} {again : Prop} {memory : UInt64} {b : Broker} {r : Readings}

lemma serviceRequire_spec (again : Prop) (memory : UInt64) (b : Broker) {name : String} (hname : name ≠ "") :
    ∃ b1 srv, b.serviceRequire memory name = .ok b1 ∧
    b1.services.lookup name = some srv ∧ Moves again memory b b1 ∧ b1.heap = b.heap ∧ b1.waiting = b.waiting ∧
    b1.workers = b.workers ∧ ∀ n, n ∈ b1.services ↔ n ∈ b.services ∨ n = name := by
  rw [Broker.serviceRequire, if_neg hname]
  by_cases hmem : name ∈ b.services
  · obtain ⟨srv, hsrv⟩ := mem_iff.mp hmem
    rw [if_pos hmem]
    refine ⟨b, srv, rfl, hsrv, .refl, rfl, rfl, rfl, fun n => ⟨.inl, ?_⟩⟩
    rintro (hn | rfl)
    · exact hn
    · exact hmem
  · rw [if_neg hmem]
    have hmove : Move again memory b (b.setService name ⟨∅, [], memory⟩) := .create name (lookup_eq_none.mpr hmem)
    refine ⟨_, _, rfl, lookup_insert _, .single hmove, rfl, rfl, rfl, fun n => ?_⟩
    rw [Broker.setService, mem_insert, or_comm]

lemma serviceVirtual_ends (h : Live b) (iOther : ℤ) (serviceName : String) {msg : Zmsg} {body : String}
    (hbody : msg.getLast? = some body) : Ends (b.serviceVirtual lib debug iOther serviceName msg) False
      (∀ node, lib.parse body = some node → VirtualReadable debug node) (Moves again memory b) := by
  have hread : Succeeds (b.virtualBody lib debug iOther body) ↔
    ∀ node, lib.parse body = some node → VirtualReadable debug node := virtualBody_succeeds h iOther body
  rw [← hread]
  simp only [Broker.serviceVirtual, Zmsg.body, hbody, bind, Except.bind]
  cases hvirtual : b.virtualBody lib debug iOther body with
  | error e =>
    have hreads : Yields (b.virtualBody lib debug iOther body) (fun _ => True) (· ≠ .nullService) :=
      virtualBody_reads h iOther body
    rw [hvirtual] at hreads
    exact .of_error (fun ⟨text, htext⟩ => (by cases htext)) fun heq => hreads heq
  | ok text => exact (Ends.of_ok (answer_moves _ (bodySet_ne_nil _ _))).iff (iff_of_true trivial ⟨text, rfl⟩)

lemma serviceInternal_ends (serviceName : String) {msg : Zmsg} {body : String}
    (hbody : msg.getLast? = some body) : Ends (b.serviceInternal serviceName msg) False
      (serviceName = "mmi.service" → body ∈ b.services) (Moves again memory b) := by
  simp only [Broker.serviceInternal, Zmsg.body, hbody, bind, Except.bind]
  split
  next hservice =>
    cases hsrv : b.services.lookup body with
    | none =>
      have hnot : body ∉ b.services := lookup_eq_none.mp hsrv
      exact .of_error fun hcond => hnot (hcond hservice)
    | some srv =>
      have hmem : body ∈ b.services := mem_iff.mpr ⟨srv, hsrv⟩
      exact (Ends.of_ok (answer_moves _ (bodySet_ne_nil _ _))).iff (iff_of_true trivial fun _ => hmem)
  next hservice =>
    exact (Ends.of_ok (answer_moves _ (bodySet_ne_nil _ _))).iff
      (iff_of_true trivial fun heq => absurd heq hservice)

/-- The request of a client that is queued, with the envelope of the client: those for the services of the
broker are not. -/
def clientRequest (sender : String) (msg : Zmsg) : Option Queued :=
  match msg with
  | [] => none
  | name :: rest =>
    if (splitService name).1 = msgVirtualService ∨ isReserved (splitService name).1 then none
    else some ⟨(splitService name).1, (splitService name).2, Zmsg.wrap rest sender ""⟩

/-- A request is queued, if there is one. -/
def Requested (b : Broker) (request : Option Queued) (b' : Broker) : Prop :=
  match request with
  | none => b' = b
  | some q => ∃ srv, b.services.lookup q.service = some srv ∧ b' = b.queueRequest q.service srv q.msg q.uuid

lemma Requested.live {b b' : Broker} {request : Option Queued} (hrequested : Requested b request b')
    (h : Live b) : Live b' := by
  cases request with
  | none =>
    rw [show b' = b from hrequested]
    exact h
  | some q =>
    obtain ⟨srv, hsrv, rfl⟩ := hrequested
    exact h.queueRequest hsrv q.msg q.uuid

/-- Moves, among which a request is queued if there is one. -/
def Takes (again : Prop) (memory : UInt64) (b : Broker) (request : Option Queued) (b' : Broker) : Prop :=
  ∃ b₁ b₂, Moves again memory b b₁ ∧ Requested b₁ request b₂ ∧ Moves again memory b₂ b'

lemma Moves.takes {b b' : Broker} (hmoves : Moves again memory b b') : Takes again memory b none b' :=
  ⟨b, b, .refl, rfl, hmoves⟩

lemma Takes.live {b b' : Broker} {request : Option Queued} (htakes : Takes again memory b request b')
    (h : Live b) : Live b' := by
  obtain ⟨b1, b2, hmoves, hrequested, hmoves'⟩ := htakes
  exact hmoves'.live (hrequested.live (hmoves.live h))

lemma clientProcess_ends (h : Live b) (sender : String) (msg : Zmsg) :
    Ends (b.clientProcess lib debug r sender msg) False (ClientReadable lib debug b msg)
      (Takes again r.memory b (clientRequest sender msg)) := by
  rw [Broker.clientProcess]
  split
  next hlen =>
    refine .of_error ?_
    rintro ⟨name, rest, body, rfl, hbody, -⟩
    rw [length_cons] at hlen
    obtain rfl := length_eq_zero_iff.mp (show rest.length = 0 by omega)
    cases hbody
  next hlen =>
    obtain ⟨name, rest, rfl⟩ := exists_cons_of_ne_nil (show msg ≠ [] by rintro rfl; exact hlen (by decide))
    have hrest : rest ≠ [] := by
      rintro rfl
      exact hlen (by rw [length_singleton]; decide)
    obtain ⟨body, hbody⟩ := isSome_iff_exists.mp (getLast?_isSome.mpr hrest)
    have hcond : ClientReadable lib debug b (name :: rest) ↔
        (splitService name).1 ≠ "" ∧ Answerable lib debug b (splitService name).1 body := by
      constructor
      · rintro ⟨name', rest', body', heq, hbody', hname, hservice⟩
        obtain ⟨rfl, rfl⟩ := cons.inj heq
        obtain rfl := some.inj (hbody.symm.trans hbody')
        exact ⟨hname, hservice⟩
      · exact fun ⟨hname, hservice⟩ => ⟨name, rest, body, rfl, hbody, hname, hservice⟩
    refine Ends.iff ?_ hcond.symm
    simp only [Zmsg.popFront, bind, Except.bind, clientRequest]
    obtain ⟨serviceName, serviceUuid⟩ := splitService name
    have hlast : (Zmsg.wrap rest sender "").getLast? = some body := by
      rw [Zmsg.wrap, getLast?_cons, getLast?_cons, hbody]
      rfl
    by_cases hname : serviceName = ""
    · rw [Broker.serviceRequire, if_pos hname]
      exact .of_error fun hall => hall.1 hname
    obtain ⟨b1, srv, hok, hsrv, hmoves, -, -, -, hservices⟩ := serviceRequire_spec again r.memory b hname
    simp only [hok]
    split
    next hvirtual =>
      rw [if_pos (.inl hvirtual)]
      refine ((serviceVirtual_ends (hmoves.live h) r.iOther serviceName hlast).mono
        fun _ hrest => Moves.takes (hmoves.trans hrest)).iff ?_
      exact ⟨fun hread => ⟨hname, fun _ => hread, fun hmmi => absurd (hmmi.symm.trans hvirtual) (by decide)⟩,
        fun hall => hall.2.1 hvirtual⟩
    next hvirtual =>
      split
      next hreserved =>
        rw [if_pos (.inr hreserved)]
        refine ((serviceInternal_ends serviceName hlast).mono
          fun _ hrest => Moves.takes (hmoves.trans hrest)).iff ?_
        exact ⟨fun hmem => ⟨hname, fun hv => absurd hv hvirtual, fun hmmi => (hservices body).mp (hmem hmmi)⟩,
          fun hall hmmi => (hservices body).mpr (hall.2.2 hmmi)⟩
      next hreserved =>
        rw [if_neg (not_or_intro hvirtual hreserved)]
        refine ((Ends.of_ok (serviceDispatch_moves lib r.purge _ serviceUuid (hmoves.live h) hsrv)).mono
          fun _ hrest => ⟨b1, _, hmoves, ⟨srv, hsrv, rfl⟩, hrest⟩).iff ?_
        exact iff_of_true trivial ⟨hname, fun hv => absurd hv hvirtual,
          fun hmmi => absurd (by rw [hmmi]; decide) hreserved⟩

/-- What a worker sends that is not registered yet and wants to be: the name of a service, and a body with
the project, if it is JSON. -/
def ReadyReadable (lib : JsonLib) (debug : Bool) (msg : Zmsg) : Prop :=
  ∃ name rest body, msg = name :: rest ∧ rest.getLast? = some body ∧ name ≠ "" ∧
    ∀ node, lib.parse body = some node →
      Readable debug node ["OperatorType", "m_projectType"] ["m_strName", "m_strPath", "m_strUUID"]

/-- What a worker may send after the header, with `sender` as its identity: a command, and what the command
needs. -/
def WorkerReadable (lib : JsonLib) (debug : Bool) (b : Broker) (sender : String) (msg : Zmsg) : Prop :=
  sender ≠ "" ∧ ∃ command rest, msg = command :: rest ∧
    (command = mdpwReady → sender ∉ b.workers → isReserved sender = false → ReadyReadable lib debug rest) ∧
    (command = mdpwReply → ∀ p wrk, b.workers.lookup sender = some p → b.heap p = some wrk →
      rest ≠ [] ∧ wrk.service ≠ none) ∧
    (command = mdpwPublish → rest ≠ [])

lemma readProject_succeeds (info : ProjectInfo) (strBody : String) :
    Succeeds (Broker.readProject lib debug r info strBody) ↔ ∀ node, lib.parse strBody = some node →
      Readable debug node ["OperatorType", "m_projectType"] ["m_strName", "m_strPath", "m_strUUID"] := by
  rw [Broker.readProject]
  cases lib.parse strBody with
  | none => exact iff_of_true ⟨info, rfl⟩ fun node hnode => (by cases hnode)
  | some node =>
    simp only [some.injEq, forall_eq']
    rw [Succeeds.map_iff, succeeds_ofJson, ProjectInfo.read_succeeds]

lemma readProject_reads (info : ProjectInfo) (strBody : String) :
    Yields (Broker.readProject lib debug r info strBody) (fun _ => True) (· ≠ .nullService) := by
  rw [Broker.readProject]
  split
  · trivial
  · exact (ofJson_reads _).map

variable {p : ℕ} {wrk : Worker}

lemma workerReady_newcomer (again : Prop) (h : Live b) {sender : String}
    (hp : b.heap p = some wrk) (hwrk : wrk.service = none) (hidle : p ∉ b.waiting)
    (hsender : isReserved sender = false) (msg : Zmsg) :
    Ends (b.workerReady lib debug r sender false p msg) False (ReadyReadable lib debug msg) fun b' =>
      ∃ b1 info name srv, Moves again r.memory b b1 ∧ b1.heap p = some wrk ∧
        b1.services.lookup name = some srv ∧ Moves again r.memory (b1.attach p wrk info name srv) b' := by
  rw [Broker.workerReady, if_neg (by simp [hsender])]
  cases msg with
  | nil =>
    refine .of_error ?_
    rintro ⟨name, rest, body, heq, -⟩
    cases heq
  | cons name rest =>
    simp only [Zmsg.popFront, Zmsg.body, bind, Except.bind]
    cases hbody : rest.getLast? with
    | none =>
      refine .of_error ?_
      rintro ⟨name', rest', body, heq, hbody', -⟩
      rw [(cons.inj heq).2, hbody'] at hbody
      cases hbody
    | some body =>
      have hcond : ReadyReadable lib debug (name :: rest) ↔
          name ≠ "" ∧ Succeeds (Broker.readProject lib debug r wrk.projInfo body) := by
        rw [readProject_succeeds]
        constructor
        · rintro ⟨name', rest', body', heq, hbody', hname, hread⟩
          obtain ⟨rfl, rfl⟩ := cons.inj heq
          obtain rfl := some.inj (hbody.symm.trans hbody')
          exact ⟨hname, hread⟩
        · rintro ⟨hname, hread⟩
          exact ⟨name, rest, body, rfl, hbody, hname, hread⟩
      refine Ends.iff ?_ hcond.symm
      simp only [Broker.deref, hp]
      cases hproject : Broker.readProject lib debug r wrk.projInfo body with
      | error e =>
        have hreads : Yields (Broker.readProject lib debug r wrk.projInfo body) (fun _ => True)
          (· ≠ .nullService) := readProject_reads wrk.projInfo body
        rw [hproject] at hreads
        refine .of_error ?_ fun heq => hreads heq
        rintro ⟨-, info, hinfo⟩
        cases hinfo
      | ok info =>
        by_cases hname : name = ""
        · simp only [Broker.serviceRequire, if_pos hname]
          exact .of_error fun hall => hall.1 hname
        obtain ⟨b1, srv, hok, hsrv, hmoves, hheap, hwaiting, -⟩ := serviceRequire_spec again r.memory b hname
        have hp1 : b1.heap p = some wrk := by rw [hheap, hp]
        have hattach : Move again r.memory b1 (b1.attach p wrk info name srv) :=
          .attach p wrk info name srv hp1 hwrk hsrv
        have hlive := hattach.live (hmoves.live h)
        have hself : (b1.attach p wrk info name srv).heap p =
            some { wrk with service := some name, projInfo := info } := by
          rw [Broker.attach]
          exact (Broker.heap_setWorker _ _ _ _).trans (if_pos rfl)
        have hidle1 : p ∈ (b1.attach p wrk info name srv).waiting → again := fun hmem =>
          absurd (hwaiting ▸ hmem) hidle
        have hwaits : ∃ b', (b1.attach p wrk info name srv).workerWaiting lib r p = .ok b' ∧
            Moves again r.memory (b1.attach p wrk info name srv) b' :=
          workerWaiting_moves lib r hlive hself rfl hidle1
        obtain ⟨b', hwait, hmoves'⟩ := hwaits
        simp only [hok, hsrv, hwait]
        exact (Ends.of_ok ⟨b', rfl, b1, info, name, srv, hmoves, hp1, hsrv, hmoves'⟩).iff
          (iff_of_true trivial ⟨hname, info, rfl⟩)

lemma workerReply_known (h : Live b) (hp : b.heap p = some wrk)
    (hagain : p ∈ b.waiting → again) (msg : Zmsg) :
    Ends (b.workerReply lib r true p msg) (wrk.service = none) (msg ≠ [] ∧ wrk.service ≠ none)
      (Moves again memory b) := by
  rw [Broker.workerReply, if_pos rfl]
  cases msg with
  | nil => exact .of_error fun hcond => hcond.1 rfl
  | cons client rest =>
    simp only [Zmsg.unwrap, Broker.deref, hp, bind, Except.bind, Broker.serviceOf]
    cases hwrk : wrk.service with
    | none => exact .of_error (fun hcond => hcond.2 rfl) fun _ => rfl
    | some name =>
      obtain ⟨srv, hsrv⟩ := h.served p wrk name hp hwrk
      simp only [hsrv]
      have hwaits : ∀ msg : Zmsg, ∃ b', (b.send (Zmsg.wrap (Zmsg.wrap msg mdpcClient name) client
          "")).workerWaiting lib r p = .ok b' ∧ Moves again memory b b' := fun msg => by
        have hsend : Move again memory b (b.send (Zmsg.wrap (Zmsg.wrap msg mdpcClient name) client "")) :=
          .send _ (not_isRequest_answer _ _ _)
        obtain ⟨b', hok, hmoves⟩ := workerWaiting_moves lib r (hsend.live h) hp hwrk hagain
        exact ⟨b', hok, .head hsend hmoves⟩
      exact (Ends.of_ok (hwaits _)).iff (iff_of_true trivial ⟨cons_ne_nil _ _, some_ne_none _⟩)

lemma workerCommand_known (memory : UInt64) (h : Live b) (sender : String)
    (hp : b.heap p = some wrk) (command : String) (msg : Zmsg) (hagain : command = mdpwReply → p ∈ b.waiting → again) :
    Ends (b.workerCommand lib debug r sender true p command msg) (wrk.service = none)
      ((command = mdpwReply → msg ≠ [] ∧ wrk.service ≠ none) ∧ (command = mdpwPublish → msg ≠ []))
      (Moves again memory b) := by
  rw [Broker.workerCommand]
  split
  next hready =>
    rw [Broker.workerReady, if_pos (.inl rfl)]
    refine (Ends.of_ok (workerDelete_moves lib hp true)).iff (iff_of_true trivial ?_)
    rw [hready]
    exact ⟨fun heq => absurd heq (by decide), fun heq => absurd heq (by decide)⟩
  split
  next hreply =>
    refine (workerReply_known h hp (hagain hreply) msg).iff ⟨fun hcond => ⟨fun _ => hcond, fun heq => ?_⟩,
      fun hcond => hcond.1 hreply⟩
    exact absurd (hreply.symm.trans heq) (by decide)
  next hreply =>
  split
  next hpublish =>
    have hcond : (command = mdpwReply → msg ≠ [] ∧ wrk.service ≠ none) ∧ (command = mdpwPublish → msg ≠ []) ↔
        msg ≠ [] := ⟨fun hall => hall.2 hpublish, fun hne => ⟨fun heq => absurd heq hreply, fun _ => hne⟩⟩
    refine Ends.iff ?_ hcond.symm
    cases hbody : msg.getLast? with
    | none =>
      simp only [Zmsg.body, hbody, bind, bind]
      exact .of_error fun hne => hne (getLast?_eq_none_iff.mp hbody)
    | some body =>
      simp only [Zmsg.body, hbody, bind, bind]
      have hne : msg ≠ [] := by
        rintro rfl
        cases hbody
      exact (Ends.of_ok ⟨_, rfl, .single (.publish body)⟩).iff (iff_of_true trivial hne)
  next hpublish =>
  have hcond : (command = mdpwReply → msg ≠ [] ∧ wrk.service ≠ none) ∧ (command = mdpwPublish → msg ≠ []) :=
    ⟨fun heq => absurd heq hreply, fun heq => absurd heq hpublish⟩
  split
  next =>
    rw [Broker.workerHeartbeat, if_pos rfl]
    simp only [Broker.deref, hp, bind, bind]
    exact (Ends.of_ok ⟨_, rfl, .single (.seen p wrk r.clock hp)⟩).iff (iff_of_true trivial hcond)
  split
  next => exact (Ends.of_ok (workerDelete_moves lib hp false)).iff (iff_of_true trivial hcond)
  next => exact (Ends.of_ok ⟨b, rfl, .refl⟩).iff (iff_of_true trivial hcond)

/-- The commands after which a new worker is either attached to a service or deleted. -/
def settling : List String := [mdpwReady, mdpwReply, mdpwHeartbeat, mdpwDisconnect]

lemma workerDelete_newcomer (again : Prop) (memory : UInt64) (lib : JsonLib)
    (hp : b.heap p = some wrk) (disconnect : Bool) :
    ∃ b', b.workerDelete lib p disconnect = .ok b' ∧ Moves again memory b b' ∧ ¬ Orphan b' wrk.identity := by
  have hdelete : ∃ b', b.workerDelete lib p disconnect = .ok b' ∧ Moves again memory b b' :=
    workerDelete_moves lib hp disconnect
  obtain ⟨b', hok, hmoves⟩ := hdelete
  obtain ⟨text, hok'⟩ := workerDelete_spec lib hp disconnect
  obtain rfl := ok.inj (hok.symm.trans hok')
  exact ⟨_, hok, hmoves, not_orphan_remove p wrk⟩

lemma workerCommand_newcomer (again : Prop) (h : Live b) {sender : String}
    (hp : b.heap p = some wrk) (hidentity : wrk.identity = sender) (hwrk : wrk.service = none)
    (hidle : p ∉ b.waiting) (command : String) (msg : Zmsg) :
    Ends (b.workerCommand lib debug r sender false p command msg) False
      ((command = mdpwReady → isReserved sender = false → ReadyReadable lib debug msg) ∧
        (command = mdpwPublish → msg ≠ []))
      fun b' => Moves again r.memory b b' ∧ (command ∈ settling → ¬ Orphan b' sender) := by
  subst hidentity
  have hdelete : ∀ disconnect, ∃ b', b.workerDelete lib p disconnect = .ok b' ∧ Moves again r.memory b b' ∧
      (command ∈ settling → ¬ Orphan b' wrk.identity) := fun disconnect => by
    obtain ⟨b', hok, hmoves, hgone⟩ := workerDelete_newcomer again r.memory lib hp disconnect
    exact ⟨b', hok, hmoves, fun _ => hgone⟩
  rw [Broker.workerCommand]
  split
  next hready =>
    have hpublish : command ≠ mdpwPublish := by
      rw [hready]
      decide
    cases hsender : isReserved wrk.identity with
    | true =>
      rw [Broker.workerReady, if_pos (.inr hsender)]
      exact (Ends.of_ok (hdelete true)).iff
        (iff_of_true trivial ⟨fun _ hnot => (by cases hnot), fun heq => absurd heq hpublish⟩)
    | false =>
      refine ((workerReady_newcomer again h hp hwrk hidle hsender msg).mono ?_).iff
        ⟨fun hread => ⟨fun _ _ => hread, fun heq => absurd heq hpublish⟩, fun hcond => hcond.1 hready rfl⟩
      rintro b' ⟨b1, info, name, srv, hmoves, hp1, hsrv, hmoves'⟩
      have hlive := hmoves.live h
      have hattach : Move again r.memory b1 (b1.attach p wrk info name srv) :=
        .attach p wrk info name srv hp1 hwrk hsrv
      exact ⟨(hmoves.tail hattach).trans hmoves', fun _ horphan =>
        not_orphan_attach hlive hp1 info name srv (hmoves'.orphan horphan)⟩
  next hready =>
  split
  next hreply =>
    rw [Broker.workerReply, if_neg (by decide)]
    refine (Ends.of_ok (hdelete true)).iff (iff_of_true trivial ⟨fun heq => absurd heq hready, fun heq => ?_⟩)
    exact absurd (hreply.symm.trans heq) (by decide)
  split
  next hpublish =>
    have hcond : (command = mdpwReady → isReserved wrk.identity = false → ReadyReadable lib debug msg) ∧
        (command = mdpwPublish → msg ≠ []) ↔ msg ≠ [] :=
      ⟨fun hall => hall.2 hpublish, fun hne => ⟨fun heq => absurd heq hready, fun _ => hne⟩⟩
    refine Ends.iff ?_ hcond.symm
    have hnot : command ∉ settling := by
      rw [hpublish]
      decide
    cases hbody : msg.getLast? with
    | none =>
      simp only [Zmsg.body, hbody, bind, bind]
      exact .of_error fun hne => hne (getLast?_eq_none_iff.mp hbody)
    | some body =>
      simp only [Zmsg.body, hbody, bind, bind]
      have hne : msg ≠ [] := by
        rintro rfl
        cases hbody
      exact (Ends.of_ok ⟨_, rfl, .single (.publish body), fun hmem => absurd hmem hnot⟩).iff
        (iff_of_true trivial hne)
  next hpublish =>
  have hcond : (command = mdpwReady → isReserved wrk.identity = false → ReadyReadable lib debug msg) ∧
      (command = mdpwPublish → msg ≠ []) :=
    ⟨fun heq => absurd heq hready, fun heq => absurd heq hpublish⟩
  split
  next =>
    rw [Broker.workerHeartbeat, if_neg (by decide)]
    exact (Ends.of_ok (hdelete true)).iff (iff_of_true trivial hcond)
  next hheartbeat =>
  split
  next => exact (Ends.of_ok (hdelete false)).iff (iff_of_true trivial hcond)
  next hdisconnect =>
    refine (Ends.of_ok ⟨b, rfl, .refl, fun hmem => ?_⟩).iff (iff_of_true trivial hcond)
    simp_all [settling]

/-- A worker is registered if it is not yet. -/
def Entered (b : Broker) (sender : String) (iOther : ℤ) (b₀ : Broker) : Prop :=
  (sender ∈ b.workers ∧ b₀ = b) ∨ (b.workers.lookup sender = none ∧ b₀ = b.register sender iOther)

lemma workerProcess_ends (h : Live b) (sender : String) (msg : Zmsg)
    (hagain : ∀ rest p, msg = mdpwReply :: rest → b.workers.lookup sender = some p → p ∈ b.waiting → again) :
    Ends (b.workerProcess lib debug r sender msg) (Orphan b sender) (WorkerReadable lib debug b sender msg) fun b' =>
      (∃ b0, Entered b sender r.iOther b0 ∧ Moves again r.memory b0 b') ∧
        (sender ∉ b.workers → (∃ command ∈ settling, msg.head? = some command) → ¬ Orphan b' sender) := by
  cases msg with
  | nil => exact .of_error fun ⟨_, command, rest, heq, _⟩ => (by cases heq)
  | cons command rest =>
    rw [Broker.workerProcess, Broker.workerRequire]
    by_cases hsender : sender = ""
    · rw [if_pos hsender]
      exact .of_error fun hcond => hcond.1 hsender
    rw [if_neg hsender]
    have hcond : WorkerReadable lib debug b sender (command :: rest) ↔
        (command = mdpwReady → sender ∉ b.workers → isReserved sender = false → ReadyReadable lib debug rest) ∧
        (command = mdpwReply → ∀ p wrk, b.workers.lookup sender = some p → b.heap p = some wrk →
          rest ≠ [] ∧ wrk.service ≠ none) ∧ (command = mdpwPublish → rest ≠ []) := by
      constructor
      · rintro ⟨-, command', rest', heq, hall⟩
        obtain ⟨rfl, rfl⟩ := cons.inj heq
        exact hall
      · exact fun hall => ⟨hsender, command, rest, rfl, hall⟩
    refine Ends.iff ?_ hcond.symm
    cases hp : b.workers.lookup sender with
    | some p =>
      obtain ⟨wrk, hwrk, hidentity⟩ := h.named sender p hp
      have hmem : sender ∈ b.workers := mem_iff.mpr ⟨p, hp⟩
      have hknown : decide (sender ∈ b.workers) = true := decide_eq_true hmem
      simp only [bind, bind, hknown]
      refine (((workerCommand_known r.memory h sender hwrk command rest fun heq =>
        hagain rest p (by rw [heq]) hp).mono fun b' hmoves =>
          ⟨⟨b, .inl ⟨hmem, rfl⟩, hmoves⟩, fun hnot => absurd hmem hnot⟩).null_mono fun hnone =>
            ⟨p, wrk, hp, hwrk, hnone⟩).iff ?_
      constructor
      · refine fun hall => ⟨fun _ hnot => absurd hmem hnot, fun heq q w hq hw => ?_, hall.2⟩
        obtain rfl := some.inj hq
        rw [hwrk] at hw
        rw [← some.inj hw]
        exact hall.1 heq
      · exact fun hall => ⟨fun heq => hall.2.1 heq p wrk rfl hwrk, hall.2.2⟩
    | none =>
      have hmem : sender ∉ b.workers := lookup_eq_none.mp hp
      have hknown : decide (sender ∈ b.workers) = false := decide_eq_false hmem
      have hlive := h.register hp r.iOther
      have hself : (b.register sender r.iOther).heap b.fresh = some (Worker.new sender r.iOther) :=
        (Function.update_apply _ _ _ _).trans (if_pos rfl)
      have hidle : b.fresh ∉ (b.register sender r.iOther).waiting := fun hwaiting => by
        obtain ⟨wrk, hwrk⟩ := h.listed b.fresh hwaiting
        rw [h.fresh _ le_rfl] at hwrk
        cases hwrk
      simp only [bind, bind, hknown]
      refine Ends.iff (Ends.mono (Ends.null_mono (workerCommand_newcomer again hlive hself rfl rfl hidle command
        rest) False.elim) ?_) ?_
      · rintro b' ⟨hmoves, hsettled⟩
        refine ⟨⟨_, .inr ⟨hp, rfl⟩, hmoves⟩, ?_⟩
        rintro - ⟨c, hc, heq⟩
        obtain rfl := some.inj heq
        exact hsettled hc
      · exact ⟨fun hall => ⟨fun heq _ => hall.1 heq, fun _ q w hq => (by cases hq), hall.2⟩,
          fun hall => ⟨fun heq => hall.1 heq hmem, hall.2.2⟩⟩

end Handlers

/-! ### Events -/

/-- The commands a worker may send. -/
def workerCommands : List String := [mdpwReady, mdpwReply, mdpwHeartbeat, mdpwDisconnect, mdpwPublish]

/-- The parts are those of a message the broker can read: there are three for the envelope, and the rest is as
the header wants it. -/
def InputReadable (lib : JsonLib) (debug : Bool) (b : Broker) (parts : List (List UInt8)) : Prop :=
  ∃ sender empty header msg, Zmsg.recv parts = sender :: empty :: header :: msg ∧
    (header = mdpcClient → ClientReadable lib debug b msg) ∧
    (header = mdpwWorker → WorkerReadable lib debug b sender msg)

/-- A worker that waits sends a reply. -/
def Broker.AnswersWaiting (b : Broker) (parts : List (List UInt8)) : Prop :=
  match Zmsg.recv parts with
  | sender :: _ :: header :: command :: _ =>
    header = mdpwWorker ∧ command = mdpwReply ∧ ∃ p ∈ b.workers.lookup sender, p ∈ b.waiting
  | _ => False

instance (b : Broker) (parts : List (List UInt8)) : Decidable (b.AnswersWaiting parts) := by
  unfold Broker.AnswersWaiting
  split <;> infer_instance

/-- A worker that is not registered sends a command. -/
def Broker.Introduces (b : Broker) (parts : List (List UInt8)) (sender command : String) : Prop :=
  ∃ empty rest, Zmsg.recv parts = sender :: empty :: mdpwWorker :: command :: rest ∧ b.workers.lookup sender = none

/-- The request that a message brings. -/
def requestOf (parts : List (List UInt8)) : Option Queued :=
  match Zmsg.recv parts with
  | sender :: _ :: header :: msg => if header = mdpcClient then clientRequest sender msg else none
  | _ => none

section Events

variable {lib : JsonLib} {debug : Bool} {again : Prop} {b b' : Broker} {r : Readings}

/-- What a message does: the request it brings is queued, or the worker it comes from is registered, and the
rest are moves. -/
def Does (again : Prop) (r : Readings) (b : Broker) (parts : List (List UInt8)) (b' : Broker) : Prop :=
  Takes again r.memory b (requestOf parts) b' ∨
    (requestOf parts = none ∧ ∃ sender command, b.Introduces parts sender command ∧
      Moves again r.memory (b.register sender r.iOther) b' ∧ (command ∈ settling → ¬ Orphan b' sender))

lemma process_ends (h : Live b) (parts : List (List UInt8)) (hagain : b.AnswersWaiting parts → again) :
    Ends (b.process lib debug r parts) (∃ sender, Orphan b sender) (InputReadable lib debug b parts)
      (Does again r b parts) := by
  rw [Broker.process]
  cases hrecv : Zmsg.recv parts with
  | nil => exact .of_error fun ⟨_, _, _, _, heq, _⟩ => (by rw [hrecv] at heq; cases heq)
  | cons sender rest1 =>
  cases rest1 with
  | nil => exact .of_error fun ⟨_, _, _, _, heq, _⟩ => (by rw [hrecv] at heq; cases heq)
  | cons empty rest2 =>
  cases rest2 with
  | nil => exact .of_error fun ⟨_, _, _, _, heq, _⟩ => (by rw [hrecv] at heq; cases heq)
  | cons header msg =>
  have hcond : InputReadable lib debug b parts ↔ (header = mdpcClient → ClientReadable lib debug b msg) ∧
      (header = mdpwWorker → WorkerReadable lib debug b sender msg) := by
    constructor
    · rintro ⟨sender', empty', header', msg', heq, hall⟩
      rw [hrecv] at heq
      simp only [cons.injEq] at heq
      obtain ⟨rfl, rfl, rfl, rfl⟩ := heq
      exact hall
    · exact fun hall => ⟨sender, empty, header, msg, hrecv, hall⟩
  refine Ends.iff ?_ hcond.symm
  simp only [Zmsg.popFront, bind, Except.bind]
  by_cases hclient : header = mdpcClient
  · have hrequest : requestOf parts = clientRequest sender msg := by simp only [requestOf, hrecv, if_pos hclient]
    rw [if_pos hclient]
    refine (((clientProcess_ends h sender msg).mono fun _ htakes =>
      .inl (hrequest ▸ htakes)).null_mono False.elim).iff
      ⟨fun hread => ⟨fun _ => hread, fun heq => ?_⟩, fun hall => hall.1 hclient⟩
    exact absurd (hclient.symm.trans heq) (by decide)
  have hrequest : requestOf parts = none := by simp only [requestOf, hrecv, if_neg hclient]
  rw [if_neg hclient]
  by_cases hworker : header = mdpwWorker
  · rw [if_pos hworker]
    have hagain' : ∀ rest p, msg = mdpwReply :: rest → b.workers.lookup sender = some p → p ∈ b.waiting →
        again := by
      rintro rest p rfl hp hwaiting
      refine hagain ?_
      rw [Broker.AnswersWaiting, hrecv]
      exact ⟨hworker, rfl, p, hp, hwaiting⟩
    have hread : WorkerReadable lib debug b sender msg ↔ (header = mdpcClient → ClientReadable lib debug b msg) ∧
        (header = mdpwWorker → WorkerReadable lib debug b sender msg) :=
      ⟨fun hread => ⟨fun heq => absurd heq hclient, fun _ => hread⟩, fun hall => hall.2 hworker⟩
    refine Ends.iff ?_ hread
    cases msg with
    | nil =>
      refine .of_error ?_
      rintro ⟨-, command, rest, heq, -⟩
      cases heq
    | cons command rest =>
      refine ((workerProcess_ends h sender _ hagain').mono ?_).null_mono fun horphan => ⟨sender, horphan⟩
      rintro b' ⟨⟨b0, ⟨-, rfl⟩ | ⟨hnone, rfl⟩, hmoves⟩, hsettled⟩
      · exact .inl (hrequest ▸ hmoves.takes)
      · have hintro : b.Introduces parts sender command := ⟨empty, rest, by rw [hrecv, hworker], hnone⟩
        refine .inr ⟨hrequest, sender, command, hintro, hmoves, fun hmem => ?_⟩
        exact hsettled (lookup_eq_none.mp hnone) ⟨command, hmem, rfl⟩
  · rw [if_neg hworker]
    have hdoes : Does again r b parts b := .inl (hrequest ▸ Moves.takes .refl)
    exact (Ends.of_ok ⟨b, rfl, hdoes⟩).iff
      (iff_of_true trivial ⟨fun heq => absurd heq hclient, fun heq => absurd heq hworker⟩)

lemma process_does (again : Prop) (h : Live b) {parts : List (List UInt8)}
    (hagain : b.AnswersWaiting parts → again) (hok : b.process lib debug r parts = .ok b') :
    InputReadable lib debug b parts ∧ Does again r b parts b' := by
  have hcond : InputReadable lib debug b parts := (process_ends h parts hagain).only ⟨b', hok⟩
  obtain ⟨b'', hok', hdoes⟩ := (process_ends (r := r) h parts hagain).ends hcond
  obtain rfl := ok.inj (hok.symm.trans hok')
  exact ⟨hcond, hdoes⟩

lemma tick_moves_of_ok (again : Prop) (memory : UInt64) (h : Live b) {sclock : ℤ}
    (hok : b.tick lib r sclock = .ok b') : Moves again memory b b' := by
  obtain ⟨b'', hok', hmoves⟩ := tick_moves lib r sclock h
  obtain rfl := ok.inj (hok.symm.trans hok')
  exact hmoves

lemma Live.step (h : Live b) {event : BrokerEvent} (hok : b.step lib debug event = .ok b') : Live b' := by
  cases event with
  | message parts r =>
    obtain ⟨-, htakes | ⟨-, sender, command, ⟨_, _, _, hnone⟩, hmoves, -⟩⟩ :=
      process_does True h (fun _ => trivial) hok
    · exact htakes.live h
    · exact hmoves.live (h.register hnone r.iOther)
  | tick sclock r => exact (tick_moves_of_ok True 0 h hok).live h

/-- The broker can get into the state. -/
def Broker.Reachable (lib : JsonLib) (debug : Bool) (b : Broker) : Prop :=
  ∃ heartbeatAt events, runSteps (Broker.step lib debug) (Broker.initial heartbeatAt) events = .ok b

lemma Broker.Reachable.live (h : b.Reachable lib debug) : Live b := by
  obtain ⟨heartbeatAt, events, hrun⟩ := h
  have hmeet : StepsMeet (Broker.step lib debug) (fun _ _ => True) (Broker.initial heartbeatAt) events :=
    stepsMeet_of_forall (fun _ _ _ => trivial) _
  exact runSteps_preserves (fun _ _ _ hlive _ hok => hlive.step hok) (live_initial heartbeatAt) hmeet hrun

/-! ### Messages that are none -/

/-- The parts are a message of a client or of a worker: the header says which, a client names a service and
sends a body, and a worker sends a command. -/
def ValidMessage (parts : List (List UInt8)) : Prop :=
  match Zmsg.recv parts with
  | _ :: _ :: header :: msg => (header = mdpcClient ∧ 2 ≤ msg.length) ∨
      (header = mdpwWorker ∧ ∃ command ∈ workerCommands, msg.head? = some command)
  | _ => False

/-- Services, workers and queues are the same. -/
structure Unchanged (b b' : Broker) : Prop where
  services : b'.services = b.services
  workers : b'.workers = b.workers
  waiting : b'.waiting = b.waiting
  heap : b'.heap = b.heap

/-- A command that is not known is from a worker that is registered. -/
def KnownPeer (b : Broker) (parts : List (List UInt8)) : Prop :=
  ∀ sender command, command ∉ workerCommands → ¬ b.Introduces parts sender command

lemma workerCommand_unknown {sender command : String} {known : Bool} {p : ℕ} {msg : Zmsg}
    (hcommand : command ∉ workerCommands) : b.workerCommand lib debug r sender known p command msg = .ok b := by
  simp only [workerCommands, mem_cons, not_mem_nil, or_false, not_or] at hcommand
  obtain ⟨hready, hreply, hheartbeat, hdisconnect, hpublish⟩ := hcommand
  rw [Broker.workerCommand, if_neg hready, if_neg hreply, if_neg hpublish, if_neg hheartbeat, if_neg hdisconnect]

lemma process_invalid {parts : List (List UInt8)} (hinvalid : ¬ ValidMessage parts)
    (hok : b.process lib debug r parts = .ok b') :
    (b' = b ∧ ∀ sender command, ¬ b.Introduces parts sender command) ∨
      ∃ sender command, command ∉ workerCommands ∧ b.Introduces parts sender command ∧
        b' = b.register sender r.iOther := by
  cases hrecv : Zmsg.recv parts with
  | nil => simp [Broker.process, hrecv, Zmsg.popFront, bind, Except.bind] at hok
  | cons sender rest1 =>
  cases rest1 with
  | nil => simp [Broker.process, hrecv, Zmsg.popFront, bind, Except.bind] at hok
  | cons empty rest2 =>
  cases rest2 with
  | nil => simp [Broker.process, hrecv, Zmsg.popFront, bind, Except.bind] at hok
  | cons header msg =>
  simp only [ValidMessage, hrecv, not_or] at hinvalid
  simp only [Broker.process, hrecv, Zmsg.popFront, bind, Except.bind] at hok
  by_cases hclient : header = mdpcClient
  · have hshort : msg.length < 2 := Nat.lt_of_not_le fun hlen => hinvalid.1 ⟨hclient, hlen⟩
    rw [if_pos hclient, Broker.clientProcess, if_pos hshort] at hok
    cases hok
  rw [if_neg hclient] at hok
  by_cases hworker : header = mdpwWorker
  · rw [if_pos hworker] at hok
    cases msg with
    | nil => cases hok
    | cons command rest =>
      have hcommand : command ∉ workerCommands := fun hmem => hinvalid.2 ⟨hworker, command, hmem, rfl⟩
      rw [Broker.workerProcess, Broker.workerRequire] at hok
      by_cases hsender : sender = ""
      · rw [if_pos hsender] at hok
        cases hok
      rw [if_neg hsender] at hok
      cases hp : b.workers.lookup sender with
      | some p =>
        simp only [hp, bind, Except.bind, workerCommand_unknown hcommand] at hok
        refine .inl ⟨(ok.inj hok).symm, ?_⟩
        rintro sender' command' ⟨empty', rest', heq, hnone⟩
        rw [← (cons.inj (hrecv.symm.trans heq)).1, hp] at hnone
        cases hnone
      | none =>
        simp only [hp, bind, Except.bind, workerCommand_unknown hcommand] at hok
        exact .inr ⟨sender, command, hcommand, ⟨empty, rest, by rw [hrecv, hworker], hp⟩, (ok.inj hok).symm⟩
  · rw [if_neg hworker] at hok
    refine .inl ⟨(ok.inj hok).symm, ?_⟩
    rintro sender' command' ⟨empty', rest', heq, -⟩
    rw [hrecv] at heq
    simp only [cons.injEq] at heq
    exact hworker heq.2.2.1

/-- **The broker and its input.** In every reachable state a message is processed without a fault, and leaves
the broker as it is if it is none, exactly if it can be read and, should its command be unknown, comes from a
worker that is registered. -/
theorem process_total (lib : JsonLib) (debug : Bool) (b : Broker) (h : b.Reachable lib debug) (r : Readings)
    (parts : List (List UInt8)) :
    (∃ b', b.process lib debug r parts = .ok b' ∧ (¬ ValidMessage parts → Unchanged b b')) ↔
      InputReadable lib debug b parts ∧ KnownPeer b parts := by
  constructor
  · rintro ⟨b', hok, hunchanged⟩
    refine ⟨(process_does True h.live (fun _ => trivial) hok).1, fun sender command hcommand hintro => ?_⟩
    have hintro' := hintro
    obtain ⟨empty, rest, hrecv, hnone⟩ := hintro
    have hinvalid : ¬ ValidMessage parts := by
      rw [ValidMessage, hrecv]
      rintro (⟨hheader, -⟩ | ⟨-, c, hc, hhead⟩)
      · exact absurd hheader (by decide)
      · obtain rfl := some.inj hhead
        exact hcommand hc
    obtain ⟨-, hnot⟩ | ⟨sender', command', -, ⟨_, _, -, hnone'⟩, rfl⟩ := process_invalid hinvalid hok
    · exact hnot sender command hintro'
    · have hregistered : sender' ∈ (b.register sender' r.iOther).workers := mem_insert.mpr (.inl rfl)
      rw [(hunchanged hinvalid).workers] at hregistered
      exact lookup_eq_none.mp hnone' hregistered
  · rintro ⟨hread, hknown⟩
    obtain ⟨b', hok, -⟩ := (process_ends (r := r) h.live parts fun _ => trivial).ends hread
    refine ⟨b', hok, fun hinvalid => ?_⟩
    obtain ⟨rfl, -⟩ | ⟨sender, command, hcommand, hintro, -⟩ := process_invalid hinvalid hok
    · exact ⟨rfl, rfl, rfl, rfl⟩
    · exact absurd hintro (hknown sender command hcommand)

end Events

/-! ### Examples -/

/-- A library that knows no texts. -/
def JsonLib.none : JsonLib := ⟨fun _ => "", fun _ => Option.none⟩

/-- The bytes of a text. -/
def bytes (text : String) : List UInt8 := text.toList.map fun c => UInt8.ofNat c.toNat

/-- Readings of no interest. -/
def Readings.plain : Readings := ⟨0, 0, 0, 0⟩

/-- A request of a client is processed. -/
theorem process_total_request : ∃ b', (Broker.initial 0).process JsonLib.none true Readings.plain
    [bytes "client", [], bytes "MDPC01", bytes "echo", bytes "hello"] = .ok b' ∧
      (¬ ValidMessage [bytes "client", [], bytes "MDPC01", bytes "echo", bytes "hello"] →
        Unchanged (Broker.initial 0) b') := by
  have hrecv : Zmsg.recv [bytes "client", [], bytes "MDPC01", bytes "echo", bytes "hello"] =
    ["client", "", "MDPC01", "echo", "hello"] := by decide +kernel
  refine (process_total JsonLib.none true (Broker.initial 0) ⟨0, [], rfl⟩ Readings.plain _).mpr ⟨?_, ?_⟩
  · refine ⟨"client", "", "MDPC01", ["echo", "hello"], hrecv, fun _ => ?_, fun h => absurd h (by decide)⟩
    exact ⟨"echo", ["hello"], "hello", rfl, rfl, by decide, fun h => absurd h (by decide),
      fun h => absurd h (by decide)⟩
  · rintro sender command - ⟨empty, rest, heq, -⟩
    rw [hrecv] at heq
    simp only [cons.injEq] at heq
    exact absurd heq.2.2.1 (by decide)

/-- Messages from any peer make the broker fail: two parts, a request without a body, a request for
information about a service that is not there, and an unknown peer that publishes and then replies. -/
theorem process_not_total :
    (Broker.initial 0).process JsonLib.none false Readings.plain [bytes "peer", []] = .error .nullString ∧
    (Broker.initial 0).process JsonLib.none false Readings.plain
      [bytes "peer", [], bytes "MDPC01", bytes "echo"] = .error .assertion ∧
    (Broker.initial 0).process JsonLib.none false Readings.plain
      [bytes "peer", [], bytes "MDPC01", bytes "mmi.service", bytes "echo"] = .error .outOfRange ∧
    (runSteps (Broker.step JsonLib.none false) (Broker.initial 0)
      [.message [bytes "peer", [], bytes "MDPW01", [6], bytes "news"] Readings.plain,
        .message [bytes "peer", [], bytes "MDPW01", [3], bytes "client"] Readings.plain] =
      .error .nullService) := by
  refine ⟨rfl, rfl, rfl, rfl⟩

end Gds
