import ZeroMQ.Gds.BrokerQueues

/-!
# Names of services in the GDS broker

Names that begin with `mmi.` are reserved for the services of the broker itself. The broker looks for them
with `find_first_of ("mmi.")`, which finds the first character that is one of the three, so that every name
of four or more characters that begins with an `m`, an `i` or a dot is one of them; and for a worker that is
ready it looks at the identity of the worker and not at the name of the service.

`Resolved` is what should become of a message as far as the names in it are concerned, and `Resolvable` says
for which messages it does.
-/

namespace Gds

open Foundation List Except

/-! ### Names -/

/-- The name begins with the characters of `mmi.`. -/
def IsInternal (name : String) : Prop := "mmi.".toList <+: name.toList

instance (name : String) : Decidable (IsInternal name) := inferInstanceAs (Decidable (_ <+: _))

lemma IsInternal.isReserved {name : String} (h : IsInternal name) : isReserved name = true := by
  obtain ⟨rest, hrest⟩ := h
  have hlist : name.toList = 'm' :: 'm' :: 'i' :: '.' :: rest := hrest.symm
  have hlen : 4 ≤ name.length := by
    rw [← String.length_toList, hlist]
    simp
  simp [Gds.isReserved, hlen, hlist]

lemma IsInternal.mem_dot {name : String} (h : IsInternal name) : '.' ∈ name.toList :=
  h.subset (by decide)

lemma splitService_address {s u : String} (hs : '.' ∉ s.toList) (hlen : 32 < (s ++ "." ++ u).length) :
    splitService (s ++ "." ++ u) = (s, u) := by
  have hlist : (s ++ "." ++ u).toList = s.toList ++ '.' :: u.toList := by
    simp [String.toList_append]
  have hall : ∀ c ∈ s.toList, decide (c ≠ '.') = true := fun c hc =>
    decide_eq_true fun heq => hs (heq ▸ hc)
  have hmem : '.' ∈ s.toList ++ '.' :: u.toList := by simp
  rw [splitService, if_neg (by omega), hlist, if_pos hmem, takeWhile_append_of_pos hall,
    dropWhile_append_of_pos hall]
  simp

/-! ### What should become of a message -/

/-- The broker answers a request by itself. -/
def AnsweredInternally (b b' : Broker) (sender service : String) (rest : Zmsg) : Prop :=
  b'.queued = b.queued ∧ ∃ body ∈ ["200", "404", "501"],
    b'.sent = b.sent ++ [Zmsg.wrap (Zmsg.wrap (Zmsg.bodySet rest body) mdpcClient service) sender ""]

/-- A request is handled by the name of its service: one that is addressed to a service and a project is
queued for these, the broker answers those for its own services and no others, and the others are queued.
The virtual service is handled apart. -/
structure RequestResolved (b b' : Broker) (sender name : String) (rest : Zmsg) : Prop where
  addressed : ∀ s u, s ≠ "" → '.' ∉ s.toList → name = s ++ "." ++ u → 32 < name.length →
    s ≠ msgVirtualService → b'.queued = b.queued ++ [⟨s, u, Zmsg.wrap rest sender ""⟩]
  internal : (splitService name).1 ≠ msgVirtualService →
    (AnsweredInternally b b' sender (splitService name).1 rest ↔ IsInternal (splitService name).1)
  other : (splitService name).1 ≠ msgVirtualService → ¬IsInternal (splitService name).1 →
    ∃ uuid, b'.queued = b.queued ++ [⟨(splitService name).1, uuid, Zmsg.wrap rest sender ""⟩]

/-- The worker is told that it is not wanted. -/
def Disconnected (b b' : Broker) (sender : String) : Prop :=
  ∃ msgs, b'.sent = b.sent ++ msgs ∧ Zmsg.wrap [mdpwWorker, mdpwDisconnect] sender "" ∈ msgs

/-- The worker is attached to the service it offers, and waits. -/
def Accepted (lib : JsonLib) (r : Readings) (b b' : Broker) (sender service : String) : Prop :=
  ∃ (b₁ : Broker) (p : ℕ) (wrk : Worker) (info : ProjectInfo) (srv : Service), b₁.sent = b.sent ∧
    b₁.heap p = some wrk ∧ wrk.identity = sender ∧ b₁.services.lookup service = some srv ∧
    (b₁.attach p wrk info service srv).workerWaiting lib r p = .ok b'

/-- A worker that is ready is refused if it offers a reserved service, and accepted otherwise. -/
structure ReadyResolved (lib : JsonLib) (r : Readings) (b b' : Broker) (sender service : String) : Prop where
  refused : Disconnected b b' sender ↔ IsInternal service
  accepted : ¬IsInternal service → Accepted lib r b b' sender service

/-- What should become of a message, as far as names are concerned. -/
def Resolved (lib : JsonLib) (r : Readings) (b b' : Broker) (parts : List (List UInt8)) : Prop :=
  match Zmsg.recv parts with
  | sender :: _ :: header :: msg =>
    (header = mdpcClient → ∀ name rest, msg = name :: rest → RequestResolved b b' sender name rest) ∧
    (header = mdpwWorker → ∀ service rest, msg = mdpwReady :: service :: rest →
      ReadyResolved lib r b b' sender service)
  | _ => True

/-- The broker finds a name reserved only if it begins with `mmi.`, and refuses a worker that is ready exactly
if the name it offers does: that is, for a worker that is not registered yet, if it finds the identity of the
worker reserved. -/
def Resolvable (b : Broker) (parts : List (List UInt8)) : Prop :=
  match Zmsg.recv parts with
  | sender :: _ :: header :: msg =>
    (header = mdpcClient → ∀ name ∈ msg.head?, (splitService name).1 = msgVirtualService ∨
      isReserved (splitService name).1 = false ∨ IsInternal (splitService name).1) ∧
    (header = mdpwWorker → ∀ service rest, msg = mdpwReady :: service :: rest →
      ((sender ∈ b.workers ∨ isReserved sender = true) ↔ IsInternal service))
  | _ => True

/-! ### What is sent -/

section Sent

variable {lib : JsonLib} {debug : Bool} {r : Readings} {b b' : Broker}

/-- Nothing but requests has been sent. -/
def SendsRequests (b b' : Broker) : Prop := ∃ msgs, b'.sent = b.sent ++ msgs ∧ ∀ m ∈ msgs, IsRequest m

lemma SendsRequests.of_eq (h : b'.sent = b.sent) : SendsRequests b b' :=
  ⟨[], by rw [h, append_nil], by simp⟩

lemma SendsRequests.trans {b1 : Broker} (h : SendsRequests b b1) (h' : SendsRequests b1 b') :
    SendsRequests b b' := by
  obtain ⟨msgs, hsent, hall⟩ := h
  obtain ⟨msgs', hsent', hall'⟩ := h'
  refine ⟨msgs ++ msgs', by rw [hsent', hsent, append_assoc], fun m hm => ?_⟩
  exact (mem_append.mp hm).elim (hall m) (hall' m)

lemma SendsRequests.not_disconnected (h : SendsRequests b b') (sender : String) :
    ¬Disconnected b b' sender := by
  obtain ⟨msgs, hsent, hall⟩ := h
  rintro ⟨msgs', hsent', hmem⟩
  rw [append_cancel_left (hsent'.symm.trans hsent)] at hmem
  exact absurd (Option.some.inj (hall _ hmem).2) (by decide)

lemma sent_detach (b : Broker) (p : ℕ) (wrk : Worker) : (b.detach p wrk).sent = b.sent := by
  rw [Broker.detach_eq]

lemma sent_workerDelete {p : ℕ} {wrk : Worker} (hp : b.heap p = some wrk) {disconnect : Bool}
    (hok : b.workerDelete lib p disconnect = .ok b') : b'.sent = b.sent ++
      if disconnect then [Zmsg.wrap [mdpwWorker, mdpwDisconnect] wrk.identity ""] else [] := by
  obtain ⟨text, hspec⟩ := workerDelete_spec lib hp disconnect
  rw [← ok.inj (hspec.symm.trans hok)]
  cases disconnect with
  | false => exact (sent_detach _ _ _).trans (append_nil _).symm
  | true => exact sent_detach _ _ _

lemma sent_purgeFrom (now : ℤ) (fuel i : ℕ) :
    Ensures (b.purgeFrom lib now fuel i) fun b' => b'.sent = b.sent := by
  induction fuel generalizing i b with
  | zero => exact .ok rfl
  | succ fuel ih =>
    intro b' hok
    rw [Broker.purgeFrom] at hok
    cases hi : b.waiting[i]? with
    | none =>
      rw [hi] at hok
      rw [ok.inj hok]
    | some p =>
      simp only [hi, Broker.deref] at hok
      cases hp : b.heap p with
      | none =>
        rw [hp] at hok
        cases hok
      | some wrk =>
        simp only [hp] at hok
        split at hok
        · exact ih (i + 1) b' hok
        cases hdelete : b.workerDelete lib p false with
        | error e =>
          rw [hdelete] at hok
          cases hok
        | ok b1 =>
          simp only [hdelete] at hok
          rw [ih i b' hok, sent_workerDelete hp hdelete]
          exact append_nil _

lemma sends_dispatchLoop (name : String) (fuel : ℕ) :
    Ensures (Broker.dispatchLoop name fuel b) (SendsRequests b) := by
  induction fuel generalizing b with
  | zero => exact .ok (.of_eq rfl)
  | succ fuel ih =>
    intro b' hok
    rw [Broker.dispatchLoop] at hok
    cases hsrv : b.services.lookup name with
    | none =>
      rw [hsrv] at hok
      cases hok
    | some srv =>
      simp only [hsrv] at hok
      split at hok
      next =>
        rw [← ok.inj hok]
        exact .of_eq rfl
      obtain ⟨-, -, hrest⟩ := exists_of_bind_ok hok
      obtain ⟨found, -, hfound⟩ := exists_of_bind_ok hrest
      cases found with
      | none =>
        rw [← ok.inj hfound]
        exact .of_eq rfl
      | some wrk =>
        obtain ⟨b1, hdispatch, hloop⟩ := exists_of_bind_ok hfound
        refine SendsRequests.trans ?_ (ih b' hloop)
        obtain ⟨current, -, hhand⟩ := exists_of_bind_ok hdispatch
        split at hhand
        next =>
          rw [← ok.inj hhand]
          exact .of_eq rfl
        rw [← ok.inj hhand]
        refine ⟨_, rfl, fun m hm => ?_⟩
        rw [mem_singleton.mp hm]
        exact ⟨rfl, rfl⟩

lemma sends_serviceDispatch (now : ℤ) (name strUuid : String) :
    Ensures (b.serviceDispatch lib now name none strUuid) (SendsRequests b) := by
  intro b' hok
  unfold Broker.serviceDispatch at hok
  cases hsrv : b.services.lookup name with
  | none =>
    rw [hsrv] at hok
    cases hok
  | some srv =>
    rw [hsrv] at hok
    obtain ⟨b1, hpurge, hloop⟩ := exists_of_bind_ok hok
    have hsent : b1.sent = b.sent := sent_purgeFrom _ _ _ b1 hpurge
    refine SendsRequests.trans (.of_eq hsent) ?_
    split at hloop
    next => cases hloop
    next => exact sends_dispatchLoop name _ b' hloop

lemma sends_workerWaiting (p : ℕ) : Ensures (b.workerWaiting lib r p) (SendsRequests b) := by
  intro b' hok
  obtain ⟨wrk, -, hrest⟩ := exists_of_bind_ok hok
  obtain ⟨⟨name, srv⟩, -, hdispatch⟩ := exists_of_bind_ok hrest
  exact .trans (.of_eq (show ((b.enlist p name srv).seen p wrk r.clock).sent = b.sent from rfl))
    (sends_serviceDispatch r.purge name "" b' hdispatch)

/-! ### Requests -/

variable {rest : Zmsg}

lemma serviceInternal_answered {service sender : String} (hrest : rest ≠ [])
    (hok : b.serviceInternal service (Zmsg.wrap rest sender "") = .ok b') :
    AnsweredInternally b b' sender service rest := by
  have hset : ∀ body, Zmsg.bodySet (Zmsg.wrap rest sender "") body = Zmsg.wrap (Zmsg.bodySet rest body) sender "" := by
    intro body
    obtain ⟨part, rest', rfl⟩ := exists_cons_of_ne_nil hrest
    rfl
  have hanswer : ∀ body, b.answer service (Zmsg.bodySet (Zmsg.wrap rest sender "") body) =
      .ok (b.send (Zmsg.wrap (Zmsg.wrap (Zmsg.bodySet rest body) mdpcClient service) sender "")) := by
    intro body
    rw [hset]
    rfl
  obtain ⟨body, -, hreply⟩ := exists_of_bind_ok hok
  split at hreply
  next =>
    split at hreply
    next => cases hreply
    next srv hsrv =>
      rw [hanswer] at hreply
      rw [← ok.inj hreply]
      refine ⟨rfl, _, ?_, rfl⟩
      split <;> simp
  rw [hanswer] at hreply
  rw [← ok.inj hreply]
  exact ⟨rfl, "501", by simp, rfl⟩

lemma serviceRequire_quiet {memory : UInt64} {name : String}
    (hok : b.serviceRequire memory name = .ok b') : b'.sent = b.sent ∧ b'.queued = b.queued := by
  unfold Broker.serviceRequire at hok
  split at hok
  · cases hok
  split at hok <;>
  · rw [← ok.inj hok]
    exact ⟨rfl, rfl⟩

lemma clientProcess_reserved {sender name : String}
    (hvirtual : (splitService name).1 ≠ msgVirtualService)
    (hreserved : isReserved (splitService name).1 = true)
    (hok : b.clientProcess lib debug r sender (name :: rest) = .ok b') :
    AnsweredInternally b b' sender (splitService name).1 rest := by
  unfold Broker.clientProcess at hok
  split at hok
  next => cases hok
  next hlen =>
    have hrest : rest ≠ [] := by
      rintro rfl
      exact hlen (by simp)
    simp only [Zmsg.popFront, bind, Except.bind] at hok
    rcases hsplit : splitService name with ⟨service, uuid⟩
    rw [hsplit] at hvirtual hreserved hok
    cases hrequire : b.serviceRequire r.memory service with
    | error e =>
      simp only [hrequire] at hok
      cases hok
    | ok b1 =>
      simp only [hrequire, if_neg hvirtual, if_pos hreserved] at hok
      obtain ⟨hsent, hqueued⟩ := serviceRequire_quiet hrequire
      obtain ⟨hq, body, hbody, hs⟩ := serviceInternal_answered hrest hok
      exact ⟨hq.trans hqueued, body, hbody, by rw [hs, hsent]⟩

/-- **Requests.** What becomes of a request that is processed. -/
theorem requestResolved_iff {sender name : String}
    (hqueued : b'.queued = b.queued ++ (clientRequest sender (name :: rest)).toList)
    (hok : b.clientProcess lib debug r sender (name :: rest) = .ok b') :
    RequestResolved b b' sender name rest ↔ (splitService name).1 = msgVirtualService ∨
      isReserved (splitService name).1 = false ∨ IsInternal (splitService name).1 := by
  have haddress : ∀ s u, '.' ∉ s.toList → name = s ++ "." ++ u → 32 < name.length →
      splitService name = (s, u) := by
    rintro s u hs rfl hlen
    exact splitService_address hs hlen
  simp only [clientRequest] at hqueued
  by_cases hvirtual : (splitService name).1 = msgVirtualService
  · refine iff_of_true ⟨fun s u _ hs hname hlen hne => ?_, fun hne => absurd hvirtual hne,
      fun hne => absurd hvirtual hne⟩ (.inl hvirtual)
    rw [haddress s u hs hname hlen] at hvirtual
    exact absurd hvirtual hne
  cases hreserved : isReserved (splitService name).1 with
  | true =>
    have hanswered := clientProcess_reserved hvirtual hreserved hok
    constructor
    · exact fun h => .inr (.inr ((h.internal hvirtual).mp hanswered))
    rintro (hv | hno | hinternal)
    · exact absurd hv hvirtual
    · cases hno
    · refine ⟨fun s u _ hs hname hlen _ => ?_, fun _ => iff_of_true hanswered hinternal,
        fun _ hno => absurd hinternal hno⟩
      rw [haddress s u hs hname hlen] at hinternal
      exact absurd hinternal.mem_dot hs
  | false =>
    have hnot : ¬IsInternal (splitService name).1 := fun hinternal =>
      absurd (hreserved.symm.trans hinternal.isReserved) (by decide)
    rw [if_neg (by simp [hvirtual, hreserved])] at hqueued
    refine iff_of_true ⟨fun s u _ hs hname hlen _ => ?_, fun _ => iff_of_false ?_ hnot,
      fun _ _ => ⟨(splitService name).2, hqueued⟩⟩ (.inr (.inl rfl))
    · rw [haddress s u hs hname hlen] at hqueued
      exact hqueued
    · rintro ⟨hsame, -⟩
      rw [hsame] at hqueued
      simp at hqueued

/-- **Workers that are ready.** What becomes of a worker that is ready. -/
theorem readyResolved_iff (h : Live b) {sender service : String}
    (hok : b.workerProcess lib debug r sender (mdpwReady :: service :: rest) = .ok b') :
    ReadyResolved lib r b b' sender service ↔
      ((sender ∈ b.workers ∨ isReserved sender = true) ↔ IsInternal service) := by
  unfold Broker.workerProcess at hok
  obtain ⟨⟨p, b0⟩, hrequire, hok⟩ := exists_of_bind_ok hok
  have hentered : b0.sent = b.sent ∧ ∃ wrk, b0.heap p = some wrk ∧ wrk.identity = sender := by
    unfold Broker.workerRequire at hrequire
    split at hrequire
    · cases hrequire
    split at hrequire
    next q hq =>
      obtain ⟨rfl, rfl⟩ := Prod.mk.inj (ok.inj hrequire)
      exact ⟨rfl, h.named sender q hq⟩
    obtain ⟨rfl, rfl⟩ := Prod.mk.inj (ok.inj hrequire)
    exact ⟨rfl, _, Function.update_self _ _ _, rfl⟩
  obtain ⟨hsent, wrk, hp, hidentity⟩ := hentered
  have hready : b0.workerReady lib debug r sender (decide (sender ∈ b.workers)) p (service :: rest) = .ok b' :=
    hok
  unfold Broker.workerReady at hready
  by_cases hrefuse : sender ∈ b.workers ∨ isReserved sender = true
  · rw [if_pos (by simpa using hrefuse)] at hready
    have hdisconnected : Disconnected b b' sender :=
      ⟨_, by rw [sent_workerDelete hp hready, hsent], by simp [hidentity]⟩
    constructor
    · exact fun hr => iff_of_true hrefuse (hr.refused.mp hdisconnected)
    · intro hiff
      have hinternal := hiff.mp hrefuse
      exact ⟨iff_of_true hdisconnected hinternal, fun hno => absurd hinternal hno⟩
  · rw [if_neg (by simpa using hrefuse)] at hready
    obtain ⟨⟨name, rest'⟩, hpop, hready⟩ := exists_of_bind_ok hready
    obtain ⟨rfl, rfl⟩ := Prod.mk.inj (ok.inj hpop)
    obtain ⟨body, -, hready⟩ := exists_of_bind_ok hready
    obtain ⟨wrk', hderef, hready⟩ := exists_of_bind_ok hready
    obtain ⟨info, -, hready⟩ := exists_of_bind_ok hready
    obtain ⟨b1, hservice, hready⟩ := exists_of_bind_ok hready
    obtain ⟨hsent1, -⟩ := serviceRequire_quiet hservice
    cases hsrv : b1.services.lookup service with
    | none =>
      rw [hsrv] at hready
      cases hready
    | some srv =>
      rw [hsrv] at hready
      have hheap : b1.heap = b0.heap := by
        unfold Broker.serviceRequire at hservice
        split at hservice
        · cases hservice
        split at hservice
        · rw [← ok.inj hservice]
        · rw [← ok.inj hservice]
          rfl
      have hwrk : wrk' = wrk := by
        rw [Broker.deref, hp] at hderef
        exact (ok.inj hderef).symm
      have haccepted : Accepted lib r b b' sender service :=
        ⟨b1, p, wrk', info, srv, hsent1.trans hsent, by rw [hheap, hp, hwrk], by rw [hwrk, hidentity], hsrv, hready⟩
      have hrequests : SendsRequests b b' :=
        .trans (.of_eq (show (b1.attach p wrk' info service srv).sent = b.sent from hsent1.trans hsent))
          (sends_workerWaiting p b' hready)
      have hno := hrequests.not_disconnected sender
      constructor
      · exact fun hr => iff_of_false hrefuse fun hinternal => hno (hr.refused.mpr hinternal)
      · intro hiff
        have hinternal : ¬IsInternal service := fun hinternal => hrefuse (hiff.mpr hinternal)
        exact ⟨iff_of_false hno hinternal, fun _ => haccepted⟩

/-- **Names.** In every reachable state a message that is processed becomes what it should as far as the names
in it are concerned, exactly if it is one for which the broker finds the right names reserved. -/
theorem names_resolved_iff (lib : JsonLib) (debug : Bool) (b : Broker) (h : b.Reachable lib debug) (r : Readings)
    (parts : List (List UInt8)) (b' : Broker) (hok : b.process lib debug r parts = .ok b') :
    Resolved lib r b b' parts ↔ Resolvable b parts := by
  have hlive := h.live
  have hqueued : b'.queued = b.queued ++ (requestOf parts).toList := by
    obtain ⟨heartbeatAt, events, hrun⟩ := h
    obtain ⟨hrouted, -⟩ := (routed_initial heartbeatAt).run (live_initial heartbeatAt) hrun
    have hstep : b.step lib debug (.message parts r) = .ok b' := hok
    exact (hrouted.step hlive hstep).2
  unfold Resolved Resolvable
  unfold Broker.process at hok
  cases hrecv : Zmsg.recv parts with
  | nil => exact Iff.rfl
  | cons sender rest1 =>
  cases rest1 with
  | nil => exact Iff.rfl
  | cons empty rest2 =>
  cases rest2 with
  | nil => exact Iff.rfl
  | cons header msg =>
  simp only [hrecv, Zmsg.popFront, bind, Except.bind] at hok
  simp only [requestOf, hrecv] at hqueued
  by_cases hclient : header = mdpcClient
  · rw [if_pos hclient] at hok hqueued
    have hworker : header ≠ mdpwWorker := by
      rw [hclient]
      decide
    cases msg with
    | nil =>
      unfold Broker.clientProcess at hok
      cases hok
    | cons name rest =>
      have hiff := requestResolved_iff hqueued hok
      constructor
      · rintro ⟨hresolved, -⟩
        refine ⟨fun _ n hn => ?_, fun heq => absurd heq hworker⟩
        rw [← Option.some.inj hn]
        exact hiff.mp (hresolved hclient name rest rfl)
      · rintro ⟨hresolvable, -⟩
        refine ⟨fun _ n rest' heq => ?_, fun heq => absurd heq hworker⟩
        obtain ⟨rfl, rfl⟩ := List.cons.inj heq
        exact hiff.mpr (hresolvable hclient name rfl)
  rw [if_neg hclient] at hok
  by_cases hworker : header = mdpwWorker
  · rw [if_pos hworker] at hok
    refine and_congr (forall_congr' fun heq => absurd heq hclient) ?_
    refine forall_congr' fun _ => forall_congr' fun service => forall_congr' fun rest => forall_congr' fun heq => ?_
    rw [heq] at hok
    exact readyResolved_iff hlive hok
  · exact and_congr (forall_congr' fun heq => absurd heq hclient) (forall_congr' fun heq => absurd heq hworker)

end Sent

/-- A request for a service and a project is queued for them. -/
theorem names_resolved_echo :
    ∃ b', (Broker.initial 0).process JsonLib.none true Readings.plain
        [bytes "client", [], bytes "MDPC01", bytes "echo.0123456789abcdef0123456789abcdef", bytes "x"] = .ok b' ∧
      b'.queued = [⟨"echo", "0123456789abcdef0123456789abcdef", ["client", "", "x"]⟩] ∧
      (Resolved JsonLib.none Readings.plain (Broker.initial 0) b'
          [bytes "client", [], bytes "MDPC01", bytes "echo.0123456789abcdef0123456789abcdef", bytes "x"] ↔
        Resolvable (Broker.initial 0)
          [bytes "client", [], bytes "MDPC01", bytes "echo.0123456789abcdef0123456789abcdef", bytes "x"]) := by
  exact okAnd.exists_and (by decide +kernel) fun b' hok =>
    names_resolved_iff JsonLib.none true _ ⟨0, [], rfl⟩ Readings.plain _ b' hok

/-- A request for the service `maps` of a project is answered with `501` and not queued; a worker whose
identity begins with an `m` may not offer anything, and another one may offer `mmi.service`. -/
theorem names_not_resolved :
    (∃ b', (Broker.initial 0).process JsonLib.none true Readings.plain
        [bytes "client", [], bytes "MDPC01", bytes "maps.0123456789abcdef0123456789abcdef", bytes "x"] = .ok b' ∧
      ¬Resolved JsonLib.none Readings.plain (Broker.initial 0) b'
        [bytes "client", [], bytes "MDPC01", bytes "maps.0123456789abcdef0123456789abcdef", bytes "x"]) ∧
    (∃ b', (Broker.initial 0).process JsonLib.none true Readings.plain
        [bytes "mike", [], bytes "MDPW01", [1], bytes "echo", bytes "x"] = .ok b' ∧
      ¬Resolved JsonLib.none Readings.plain (Broker.initial 0) b'
        [bytes "mike", [], bytes "MDPW01", [1], bytes "echo", bytes "x"]) ∧
    ∃ b', (Broker.initial 0).process JsonLib.none true Readings.plain
        [bytes "wrkA", [], bytes "MDPW01", [1], bytes "mmi.service", bytes "x"] = .ok b' ∧
      ¬Resolved JsonLib.none Readings.plain (Broker.initial 0) b'
        [bytes "wrkA", [], bytes "MDPW01", [1], bytes "mmi.service", bytes "x"] := by
  refine ⟨?_, ?_, ?_⟩
  · have hrecv : Zmsg.recv [bytes "client", [], bytes "MDPC01", bytes "maps.0123456789abcdef0123456789abcdef",
        bytes "x"] = ["client", "", "MDPC01", "maps.0123456789abcdef0123456789abcdef", "x"] := by decide +kernel
    refine okAnd.exists_imp (P := fun b' => b'.queued = []) (by decide +kernel) ?_
    rintro b' - hqueued hresolved
    have hrequest := hresolved.1 rfl _ _ rfl
    have haddressed := hrequest.addressed "maps" "0123456789abcdef0123456789abcdef" (by decide) (by decide) (by decide)
      (by decide) (by decide)
    rw [hqueued] at haddressed
    simp at haddressed
  · have hrecv : Zmsg.recv [bytes "mike", [], bytes "MDPW01", [1], bytes "echo", bytes "x"] =
        ["mike", "", "MDPW01", mdpwReady, "echo", "x"] := by decide +kernel
    refine okAnd.exists_imp (P := fun b' => b'.sent = [["mike", "", mdpwWorker, mdpwDisconnect]])
      (by decide +kernel) ?_
    rintro b' - hsent hresolved
    have hready := hresolved.2 rfl "echo" ["x"] rfl
    have hinternal := hready.refused.mp ⟨_, hsent, by decide⟩
    exact absurd hinternal (by decide)
  · have hrecv : Zmsg.recv [bytes "wrkA", [], bytes "MDPW01", [1], bytes "mmi.service", bytes "x"] =
        ["wrkA", "", "MDPW01", mdpwReady, "mmi.service", "x"] := by decide +kernel
    refine okAnd.exists_imp (P := fun b' => b'.sent = []) (by decide +kernel) ?_
    rintro b' - hsent hresolved
    have hready := hresolved.2 rfl "mmi.service" ["x"] rfl
    obtain ⟨msgs, hmsgs, hmem⟩ := hready.refused.mpr (by decide)
    rw [hsent] at hmsgs
    have hnil : msgs = [] := hmsgs.symm
    rw [hnil] at hmem
    exact absurd hmem not_mem_nil

end Gds
