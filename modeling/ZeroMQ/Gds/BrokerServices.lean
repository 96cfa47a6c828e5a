import ZeroMQ.Gds.BrokerHandlers

/-!
# Workers and their services in the GDS broker

A worker is registered by its first message, whatever the command, and gets a service by `MDPW_READY` only;
a `MDPW_PUBLISH`, or a command that is not known, leaves it without one, and its reply then reads a service
that is not there. The counter of a service is changed with every worker that is attached or removed, but
the constructor does not set it. So the workers have services and the counters are right in the runs in
which the memory of new counters is zero and a new worker introduces itself by another command.
-/

namespace Gds

open Foundation Function Option Finmap Finset

/-! ### Counters -/

/-- The service of the worker that is registered under an identity. -/
def Broker.serviceFor (b : Broker) (identity : String) : Option String :=
  ((b.workers.lookup identity).bind b.heap).bind Worker.service

/-- The number of workers that are registered and belong to a service. -/
def Broker.registered (b : Broker) (name : String) : ℕ :=
  (b.workers.keys.filter fun identity => b.serviceFor identity = some name).card

/-- The counter of every service is the number of its workers. -/
def Counted (b : Broker) : Prop :=
  ∀ name srv, b.services.lookup name = some srv → srv.workers = UInt64.ofNat (b.registered name)

/-- Every worker that is registered belongs to a service. -/
def AllServed (b : Broker) : Prop :=
  ∀ identity p, b.workers.lookup identity = some p → ∃ wrk name, b.heap p = some wrk ∧ wrk.service = some name

lemma allServed_of_not_orphan {b : Broker} (hlive : Live b) (h : ∀ identity, ¬ Orphan b identity) :
    AllServed b := by
  intro identity p hp
  obtain ⟨wrk, hwrk, -⟩ := hlive.named identity p hp
  obtain ⟨name, hname⟩ := ne_none_iff_exists'.mp fun hnone => h identity ⟨p, wrk, hp, hwrk, hnone⟩
  exact ⟨wrk, name, hwrk, hname⟩

section Counters

variable {again : Prop} {b b' : Broker}

variable {wrk wrk' : Worker}

lemma Live.serviceFor (h : Live b) {p : ℕ} (hp : b.heap p = some wrk) :
    b.serviceFor wrk.identity = wrk.service := by
  rw [Broker.serviceFor, h.registered p wrk hp, bind_some, hp, bind_some]

lemma Counted.of_same (h : Counted b)
    (hservices : ∀ name srv, b'.services.lookup name = some srv →
      ∃ srv0, b.services.lookup name = some srv0 ∧ srv.workers = srv0.workers)
    (hregistered : ∀ name, b'.registered name = b.registered name) : Counted b' := by
  intro name srv hsrv
  obtain ⟨srv0, hsrv0, heq⟩ := hservices name srv hsrv
  rw [heq, hregistered]
  exact h name srv0 hsrv0

variable {name identity : String}

lemma Counted.setService (h : Counted b) {srv srv' : Service}
    (hsrv : b.services.lookup name = some srv) (heq : srv'.workers = srv.workers) :
    Counted (b.setService name srv') := by
  refine h.of_same (fun n srv1 hsrv1 => ?_) fun n => rfl
  rw [Broker.lookup_setService] at hsrv1
  split at hsrv1
  next hn =>
    rw [hn, ← some.inj hsrv1]
    exact ⟨srv, hsrv, heq⟩
  next => exact ⟨srv1, hsrv1, rfl⟩

lemma registered_succ (hmem : identity ∈ b.workers) (hkeys : b'.workers = b.workers)
    (hnew : b'.serviceFor identity = some name) (hold : b.serviceFor identity = none)
    (hother : ∀ i, i ≠ identity → b'.serviceFor i = b.serviceFor i) (n : String) :
    b'.registered n = b.registered n + if n = name then 1 else 0 := by
  by_cases hn : n = name
  · have hinsert : b'.workers.keys.filter (fun i => b'.serviceFor i = some n) =
        insert identity (b.workers.keys.filter fun i => b.serviceFor i = some n) := by
      ext i
      rw [Finset.mem_insert, Finset.mem_filter, Finset.mem_filter, hkeys]
      by_cases hi : i = identity
      · rw [hi, hnew, hn]
        exact iff_of_true ⟨Finmap.mem_keys.mpr hmem, rfl⟩ (.inl rfl)
      · rw [hother i hi]
        exact ⟨.inr, fun hor => hor.resolve_left hi⟩
    have hnot : identity ∉ b.workers.keys.filter fun i => b.serviceFor i = some n := fun hin => by
      rw [Finset.mem_filter, hold] at hin
      cases hin.2
    rw [if_pos hn, Broker.registered, hinsert, Finset.card_insert_of_notMem hnot]
    rfl
  · rw [if_neg hn, Nat.add_zero, Broker.registered, Broker.registered, hkeys]
    congr 1
    refine Finset.filter_congr fun i _ => ?_
    by_cases hi : i = identity
    · rw [hi, hnew, hold]
      exact iff_of_false (fun heq => hn (some.inj heq).symm) (fun heq => (by cases heq))
    · rw [hother i hi]

lemma registered_pred (hmem : identity ∈ b.workers)
    (hkeys : b'.workers = b.workers.erase identity)
    (hother : ∀ i, i ≠ identity → b'.serviceFor i = b.serviceFor i) (n : String) :
    b.registered n = b'.registered n + if b.serviceFor identity = some n then 1 else 0 := by
  have herase : b'.workers.keys.filter (fun i => b'.serviceFor i = some n) =
      (b.workers.keys.filter fun i => b.serviceFor i = some n).erase identity := by
    ext i
    rw [Finset.mem_erase, Finset.mem_filter, Finset.mem_filter, hkeys, Finmap.mem_keys, Finmap.mem_erase,
      Finmap.mem_keys]
    constructor
    · rintro ⟨⟨hi, hin⟩, heq⟩
      exact ⟨hi, hin, by rw [← hother i hi]; exact heq⟩
    · rintro ⟨hi, hin, heq⟩
      exact ⟨⟨hi, hin⟩, by rw [hother i hi]; exact heq⟩
  rw [Broker.registered, Broker.registered, herase]
  by_cases hn : b.serviceFor identity = some n
  · have hin : identity ∈ b.workers.keys.filter fun i => b.serviceFor i = some n :=
      Finset.mem_filter.mpr ⟨Finmap.mem_keys.mpr hmem, hn⟩
    rw [if_pos hn, Finset.card_erase_add_one hin]
  · have hnot : identity ∉ b.workers.keys.filter fun i => b.serviceFor i = some n := fun hin =>
      hn (Finset.mem_filter.mp hin).2
    rw [if_neg hn, Finset.erase_eq_of_notMem hnot, Nat.add_zero]

lemma serviceFor_setWorker (hlive : Live b) {p : ℕ} (hp : b.heap p = some wrk) (i : String) :
    (b.setWorker p wrk').serviceFor i = if i = wrk.identity then wrk'.service else b.serviceFor i := by
  change (((b.workers.lookup i).bind (b.setWorker p wrk').heap).bind Worker.service) = _
  cases hi : b.workers.lookup i with
  | none =>
    have hne : i ≠ wrk.identity := by
      rintro rfl
      rw [hlive.registered p wrk hp] at hi
      cases hi
    rw [if_neg hne, Broker.serviceFor, hi]
    rfl
  | some q =>
    rw [bind_some, Broker.heap_setWorker]
    obtain ⟨w, hw, hid⟩ := hlive.named i q hi
    by_cases hq : q = p
    · rw [hq, hp] at hw
      rw [if_pos hq, if_pos (by rw [← hid, some.inj hw])]
      rfl
    · have hne : i ≠ wrk.identity := by
        rintro rfl
        rw [hlive.registered p wrk hp] at hi
        exact hq (some.inj hi).symm
      rw [if_neg hq, if_neg hne, Broker.serviceFor, hi]
      rfl

lemma Counted.create (h : Counted b) (hlive : Live b) {name : String} (hname : b.services.lookup name = none) :
    Counted (b.setService name ⟨∅, [], 0⟩) := by
  intro n srv hsrv
  rw [Broker.lookup_setService] at hsrv
  split at hsrv
  next hn =>
    have hempty : b.workers.keys.filter (fun i => b.serviceFor i = some n) = ∅ := by
      refine filter_eq_empty_iff.mpr fun i hi heq => ?_
      obtain ⟨p, hp⟩ := mem_iff.mp (mem_keys.mp hi)
      obtain ⟨wrk, hwrk, rfl⟩ := hlive.named i p hp
      rw [hlive.serviceFor hwrk] at heq
      obtain ⟨srv', hsrv'⟩ := hlive.served p wrk n hwrk heq
      rw [hn, hname] at hsrv'
      cases hsrv'
    have hzero : b.registered n = 0 := card_eq_zero.mpr hempty
    rw [← some.inj hsrv]
    change (0 : UInt64) = UInt64.ofNat (b.registered n)
    rw [hzero]
    rfl
  next => exact h n srv hsrv

lemma Counted.attach (h : Counted b) (hlive : Live b) {p : ℕ} (hp : b.heap p = some wrk)
    (hwrk : wrk.service = none) (info : ProjectInfo) {srv : Service}
    (hsrv : b.services.lookup name = some srv) : Counted (b.attach p wrk info name srv) := by
  have hfor : ∀ i, (b.attach p wrk info name srv).serviceFor i =
      if i = wrk.identity then some name else b.serviceFor i := fun i => serviceFor_setWorker hlive hp i
  have hcount : ∀ n, (b.attach p wrk info name srv).registered n = b.registered n + if n = name then 1 else 0 :=
    registered_succ (mem_iff.mpr ⟨p, hlive.registered p wrk hp⟩) rfl (by rw [hfor, if_pos rfl])
      (by rw [hlive.serviceFor hp, hwrk]) fun i hi => by rw [hfor, if_neg hi]
  intro n srv' hsrv'
  rw [show (b.attach p wrk info name srv).services.lookup n =
    if n = name then some { srv with workers := srv.workers + 1 } else b.services.lookup n from
      (b.setWorker p _).lookup_setService name n _] at hsrv'
  rw [hcount]
  split at hsrv'
  next hn =>
    rw [← some.inj hsrv', if_pos hn, hn, UInt64.ofNat_add, ← h name srv hsrv]
    rfl
  next hn =>
    rw [if_neg hn]
    exact h n srv' hsrv'

lemma Counted.remove (h : Counted b) (hlive : Live b) {p : ℕ} (hp : b.heap p = some wrk) :
    Counted (b.remove p wrk) := by
  have hworkers : (b.remove p wrk).workers = b.workers.erase wrk.identity := by
    rw [Broker.remove, Broker.destroy, Broker.detach_workers]
  have hfor : ∀ i, i ≠ wrk.identity → (b.remove p wrk).serviceFor i = b.serviceFor i := fun i hi => by
    rw [Broker.serviceFor, Broker.serviceFor, hworkers, lookup_erase_ne hi]
    cases hq : b.workers.lookup i with
    | none => rfl
    | some q =>
      have hne : q ≠ p := by
        rintro rfl
        obtain ⟨w, hw, hid⟩ := hlive.named i q hq
        exact hi (by rw [← hid, some.inj (hw.symm.trans hp)])
      rw [bind_some, bind_some, Broker.remove, Broker.destroy, Broker.detach_heap]
      exact congrArg (bind · Worker.service) (update_of_ne hne _ _)
  have hcount : ∀ n, b.registered n = (b.remove p wrk).registered n + if wrk.service = some n then 1 else 0 := by
    intro n
    rw [← hlive.serviceFor hp]
    exact registered_pred (mem_iff.mpr ⟨p, hlive.registered p wrk hp⟩) hworkers hfor n
  intro n srv' hsrv'
  change (b.detach p wrk).services.lookup n = some srv' at hsrv'
  rw [Broker.lookup_detach] at hsrv'
  have hold := hcount n
  split at hsrv'
  next hn =>
    obtain ⟨srv, hsrv, rfl⟩ := map_eq_some_iff.mp hsrv'
    have hworkers := h n srv hsrv
    rw [hold, if_pos hn, UInt64.ofNat_add] at hworkers
    rw [hworkers]
    exact UInt64.add_sub_cancel _ _
  next hn =>
    rw [if_neg hn, Nat.add_zero] at hold
    rw [← hold]
    exact h n srv' hsrv'

lemma Move.counted (hmove : Move again 0 b b') (hlive : Live b) (h : Counted b) : Counted b' := by
  cases hmove with
  | create name hname => exact h.create hlive hname
  | remove p wrk hp => exact h.remove hlive hp
  | attach p wrk info name srv hp hwrk hsrv => exact h.attach hlive hp hwrk info hsrv
  | enlist p wrk name srv _ _ hsrv _ =>
    have hset : Counted (b.setService name { srv with waiting := srv.waiting ++ [p] }) := h.setService hsrv rfl
    exact hset
  | seen p wrk clock hp =>
    refine h.of_same (fun n srv hsrv => ⟨srv, hsrv, rfl⟩) fun n => ?_
    change (b.workers.keys.filter fun i => (b.setWorker p _).serviceFor i = some n).card = _
    congr 1
    refine filter_congr fun i _ => ?_
    rw [serviceFor_setWorker hlive hp]
    split
    next hi =>
      rw [hi, hlive.serviceFor hp]
    next => rfl
  | handOver name srv p wrk before after msg rest hsrv _ _ _ =>
    have hset : Counted (b.setService name { srv.takeRequest wrk.uuid rest with waiting := before ++ after }) :=
      h.setService hsrv rfl
    exact hset
  | _ => exact h

lemma Moves.counted (hmoves : Moves again 0 b b') (hlive : Live b) (h : Counted b) : Counted b' := by
  induction hmoves with
  | refl => exact h
  | tail hmoves hmove ih => exact hmove.counted (Moves.live hmoves hlive) ih

lemma Takes.counted {request : Option Queued} (htakes : Takes again 0 b request b') (hlive : Live b)
    (h : Counted b) : Counted b' := by
  obtain ⟨b1, b2, hmoves, hrequested, hmoves'⟩ := htakes
  refine hmoves'.counted (hrequested.live (hmoves.live hlive)) ?_
  have h1 := hmoves.counted hlive h
  cases request with
  | none =>
    rw [show b2 = b1 from hrequested]
    exact h1
  | some q =>
    obtain ⟨srv, hsrv, rfl⟩ := hrequested
    have hset : Counted (b1.setService q.service
        { srv with requests := srv.requests.insert q.uuid (srv.queue q.uuid ++ [q.msg]) }) :=
      h1.setService hsrv rfl
    exact hset

lemma Takes.orphan {memory : UInt64} {request : Option Queued} (htakes : Takes again memory b request b')
    (horphan : Orphan b' identity) : Orphan b identity := by
  obtain ⟨b1, b2, hmoves, hrequested, hmoves'⟩ := htakes
  refine hmoves.orphan ?_
  have h2 := hmoves'.orphan horphan
  cases request with
  | none =>
    rw [show b2 = b1 from hrequested] at h2
    exact h2
  | some q =>
    obtain ⟨srv, hsrv, rfl⟩ := hrequested
    exact h2

lemma Counted.register (h : Counted b) (hlive : Live b)
    (hnone : b.workers.lookup identity = none) (iOther : ℤ) : Counted (b.register identity iOther) := by
  refine h.of_same (fun n srv hsrv => ⟨srv, hsrv, rfl⟩) fun n => ?_
  have hfor : ∀ i, i ≠ identity → (b.register identity iOther).serviceFor i = b.serviceFor i := fun i hi => by
    rw [Broker.serviceFor, Broker.serviceFor]
    rw [show (b.register identity iOther).workers.lookup i = b.workers.lookup i from
      Finmap.lookup_insert_of_ne _ hi]
    cases hq : b.workers.lookup i with
    | none => rfl
    | some q =>
      have hne : q ≠ b.fresh := by
        rintro rfl
        obtain ⟨w, hw, -⟩ := hlive.named i _ hq
        rw [hlive.fresh _ le_rfl] at hw
        cases hw
      exact congrArg (bind · Worker.service) (update_of_ne hne _ _)
  have hself : (b.register identity iOther).serviceFor identity = none := by
    rw [Broker.serviceFor, show (b.register identity iOther).workers.lookup identity = some b.fresh from
      Finmap.lookup_insert _]
    exact congrArg (bind · Worker.service) (update_self b.fresh _ b.heap)
  rw [Broker.registered, Broker.registered]
  congr 1
  ext i
  rw [mem_filter, mem_filter, Finmap.mem_keys, Finmap.mem_keys]
  by_cases hi : i = identity
  · rw [hi, hself]
    have hnot : identity ∉ b.workers := Finmap.lookup_eq_none.mp hnone
    exact iff_of_false (fun hall => (by cases hall.2)) fun hall => hnot hall.1
  · rw [hfor i hi, Broker.register, Finmap.mem_insert]
    exact ⟨fun hall => ⟨hall.1.resolve_left hi, hall.2⟩, fun hall => ⟨.inr hall.1, hall.2⟩⟩

end Counters

/-! ### Runs -/

/-- A worker that is not registered introduces itself by a command that gives it no service. -/
def Broker.Unsettled (b : Broker) (parts : List (List UInt8)) : Prop :=
  match Zmsg.recv parts with
  | sender :: _ :: header :: command :: _ =>
    header = mdpwWorker ∧ b.workers.lookup sender = none ∧ command ∉ settling
  | _ => False

instance (b : Broker) (parts : List (List UInt8)) : Decidable (b.Unsettled parts) := by
  unfold Broker.Unsettled
  generalize Zmsg.recv parts = l
  rcases l with _ | ⟨sender, _ | ⟨empty, _ | ⟨header, _ | ⟨command, rest⟩⟩⟩⟩ <;> infer_instance

/-- The memory of a new counter is zero, and a new worker introduces itself by a command after which it has a
service or is gone. -/
def Settled (b : Broker) : BrokerEvent → Prop
  | .message parts r => r.memory = 0 ∧ ¬ b.Unsettled parts
  | .tick _ _ => True

instance (b : Broker) (event : BrokerEvent) : Decidable (Settled b event) := by
  cases event <;> unfold Settled <;> infer_instance

section Runs

variable {lib : JsonLib} {debug : Bool} {b b' : Broker}

lemma mem_settling {parts : List (List UInt8)} {sender command : String} (hgood : ¬ b.Unsettled parts)
    (hintro : b.Introduces parts sender command) : command ∈ settling := by
  obtain ⟨empty, rest, hrecv, hnone⟩ := hintro
  by_contra hcommand
  refine hgood ?_
  rw [Broker.Unsettled, hrecv]
  exact ⟨rfl, hnone, hcommand⟩

lemma orphan_of_register (hlive : Live b) {identity i : String} {iOther : ℤ} (hi : i ≠ identity)
    (horphan : Orphan (b.register identity iOther) i) : Orphan b i := by
  obtain ⟨q, wrk, hq, hwrk, hnone⟩ := horphan
  rw [show (b.register identity iOther).workers.lookup i = b.workers.lookup i from
    lookup_insert_of_ne _ hi] at hq
  obtain ⟨w, hw, -⟩ := hlive.named i q hq
  have hne : q ≠ b.fresh := by
    rintro rfl
    rw [hlive.fresh _ le_rfl] at hw
    cases hw
  have hheap : (b.register identity iOther).heap q = b.heap q := update_of_ne hne _ _
  exact ⟨q, wrk, hq, hheap.symm.trans hwrk, hnone⟩

/-- Workers have services, and counters are right. -/
structure InService (b : Broker) : Prop where
  live : Live b
  served : ∀ identity, ¬ Orphan b identity
  counted : Counted b

lemma inService_initial (heartbeatAt : ℤ) : InService (Broker.initial heartbeatAt) where
  live := live_initial heartbeatAt
  served _ := fun ⟨_, _, h, _⟩ => (by cases h)
  counted _ _ h := (by cases h)

lemma InService.step (h : InService b) {event : BrokerEvent} (hgood : Settled b event) :
    Yields (b.step lib debug event) InService (· ≠ .nullService) := by
  cases event with
  | message parts r =>
    obtain ⟨hmemory, hsettled⟩ := hgood
    change Yields (b.process lib debug r parts) InService (· ≠ .nullService)
    cases hresult : b.process lib debug r parts with
    | error e =>
      rintro rfl
      have hends : Ends (b.process lib debug r parts) (∃ sender, Orphan b sender) (InputReadable lib debug b parts)
        (Does True r b parts) := process_ends h.live parts fun _ => trivial
      obtain ⟨sender, horphan⟩ := hends.reads hresult
      exact h.served sender horphan
    | ok b' =>
      obtain ⟨-, htakes | ⟨-, sender, command, hintro, hmoves, hcommand⟩⟩ :=
        process_does True h.live (fun _ => trivial) hresult
      · rw [hmemory] at htakes
        exact ⟨htakes.live h.live, fun i horphan => h.served i (htakes.orphan horphan),
          htakes.counted h.live h.counted⟩
      · rw [hmemory] at hmoves
        have hnew : b.workers.lookup sender = none := hintro.choose_spec.choose_spec.2
        have hlive := h.live.register hnew r.iOther
        refine ⟨hmoves.live hlive, fun i horphan => ?_, hmoves.counted hlive (h.counted.register h.live hnew _)⟩
        by_cases hi : i = sender
        · exact hcommand (mem_settling hsettled hintro) (hi ▸ horphan)
        · exact h.served i (orphan_of_register h.live hi (hmoves.orphan horphan))
  | tick sclock r =>
    change Yields (b.tick lib r sclock) InService (· ≠ .nullService)
    have htick : ∃ b', b.tick lib r sclock = .ok b' ∧ Moves True 0 b b' := tick_moves lib r sclock h.live
    obtain ⟨b', hok, hmoves⟩ := htick
    rw [hok]
    exact ⟨hmoves.live h.live, fun i horphan => h.served i (hmoves.orphan horphan), hmoves.counted h.live h.counted⟩

/-- **Workers and services.** In every run in which counters begin with zero and new workers introduce
themselves by a command after which they have a service or are gone, every worker that is registered belongs
to a service, the counter of every service is the number of its workers, and no step reads the service of a
worker that has none. -/
theorem workers_in_service (lib : JsonLib) (debug : Bool) (heartbeatAt : ℤ) (events : List BrokerEvent)
    (hmeet : StepsMeet (Broker.step lib debug) Settled (Broker.initial heartbeatAt) events) :
    Yields (runSteps (Broker.step lib debug) (Broker.initial heartbeatAt) events)
      (fun b => AllServed b ∧ Counted b) (· ≠ .nullService) :=
  (Yields.runSteps (fun _ _ h hgood => h.step hgood) (inService_initial heartbeatAt) hmeet).mono
    fun _ h => ⟨allServed_of_not_orphan h.live h.served, h.counted⟩

/-- A worker registers for a service. -/
theorem workers_in_service_ready : Yields (runSteps (Broker.step JsonLib.none true) (Broker.initial 0)
    [.message [bytes "wrkA", [], bytes "MDPW01", [1], bytes "echo", bytes "x"] Readings.plain])
      (fun b => AllServed b ∧ Counted b) (· ≠ .nullService) :=
  workers_in_service JsonLib.none true 0 _ (by decide +kernel)

/-- A worker that publishes before it is ready has no service, and its reply reads it; a counter that does not
begin with zero is not the number of the workers. -/
theorem workers_not_in_service :
    (∃ b, runSteps (Broker.step JsonLib.none true) (Broker.initial 0)
      [.message [bytes "wrkA", [], bytes "MDPW01", [6], bytes "news"] Readings.plain] = .ok b ∧ ¬ AllServed b) ∧
    runSteps (Broker.step JsonLib.none true) (Broker.initial 0)
      [.message [bytes "wrkA", [], bytes "MDPW01", [6], bytes "news"] Readings.plain,
        .message [bytes "wrkA", [], bytes "MDPW01", [3], bytes "client"] Readings.plain] = .error .nullService ∧
    (∃ b, runSteps (Broker.step JsonLib.none true) (Broker.initial 0)
      [.message [bytes "wrkA", [], bytes "MDPW01", [1], bytes "echo", bytes "x"] ⟨0, 0, 5, 0⟩] = .ok b ∧
        ¬ Counted b) := by
  refine ⟨?_, rfl, ?_⟩
  · refine okAnd.exists_imp (P := fun b => b.workers.lookup "wrkA" = some 0 ∧
      (b.heap 0).bind Worker.service = none) (by decide +kernel) ?_
    rintro b - ⟨hlookup, hnone⟩ hserved
    obtain ⟨wrk, name, hwrk, hname⟩ := hserved "wrkA" 0 hlookup
    rw [hwrk, bind_some, hname] at hnone
    cases hnone
  · refine okAnd.exists_imp (P := fun b => (b.services.lookup "echo").isSome ∧
      (b.services.lookup "echo").map Service.workers ≠ some (UInt64.ofNat (b.registered "echo")))
        (by decide +kernel) ?_
    rintro b - ⟨hsome, hne⟩ hcounted
    obtain ⟨srv, hsrv⟩ := isSome_iff_exists.mp hsome
    rw [hsrv, map_some, hcounted "echo" srv hsrv] at hne
    exact hne rfl

end Runs

end Gds
