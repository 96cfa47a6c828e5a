import ZeroMQ.Gds.Broker

/-!
# What the GDS broker does in a step

A step of the broker is a sequence of moves: it sends or publishes something, creates a service, removes a
worker, attaches one to its service, puts one on the lists of those that wait, notes that one has been
seen, or hands a request over to a worker. Besides, a step registers at most one new worker, at its
beginning, and queues at most one request. What holds in every reachable state is shown move by move.

`Live` is what makes the pointers safe: a worker on the heap is registered and a pointer of any list or map
leads to a worker on the heap. From a state in which it holds the functions below the handlers do not
fault.
-/

namespace Gds

open Foundation Function List Option Finmap

/-! ### Services and workers after an operation -/

namespace Broker

section Fields

variable (b : Broker) (p q : ℕ) (wrk : Worker) (name n : String) (srv : Service)

lemma lookup_setService : (b.setService name srv).services.lookup n =
    if n = name then some srv else b.services.lookup n := by
  by_cases h : n = name
  · rw [if_pos h, h]
    exact lookup_insert _
  · rw [if_neg h]
    exact lookup_insert_of_ne _ h

lemma heap_setWorker : (b.setWorker p wrk).heap q = if q = p then some wrk else b.heap q :=
  update_apply _ _ _ _

lemma lookup_detach : (b.detach p wrk).services.lookup n =
    if wrk.service = some n then (b.services.lookup n).map fun srv =>
      { srv with waiting := srv.waiting.filter (· ≠ p), workers := srv.workers - 1 }
    else b.services.lookup n := by
  rw [detach]
  split
  next h => rw [if_neg (by simp [h])]
  next name h =>
    split
    next hnone =>
      split
      next heq =>
        obtain rfl : name = n := some.inj (h.symm.trans heq)
        rw [hnone]
        rfl
      next => rfl
    next srv hsome =>
      rw [lookup_setService, h]
      by_cases hn : n = name
      · rw [if_pos hn, hn, if_pos rfl, hsome]
        rfl
      · rw [if_neg hn, if_neg fun heq => hn (some.inj heq).symm]

lemma detach_eq : b.detach p wrk = { b with services := (b.detach p wrk).services } := by
  rw [detach]
  split
  · rfl
  · split <;> rfl

@[simp] lemma detach_heap : (b.detach p wrk).heap = b.heap := by
  rw [detach_eq]

@[simp] lemma detach_workers : (b.detach p wrk).workers = b.workers := by
  rw [detach_eq]

@[simp] lemma detach_waiting : (b.detach p wrk).waiting = b.waiting := by
  rw [detach_eq]

@[simp] lemma detach_fresh : (b.detach p wrk).fresh = b.fresh := by
  rw [detach_eq]

@[simp] lemma detach_sent : (b.detach p wrk).sent = b.sent := by
  rw [detach_eq]

@[simp] lemma detach_queued : (b.detach p wrk).queued = b.queued := by
  rw [detach_eq]

@[simp] lemma detach_dispatched : (b.detach p wrk).dispatched = b.dispatched := by
  rw [detach_eq]

end Fields

/-- A worker is deleted. -/
def remove (b : Broker) (p : ℕ) (wrk : Worker) : Broker := (b.detach p wrk).destroy p wrk

end Broker

/-- A message that brings a request to a worker. -/
def IsRequest (msg : Zmsg) : Prop := msg[2]? = some mdpwWorker ∧ msg[3]? = some mdpwRequest

instance (msg : Zmsg) : Decidable (IsRequest msg) := inferInstanceAs (Decidable (_ ∧ _))

/-- A move of the broker. `again` is whether a worker that waits may be made to wait once more, `memory`
what is in the counter of a new service. -/
inductive Move (again : Prop) (memory : UInt64) (b : Broker) : Broker → Prop
  | send (msg : Zmsg) (hmsg : ¬ IsRequest msg) : Move again memory b (b.send msg)
  | publish (str : String) : Move again memory b (b.clientPub str)
  | heartbeatAt (at_ : ℤ) : Move again memory b { b with heartbeatAt := at_ }
  | create (name : String) (hname : b.services.lookup name = none) :
    Move again memory b (b.setService name ⟨∅, [], memory⟩)
  | remove (p : ℕ) (wrk : Worker) (hp : b.heap p = some wrk) : Move again memory b (b.remove p wrk)
  | attach (p : ℕ) (wrk : Worker) (info : ProjectInfo) (name : String) (srv : Service)
      (hp : b.heap p = some wrk) (hwrk : wrk.service = none) (hsrv : b.services.lookup name = some srv) :
    Move again memory b (b.attach p wrk info name srv)
  | enlist (p : ℕ) (wrk : Worker) (name : String) (srv : Service) (hp : b.heap p = some wrk)
      (hwrk : wrk.service = some name) (hsrv : b.services.lookup name = some srv)
      (hagain : p ∈ b.waiting → again) :
    Move again memory b (b.enlist p name srv)
  | seen (p : ℕ) (wrk : Worker) (clock : ℤ) (hp : b.heap p = some wrk) :
    Move again memory b (b.seen p wrk clock)
  | handOver (name : String) (srv : Service) (p : ℕ) (wrk : Worker) (before after : List ℕ) (msg : Zmsg)
      (rest : List Zmsg) (hsrv : b.services.lookup name = some srv) (hwaiting : srv.waiting = before ++ p :: after)
      (hp : b.heap p = some wrk) (hqueue : srv.queue wrk.uuid = msg :: rest) :
    Move again memory b (b.handOver name srv p wrk (before ++ after) msg rest)

/-- Moves one after the other. -/
abbrev Moves (again : Prop) (memory : UInt64) : Broker → Broker → Prop :=
  Relation.ReflTransGen (Move again memory)

/-! ### Pointers -/

/-- Pointers lead to workers, and workers are registered. -/
structure Live (b : Broker) : Prop where
  /-- Under an identity the worker of that identity is registered. -/
  named : ∀ identity p, b.workers.lookup identity = some p →
    ∃ wrk, b.heap p = some wrk ∧ wrk.identity = identity
  registered : ∀ p wrk, b.heap p = some wrk → b.workers.lookup wrk.identity = some p
  served : ∀ p wrk name, b.heap p = some wrk → wrk.service = some name →
    ∃ srv, b.services.lookup name = some srv
  listed : ∀ p ∈ b.waiting, ∃ wrk, b.heap p = some wrk
  /-- A pointer in the list of a service leads to a worker of the service. -/
  attached : ∀ name srv, b.services.lookup name = some srv → ∀ p ∈ srv.waiting,
    ∃ wrk, b.heap p = some wrk ∧ wrk.service = some name
  fresh : ∀ p, b.fresh ≤ p → b.heap p = none

lemma live_initial (heartbeatAt : ℤ) : Live (Broker.initial heartbeatAt) where
  named _ _ h := by cases h
  registered _ _ h := by cases h
  served _ _ _ h := by cases h
  listed _ h := by cases h
  attached _ _ h := by cases h
  fresh _ _ := rfl

section Live

variable {again : Prop} {memory : UInt64} {b b' : Broker}

lemma Live.of_lists (h : Live b) (hheap : b'.heap = b.heap) (hworkers : b'.workers = b.workers)
    (hfresh : b'.fresh = b.fresh)
    (hservices : ∀ name srv, b.services.lookup name = some srv → ∃ srv', b'.services.lookup name = some srv')
    (hlisted : ∀ p ∈ b'.waiting, ∃ wrk, b.heap p = some wrk)
    (hattached : ∀ name srv, b'.services.lookup name = some srv → ∀ p ∈ srv.waiting,
      ∃ wrk, b.heap p = some wrk ∧ wrk.service = some name) : Live b' where
  named := by
    rw [hheap, hworkers]
    exact h.named
  registered := by
    rw [hheap, hworkers]
    exact h.registered
  served p wrk name hp hwrk := by
    rw [hheap] at hp
    obtain ⟨srv, hsrv⟩ := h.served p wrk name hp hwrk
    exact hservices name srv hsrv
  listed := by
    rw [hheap]
    exact hlisted
  attached := by
    rw [hheap]
    exact hattached
  fresh := by
    rw [hheap, hfresh]
    exact h.fresh

lemma Live.setService (h : Live b) {name : String} {srv : Service}
    (hattached : ∀ p ∈ srv.waiting, ∃ wrk, b.heap p = some wrk ∧ wrk.service = some name) :
    Live (b.setService name srv) := by
  refine h.of_lists rfl rfl rfl (fun n srv' hsrv' => ?_) h.listed fun n srv' hsrv' => ?_
  · rw [Broker.lookup_setService]
    split
    · exact ⟨srv, rfl⟩
    · exact ⟨srv', hsrv'⟩
  · rw [Broker.lookup_setService] at hsrv'
    split at hsrv'
    next hn =>
      rw [hn, ← some.inj hsrv']
      exact hattached
    next => exact h.attached n srv' hsrv'

lemma Live.setWorker (h : Live b) {p : ℕ} {wrk wrk' : Worker} (hp : b.heap p = some wrk)
    (hidentity : wrk'.identity = wrk.identity)
    (hkeep : ∀ name, wrk.service = some name → wrk'.service = some name)
    (hserved : ∀ name, wrk'.service = some name → ∃ srv, b.services.lookup name = some srv) :
    Live (b.setWorker p wrk') where
  named identity q hq := by
    obtain ⟨w, hw, hid⟩ := h.named identity q hq
    rw [Broker.heap_setWorker]
    split
    next heq =>
      rw [heq, hp] at hw
      exact ⟨wrk', rfl, by rw [hidentity, some.inj hw, hid]⟩
    next => exact ⟨w, hw, hid⟩
  registered q w hq := by
    rw [Broker.heap_setWorker] at hq
    split at hq
    next heq =>
      rw [← some.inj hq, hidentity, heq]
      exact h.registered p wrk hp
    next => exact h.registered q w hq
  served q w name hq hw := by
    rw [Broker.heap_setWorker] at hq
    split at hq
    next =>
      rw [← some.inj hq] at hw
      exact hserved name hw
    next => exact h.served q w name hq hw
  listed q hq := by
    obtain ⟨w, hw⟩ := h.listed q hq
    rw [Broker.heap_setWorker]
    split
    · exact ⟨wrk', rfl⟩
    · exact ⟨w, hw⟩
  attached name srv hsrv q hq := by
    obtain ⟨w, hw, hname⟩ := h.attached name srv hsrv q hq
    rw [Broker.heap_setWorker]
    split
    next heq =>
      rw [heq, hp] at hw
      rw [← some.inj hw] at hname
      exact ⟨wrk', rfl, hkeep name hname⟩
    next => exact ⟨w, hw, hname⟩
  fresh q hq := by
    rw [Broker.heap_setWorker]
    split
    next heq =>
      have hnone := h.fresh q hq
      rw [heq, hp] at hnone
      cases hnone
    next => exact h.fresh q hq

variable {identity : String}

lemma Live.register (h : Live b) (hnone : b.workers.lookup identity = none) (iOther : ℤ) :
    Live (b.register identity iOther) := by
  have hheap : ∀ q, (b.register identity iOther).heap q =
      if q = b.fresh then some (Worker.new identity iOther) else b.heap q := update_apply _ _ _
  have hold : ∀ q w, b.heap q = some w → (b.register identity iOther).heap q = some w := fun q w hq => by
    rw [hheap, if_neg]
    · exact hq
    · rintro rfl
      rw [h.fresh _ le_rfl] at hq
      cases hq
  refine ⟨fun id q hq => ?_, fun q w hq => ?_, fun q w name hq hw => ?_, fun q hq => ?_,
    fun name srv hsrv q hq => ?_, fun q hq => ?_⟩
  · by_cases hid : id = identity
    · rw [hid] at hq ⊢
      obtain rfl := some.inj ((lookup_insert _).symm.trans hq)
      exact ⟨_, by rw [hheap, if_pos rfl], rfl⟩
    · rw [show (b.register identity iOther).workers.lookup id = b.workers.lookup id from
        lookup_insert_of_ne _ hid] at hq
      obtain ⟨w, hw, hname⟩ := h.named id q hq
      exact ⟨w, hold q w hw, hname⟩
  · rw [hheap] at hq
    split at hq
    next heq =>
      rw [← some.inj hq, heq]
      exact lookup_insert _
    have hne : w.identity ≠ identity := fun heq => by
      have hreg := h.registered q w hq
      rw [heq, hnone] at hreg
      cases hreg
    exact (lookup_insert_of_ne _ hne).trans (h.registered q w hq)
  · rw [hheap] at hq
    split at hq
    next =>
      rw [← some.inj hq] at hw
      cases hw
    next => exact h.served q w name hq hw
  · obtain ⟨w, hw⟩ := h.listed q hq
    exact ⟨w, hold q w hw⟩
  · obtain ⟨w, hw, hname⟩ := h.attached name srv hsrv q hq
    exact ⟨w, hold q w hw, hname⟩
  · have hlt : b.fresh + 1 ≤ q := hq
    rw [hheap, if_neg (by omega)]
    exact h.fresh q (by omega)

lemma Live.queueRequest (h : Live b) {name : String} {srv : Service}
    (hsrv : b.services.lookup name = some srv) (msg : Zmsg) (uuid : String) :
    Live (b.queueRequest name srv msg uuid) := by
  have hset : Live (b.setService name
      { srv with requests := srv.requests.insert uuid (srv.queue uuid ++ [msg]) }) :=
    h.setService (h.attached name srv hsrv)
  exact hset.of_lists rfl rfl rfl (fun _ srv hsrv => ⟨srv, hsrv⟩) hset.listed hset.attached

lemma heap_remove (p q : ℕ) (wrk : Worker) : (b.remove p wrk).heap q = if q = p then none else b.heap q := by
  rw [Broker.remove, Broker.destroy, Broker.detach_heap]
  exact update_apply _ _ _ _

lemma Live.lookup_remove (h : Live b) {p : ℕ} {wrk : Worker} (hp : b.heap p = some wrk) (name : String) :
    (b.remove p wrk).services.lookup name = (b.services.lookup name).map fun srv =>
      { srv with
        waiting := srv.waiting.filter (· ≠ p)
        workers := if wrk.service = some name then srv.workers - 1 else srv.workers } := by
  change (b.detach p wrk).services.lookup name = _
  rw [Broker.lookup_detach]
  split
  next => rfl
  next hother =>
    cases hsrv : b.services.lookup name with
    | none => rfl
    | some srv =>
      have hnot : p ∉ srv.waiting := fun hmem => by
        obtain ⟨w, hw, hname⟩ := h.attached name srv hsrv p hmem
        obtain rfl := some.inj (hp.symm.trans hw)
        exact hother hname
      have hwaiting : srv.waiting.filter (· ≠ p) = srv.waiting := filter_eq_self.mpr fun q hq => by
        rw [decide_eq_true_eq]
        rintro rfl
        exact hnot hq
      simp only [map_some, hwaiting]

lemma Live.remove (h : Live b) {p : ℕ} {wrk : Worker} (hp : b.heap p = some wrk) : Live (b.remove p wrk) := by
  have hheap : ∀ q, (b.remove p wrk).heap q = if q = p then none else b.heap q := fun q => heap_remove p q wrk
  have hworkers : (b.remove p wrk).workers = b.workers.erase wrk.identity := by
    rw [Broker.remove, Broker.destroy, Broker.detach_workers]
  refine ⟨fun id q hq => ?_, fun q w hq => ?_, fun q w name hq hw => ?_, fun q hq => ?_,
    fun name srv hsrv q hq => ?_, fun q hq => ?_⟩
  · rw [hworkers] at hq
    have hne : id ≠ wrk.identity := by
      rintro rfl
      rw [lookup_erase] at hq
      cases hq
    rw [lookup_erase_ne hne] at hq
    obtain ⟨w, hw, hid⟩ := h.named id q hq
    refine ⟨w, ?_, hid⟩
    rw [hheap, if_neg]
    · exact hw
    · rintro rfl
      rw [hp] at hw
      exact hne (by rw [← hid, some.inj hw])
  · rw [hheap] at hq
    split at hq
    next => cases hq
    next hne =>
      have hreg := h.registered q w hq
      rw [hworkers, lookup_erase_ne]
      · exact hreg
      · intro heq
        rw [heq, h.registered p wrk hp] at hreg
        exact hne (some.inj hreg).symm
  · rw [hheap] at hq
    split at hq
    · cases hq
    obtain ⟨srv, hsrv⟩ := h.served q w name hq hw
    exact ⟨_, by rw [h.lookup_remove hp, hsrv]; rfl⟩
  · have hmem : q ∈ (b.detach p wrk).waiting.filter (· ≠ p) := hq
    rw [Broker.detach_waiting, mem_filter] at hmem
    obtain ⟨w, hw⟩ := h.listed q hmem.1
    refine ⟨w, ?_⟩
    rw [hheap, if_neg (by simpa using hmem.2)]
    exact hw
  · rw [h.lookup_remove hp] at hsrv
    obtain ⟨srv', hsrv', rfl⟩ := map_eq_some_iff.mp hsrv
    obtain ⟨hmem, hne⟩ := mem_filter.mp hq
    rw [decide_eq_true_eq] at hne
    obtain ⟨w, hw, hname⟩ := h.attached name srv' hsrv' q hmem
    refine ⟨w, ?_, hname⟩
    rw [hheap, if_neg hne]
    exact hw
  · have hle : (b.detach p wrk).fresh ≤ q := hq
    rw [Broker.detach_fresh] at hle
    rw [hheap]
    split
    · rfl
    · exact h.fresh q hle

lemma Move.live (hmove : Move again memory b b') (h : Live b) : Live b' := by
  cases hmove with
  | send msg _ | publish str | heartbeatAt at_ =>
    exact h.of_lists rfl rfl rfl (fun _ srv hsrv => ⟨srv, hsrv⟩) h.listed h.attached
  | create name _ => exact h.setService fun p hp => (by cases hp)
  | remove p wrk hp => exact h.remove hp
  | attach p wrk info name srv hp hwrk hsrv =>
    have hset : Live (b.setWorker p { wrk with service := some name, projInfo := info }) := by
      refine h.setWorker hp rfl (fun n hn => ?_) fun n hn => ?_
      · rw [hwrk] at hn
        cases hn
      · obtain rfl := some.inj hn
        exact ⟨srv, hsrv⟩
    exact hset.setService (hset.attached name srv hsrv)
  | enlist p wrk name srv hp hwrk hsrv _ =>
    have hset : Live (b.setService name { srv with waiting := srv.waiting ++ [p] }) := by
      refine h.setService fun q hq => ?_
      rcases mem_append.mp hq with hq | hq
      · exact h.attached name srv hsrv q hq
      · rw [mem_singleton.mp hq]
        exact ⟨wrk, hp, hwrk⟩
    refine hset.of_lists rfl rfl rfl (fun _ srv hsrv => ⟨srv, hsrv⟩) (fun q hq => ?_) hset.attached
    rcases mem_append.mp hq with hq | hq
    · exact h.listed q hq
    · rw [mem_singleton.mp hq]
      exact ⟨wrk, hp⟩
  | seen p wrk clock hp => exact h.setWorker hp rfl (fun n hn => hn) fun n hn => h.served p wrk n hp hn
  | handOver name srv p wrk before after msg rest hsrv hwaiting hp hqueue =>
    have hset : Live (b.setService name { srv.takeRequest wrk.uuid rest with waiting := before ++ after }) := by
      refine h.setService fun q hq => h.attached name srv hsrv q ?_
      rw [hwaiting]
      rcases mem_append.mp hq with hq | hq
      · exact mem_append_left _ hq
      · exact mem_append_right _ (mem_cons_of_mem _ hq)
    exact hset.of_lists rfl rfl rfl (fun _ srv hsrv => ⟨srv, hsrv⟩)
      (fun q hq => h.listed q (mem_of_mem_filter hq)) hset.attached

lemma Moves.live (hmoves : Moves again memory b b') (h : Live b) : Live b' := by
  induction hmoves with
  | refl => exact h
  | tail _ hmove ih => exact hmove.live ih

/-! ### Workers without a service -/

/-- Under the identity a worker is registered that has no service. -/
def Orphan (b : Broker) (identity : String) : Prop :=
  ∃ p wrk, b.workers.lookup identity = some p ∧ b.heap p = some wrk ∧ wrk.service = none

lemma not_orphan_remove (p : ℕ) (wrk : Worker) : ¬ Orphan (b.remove p wrk) wrk.identity := by
  rintro ⟨q, w, hq, -⟩
  rw [Broker.remove, Broker.destroy, Broker.detach_workers, lookup_erase] at hq
  cases hq

lemma not_orphan_attach (h : Live b) {p : ℕ} {wrk : Worker} (hp : b.heap p = some wrk) (info : ProjectInfo)
    (name : String) (srv : Service) : ¬ Orphan (b.attach p wrk info name srv) wrk.identity := by
  rintro ⟨q, w, hq, hw, hnone⟩
  obtain rfl : p = q := some.inj ((h.registered p wrk hp).symm.trans hq)
  have hself : (b.attach p wrk info name srv).heap p = some { wrk with service := some name, projInfo := info } :=
    (b.heap_setWorker _ _ _).trans (if_pos rfl)
  rw [hself] at hw
  rw [← some.inj hw] at hnone
  cases hnone

lemma Move.orphan (hmove : Move again memory b b')
    (horphan : Orphan b' identity) : Orphan b identity := by
  obtain ⟨q, w, hq, hw, hnone⟩ := horphan
  have hset : ∀ p wrk wrk', b.heap p = some wrk → (wrk'.service = none → wrk.service = none) →
      (b.setWorker p wrk').heap q = some w → b.workers.lookup identity = some q → Orphan b identity := by
    intro p wrk wrk' hp hservice hw hq
    rw [Broker.heap_setWorker] at hw
    split at hw
    next heq =>
      rw [← some.inj hw] at hnone
      exact ⟨q, wrk, hq, by rw [heq, hp], hservice hnone⟩
    next => exact ⟨q, w, hq, hw, hnone⟩
  cases hmove with
  | remove p wrk hp =>
    rw [Broker.remove, Broker.destroy, Broker.detach_workers] at hq
    have hheap : (update b.heap p none) q = some w := by
      rwa [Broker.remove, Broker.destroy, Broker.detach_heap] at hw
    rw [update_apply] at hheap
    split at hheap
    · cases hheap
    have hne : identity ≠ wrk.identity := by
      rintro rfl
      rw [lookup_erase] at hq
      cases hq
    rw [lookup_erase_ne hne] at hq
    exact ⟨q, w, hq, hheap, hnone⟩
  | attach p wrk info name srv hp hwrk hsrv => exact hset p wrk _ hp (fun _ => hwrk) hw hq
  | seen p wrk clock hp =>
    exact hset p wrk { wrk with expiry := clock + heartbeatExpiry } hp (fun hservice => hservice) hw hq
  | _ => exact ⟨q, w, hq, hw, hnone⟩

lemma Moves.orphan (hmoves : Moves again memory b b')
    (horphan : Orphan b' identity) : Orphan b identity := by
  induction hmoves with
  | refl => exact horphan
  | tail _ hmove ih => exact ih (hmove.orphan horphan)

end Live

/-! ### Functions below the handlers -/

section Functions

variable (lib : JsonLib) {again : Prop} {memory : UInt64} {b : Broker}

lemma not_isRequest_workerSend {wrk : Worker} {command : String} (h : command ≠ mdpwRequest) (option : String)
    (msg : Zmsg) : Move again memory b (b.workerSend wrk command option msg) :=
  .send _ fun hmsg => h (some.inj hmsg.2)

lemma workerDelete_spec {p : ℕ} {wrk : Worker} (hp : b.heap p = some wrk) (disconnect : Bool) :
    ∃ text, b.workerDelete lib p disconnect =
      .ok (((if disconnect then b.workerSend wrk mdpwDisconnect "" [] else b).remove p wrk).clientPub text) := by
  obtain ⟨text, htext⟩ := toString_ok lib ⟨0, .uuid gmtWClosed wrk.identity⟩ 0
  refine ⟨text, ?_⟩
  simp only [Broker.workerDelete, Broker.deref, hp, htext, bind, Except.bind, ofJson, Except.mapError]
  rfl

lemma workerDelete_moves {p : ℕ} {wrk : Worker} (hp : b.heap p = some wrk) (disconnect : Bool) :
    ∃ b', b.workerDelete lib p disconnect = .ok b' ∧ Moves again memory b b' := by
  obtain ⟨text, hok⟩ := workerDelete_spec lib hp disconnect
  refine ⟨_, hok, ?_⟩
  cases disconnect with
  | false => exact .tail (.single (.remove p wrk hp)) (.publish text)
  | true =>
    have hsend : Move again memory b (b.workerSend wrk mdpwDisconnect "" []) :=
      not_isRequest_workerSend (by decide) "" []
    exact .tail (.tail (.single hsend) (.remove p wrk hp)) (.publish text)

lemma purgeFrom_moves (now : ℤ) (fuel i : ℕ) (h : Live b) :
    ∃ b', b.purgeFrom lib now fuel i = .ok b' ∧ Moves again memory b b' := by
  induction fuel generalizing i b with
  | zero => exact ⟨b, rfl, .refl⟩
  | succ fuel ih =>
    rw [Broker.purgeFrom]
    cases hi : b.waiting[i]? with
    | none => exact ⟨b, rfl, .refl⟩
    | some p =>
      obtain ⟨wrk, hp⟩ := h.listed p (mem_of_getElem? hi)
      simp only [Broker.deref, hp]
      by_cases hexpiry : wrk.expiry > now
      · rw [if_pos hexpiry]
        exact ih (i + 1) h
      rw [if_neg hexpiry]
      have hdeleted : ∃ b1, b.workerDelete lib p false = .ok b1 ∧ Moves again memory b b1 :=
        workerDelete_moves lib hp false
      obtain ⟨b1, hdelete, hmoves⟩ := hdeleted
      obtain ⟨b', hrest, hmoves'⟩ := ih i (hmoves.live h)
      exact ⟨b', by rw [hdelete]; exact hrest, hmoves.trans hmoves'⟩

lemma purgeWorkers_moves (now : ℤ) (h : Live b) :
    ∃ b', b.purgeWorkers lib now = .ok b' ∧ Moves again memory b b' :=
  purgeFrom_moves lib now b.waiting.length 0 h

variable {l next : List ℕ}

lemma readIDs_ok (h : ∀ p ∈ l, ∃ wrk, b.heap p = some wrk) : b.readIDs l = .ok () := by
  induction l with
  | nil => rfl
  | cons p rest ih =>
    obtain ⟨wrk, hp⟩ := h p mem_cons_self
    simp only [Broker.readIDs, Broker.deref, hp]
    exact ih fun q hq => h q (mem_cons_of_mem _ hq)

lemma mostRecent_spec {wrk : ℕ × List ℕ} (hnext : next <:+ wrk.2)
    (h : ∀ p ∈ wrk.1 :: wrk.2, ∃ w, b.heap p = some w) :
    ∃ wrk', b.mostRecent wrk next = .ok wrk' ∧ wrk'.1 :: wrk'.2 <:+ wrk.1 :: wrk.2 := by
  induction next generalizing wrk with
  | nil => exact ⟨wrk, rfl, suffix_rfl⟩
  | cons p next ih =>
    obtain ⟨current, hcurrent⟩ := h wrk.1 mem_cons_self
    obtain ⟨other, hother⟩ := h p (mem_cons_of_mem _ (hnext.subset mem_cons_self))
    simp only [Broker.mostRecent, Broker.deref, hcurrent, hother, bind, Except.bind]
    split
    next =>
      have hsuffix : p :: next <:+ wrk.1 :: wrk.2 := hnext.trans (suffix_cons _ _)
      obtain ⟨wrk', hok, hle⟩ := @ih (p, next) suffix_rfl fun q hq => h q (hsuffix.subset hq)
      exact ⟨wrk', hok, hle.trans hsuffix⟩
    next => exact ih ((suffix_cons _ _).trans hnext) h

lemma findRequest_spec (srv : Service) (fuel : ℕ) (h : ∀ p ∈ l, ∃ w, b.heap p = some w) :
    ∃ found, b.findRequest srv fuel l = .ok found ∧ ∀ wrk ∈ found, wrk.1 :: wrk.2 <:+ l ∧
      ∃ w, b.heap wrk.1 = some w ∧ srv.queue w.uuid ≠ [] := by
  induction fuel generalizing l with
  | zero => exact ⟨none, rfl, fun wrk hwrk => (by cases hwrk)⟩
  | succ fuel ih =>
    cases l with
    | nil => exact ⟨none, rfl, fun wrk hwrk => (by cases hwrk)⟩
    | cons p next =>
      have hrecent : ∃ wrk, b.mostRecent (p, next) next = .ok wrk ∧ wrk.1 :: wrk.2 <:+ p :: next :=
        mostRecent_spec suffix_rfl h
      obtain ⟨wrk, hok, hle⟩ := hrecent
      obtain ⟨current, hcurrent⟩ := h wrk.1 (hle.subset mem_cons_self)
      simp only [Broker.findRequest, hok, Broker.deref, hcurrent, bind, Except.bind]
      split
      next hne =>
        refine ⟨some wrk, rfl, fun wrk' hwrk' => ?_⟩
        obtain rfl := some.inj hwrk'
        exact ⟨hle, current, hcurrent, hne⟩
      have hsuffix : wrk.2 <:+ p :: next := (suffix_cons _ _).trans hle
      obtain ⟨found, hfound, hspec⟩ := ih fun q hq => h q (hsuffix.subset hq)
      exact ⟨found, hfound, fun wrk' hwrk' => ⟨(hspec wrk' hwrk').1.trans hsuffix, (hspec wrk' hwrk').2⟩⟩

lemma dispatchTo_spec (name : String) {srv : Service} {wrk : ℕ × List ℕ} {w : Worker}
    (hle : wrk.1 :: wrk.2 <:+ srv.waiting) (hp : b.heap wrk.1 = some w) (hne : srv.queue w.uuid ≠ []) :
    ∃ before msg rest, srv.waiting = before ++ wrk.1 :: wrk.2 ∧ srv.queue w.uuid = msg :: rest ∧
      b.dispatchTo name srv wrk = .ok (b.handOver name srv wrk.1 w (before ++ wrk.2) msg rest) := by
  obtain ⟨before, hbefore⟩ := hle
  obtain ⟨msg, rest, hqueue⟩ := exists_cons_of_ne_nil hne
  refine ⟨before, msg, rest, hbefore.symm, hqueue, ?_⟩
  have hposition : srv.waiting.length - wrk.2.length - 1 = before.length := by
    rw [← hbefore, length_append, length_cons]
    omega
  have herase : srv.waiting.eraseIdx before.length = before ++ wrk.2 := by
    rw [← hbefore, eraseIdx_append_of_length_le le_rfl, Nat.sub_self]
    rfl
  simp only [Broker.dispatchTo, Broker.deref, hp, hqueue, hposition, herase, bind, Except.bind]

lemma dispatchLoop_moves (name : String) (fuel : ℕ) (h : Live b)
    (hname : ∃ srv, b.services.lookup name = some srv) :
    ∃ b', Broker.dispatchLoop name fuel b = .ok b' ∧ Moves again memory b b' := by
  induction fuel generalizing b with
  | zero => exact ⟨b, rfl, .refl⟩
  | succ fuel ih =>
    obtain ⟨srv, hsrv⟩ := hname
    rw [Broker.dispatchLoop, hsrv]
    by_cases hempty : srv.waiting = [] ∨ srv.requests = ∅
    · exact ⟨b, if_pos hempty, .refl⟩
    have hwaiting : ∀ p ∈ srv.waiting, ∃ wrk, b.heap p = some wrk := fun p hp => by
      obtain ⟨wrk, hwrk, -⟩ := h.attached name srv hsrv p hp
      exact ⟨wrk, hwrk⟩
    obtain ⟨found, hfound, hspec⟩ := findRequest_spec srv srv.waiting.length hwaiting
    simp only [if_neg hempty, readIDs_ok hwaiting, hfound, bind, Except.bind]
    cases found with
    | none => exact ⟨b, rfl, .refl⟩
    | some wrk =>
      obtain ⟨hle, w, hp, hne⟩ := hspec wrk rfl
      obtain ⟨before, msg, rest, hbefore, hqueue, hok⟩ := dispatchTo_spec name hle hp hne
      have hmove : Move again memory b (b.handOver name srv wrk.1 w (before ++ wrk.2) msg rest) :=
        .handOver name srv wrk.1 w before wrk.2 msg rest hsrv hbefore hp hqueue
      obtain ⟨b', hrest, hmoves⟩ := ih (hmove.live h) ⟨_, lookup_insert _⟩
      exact ⟨b', by simp only [hok]; exact hrest, .head hmove hmoves⟩

lemma Move.keeps_service {b b' : Broker} (hmove : Move again memory b b') {name : String}
    (hname : ∃ srv, b.services.lookup name = some srv) : ∃ srv, b'.services.lookup name = some srv := by
  have hset : ∀ (b : Broker) n srv', (∃ srv, b.services.lookup name = some srv) →
      ∃ srv, (b.setService n srv').services.lookup name = some srv := fun b n srv' hname => by
    rw [Broker.lookup_setService]
    split
    · exact ⟨srv', rfl⟩
    · exact hname
  cases hmove with
  | create n _ => exact hset _ _ _ hname
  | remove p wrk _ =>
    obtain ⟨srv, hsrv⟩ := hname
    change ∃ srv, (b.detach p wrk).services.lookup name = some srv
    rw [Broker.lookup_detach, hsrv]
    split
    · exact ⟨_, rfl⟩
    · exact ⟨srv, rfl⟩
  | attach p wrk info n srv _ _ _ => exact hset (b.setWorker p _) _ _ hname
  | enlist p wrk n srv _ _ _ _ => exact hset b _ _ hname
  | handOver n srv p wrk before after msg rest _ _ _ _ =>
    exact hset (b.workerSend wrk mdpwRequest "" msg) _ _ hname
  | _ => exact hname

lemma Moves.keeps_service {b b' : Broker} (hmoves : Moves again memory b b') {name : String}
    (hname : ∃ srv, b.services.lookup name = some srv) : ∃ srv, b'.services.lookup name = some srv := by
  induction hmoves with
  | refl => exact hname
  | tail _ hmove ih => exact hmove.keeps_service ih

lemma dispatchAll_moves (now : ℤ) (name : String) (h : Live b)
    (hname : ∃ srv, b.services.lookup name = some srv) :
    ∃ b', b.dispatchAll lib now name = .ok b' ∧ Moves again memory b b' := by
  have hpurged : ∃ b1, b.purgeWorkers lib now = .ok b1 ∧ Moves again memory b b1 :=
    purgeWorkers_moves lib now h
  obtain ⟨b1, hpurge, hmoves⟩ := hpurged
  obtain ⟨srv, hsrv⟩ := hmoves.keeps_service hname
  obtain ⟨b', hloop, hmoves'⟩ := dispatchLoop_moves name srv.waiting.length (hmoves.live h) ⟨srv, hsrv⟩
  refine ⟨b', ?_, hmoves.trans hmoves'⟩
  simp only [Broker.dispatchAll, hpurge, hsrv, hloop, bind, Except.bind]

lemma serviceDispatch_moves (now : ℤ) {name : String} {srv : Service} (msg : Zmsg) (uuid : String)
    (h : Live b) (hsrv : b.services.lookup name = some srv) :
    ∃ b', b.serviceDispatch lib now name (some msg) uuid = .ok b' ∧
      Moves again memory (b.queueRequest name srv msg uuid) b' := by
  simp only [Broker.serviceDispatch, hsrv]
  exact dispatchAll_moves lib now name (h.queueRequest hsrv msg uuid) ⟨_, lookup_insert _⟩

lemma workerWaiting_moves (r : Readings) {p : ℕ} {wrk : Worker} {name : String} (h : Live b)
    (hp : b.heap p = some wrk) (hwrk : wrk.service = some name) (hagain : p ∈ b.waiting → again) :
    ∃ b', b.workerWaiting lib r p = .ok b' ∧ Moves again memory b b' := by
  obtain ⟨srv, hsrv⟩ := h.served p wrk name hp hwrk
  have henlist : Move again memory b (b.enlist p name srv) := .enlist p wrk name srv hp hwrk hsrv hagain
  have hseen : Move again memory (b.enlist p name srv) ((b.enlist p name srv).seen p wrk r.clock) :=
    .seen p wrk r.clock hp
  obtain ⟨srv', hsrv'⟩ := hseen.keeps_service (henlist.keeps_service ⟨srv, hsrv⟩)
  obtain ⟨b', hok, hmoves⟩ := dispatchAll_moves lib r.purge name (hseen.live (henlist.live h)) ⟨srv', hsrv'⟩
  refine ⟨b', ?_, .head henlist (.head hseen hmoves)⟩
  simp only [Broker.workerWaiting, Broker.deref, hp, Broker.serviceOf, hwrk, hsrv, Broker.serviceDispatch,
    hsrv', bind, Except.bind]
  exact hok

lemma sendHeartbeats_moves (h : ∀ p ∈ l, ∃ wrk, b.heap p = some wrk) :
    ∃ b', b.sendHeartbeats l = .ok b' ∧ Moves again memory b b' := by
  induction l generalizing b with
  | nil => exact ⟨b, rfl, .refl⟩
  | cons p rest ih =>
    obtain ⟨wrk, hp⟩ := h p mem_cons_self
    have hsend : Move again memory b (b.workerSend wrk mdpwHeartbeat "" []) :=
      not_isRequest_workerSend (by decide) "" []
    have hrest : ∃ b', (b.workerSend wrk mdpwHeartbeat "" []).sendHeartbeats rest = .ok b' ∧
        Moves again memory (b.workerSend wrk mdpwHeartbeat "" []) b' :=
      ih fun q hq => h q (mem_cons_of_mem _ hq)
    obtain ⟨b', hok, hmoves⟩ := hrest
    refine ⟨b', ?_, .head hsend hmoves⟩
    simp only [Broker.sendHeartbeats, Broker.deref, hp]
    exact hok

lemma tick_moves (r : Readings) (sclock : ℤ) (h : Live b) :
    ∃ b', b.tick lib r sclock = .ok b' ∧ Moves again memory b b' := by
  rw [Broker.tick]
  split
  next =>
    have hpurged : ∃ b1, b.purgeWorkers lib r.purge = .ok b1 ∧ Moves again memory b b1 :=
      purgeWorkers_moves lib r.purge h
    obtain ⟨b1, hpurge, hmoves⟩ := hpurged
    have hsent : ∃ b2, b1.sendHeartbeats b1.waiting = .ok b2 ∧ Moves again memory b1 b2 :=
      sendHeartbeats_moves (hmoves.live h).listed
    obtain ⟨b2, hsend, hmoves'⟩ := hsent
    refine ⟨{ b2 with heartbeatAt := r.clock + heartbeatInterval }, ?_,
      (hmoves.trans hmoves').tail (.heartbeatAt _)⟩
    simp only [hpurge, hsend, bind, Except.bind]
  next => exact ⟨b, rfl, .refl⟩

end Functions

end Gds
