import ZeroMQ.Gds.BrokerQueues
import ZeroMQ.Gds.Dispatching

/-!
# Dispatching in the GDS broker

Dispatching first deletes the workers that have expired and then hands requests over until it finds no worker
for whose project there is a request. When it moves to the worker of a project that has been seen last it goes
on behind that one, so that workers of other projects in between are passed over. They stay without work,
although there are requests for their projects, exactly if `Starves` says so of the workers that have not
expired and of the numbers of the requests.
-/

namespace Gds

open Foundation List Nat

/-! ### Workers through pointers -/

/-- The UUID of the project of a worker. -/
def Broker.uuidAt (b : Broker) (p : ℕ) : String :=
  match b.heap p with
  | some wrk => wrk.uuid
  | none => ""

/-- When a worker expires. -/
def Broker.expiryAt (b : Broker) (p : ℕ) : ℤ :=
  match b.heap p with
  | some wrk => wrk.expiry
  | none => 0

/-- A worker waits and has expired. -/
def Broker.Expired (b : Broker) (now : ℤ) (p : ℕ) : Prop := p ∈ b.waiting ∧ b.expiryAt p ≤ now

instance (b : Broker) (now : ℤ) (p : ℕ) : Decidable (b.Expired now p) := inferInstanceAs (Decidable (_ ∧ _))

/-- How many requests are queued for a project. -/
def Service.pending (srv : Service) (uuid : String) : ℕ := (srv.queue uuid).length

/-- A worker of a service waits although a request for its project is queued. -/
def Broker.Idle (b : Broker) (name : String) : Prop :=
  ∃ srv ∈ b.services.lookup name, ∃ p ∈ srv.waiting, ∃ wrk ∈ b.heap p, srv.queue wrk.uuid ≠ []

instance (b : Broker) (name : String) : Decidable (b.Idle name) := by
  unfold Broker.Idle
  infer_instance

section Pointers

variable {b : Broker} {p : ℕ} {wrk : Worker}

lemma Broker.uuidAt_eq (h : b.heap p = some wrk) : b.uuidAt p = wrk.uuid := by rw [uuidAt, h]

lemma Broker.expiryAt_eq (h : b.heap p = some wrk) : b.expiryAt p = wrk.expiry := by rw [expiryAt, h]

lemma Service.pending_pos (srv : Service) (uuid : String) : 0 < srv.pending uuid ↔ srv.queue uuid ≠ [] :=
  length_pos_iff

end Pointers

/-! ### Workers that have expired -/

/-- The workers that have expired are gone, and nothing else has happened to workers and services. -/
structure Purged (now : ℤ) (b b' : Broker) : Prop where
  heap : ∀ p, b'.heap p = if b.Expired now p then none else b.heap p
  services : ∀ name srv, b.services.lookup name = some srv → ∃ srv', b'.services.lookup name = some srv' ∧
    srv'.requests = srv.requests ∧ srv'.waiting = srv.waiting.filter fun p => ¬ b.Expired now p

section Purge

variable {now : ℤ} {b b' : Broker}

lemma Purged.refl (hseen : ∀ p ∈ b.waiting, now < b.expiryAt p) : Purged now b b := by
  have hnone : ∀ p, ¬ b.Expired now p := fun p hexpired => absurd hexpired.2 (not_le_of_gt (hseen p hexpired.1))
  refine ⟨fun p => (if_neg (hnone p)).symm, fun name srv hsrv => ⟨srv, hsrv, rfl, ?_⟩⟩
  exact (filter_eq_self.mpr fun p _ => decide_eq_true (hnone p)).symm

lemma expired_remove {p : ℕ} {wrk : Worker} (q : ℕ) :
    (b.remove p wrk).Expired now q ↔ b.Expired now q ∧ q ≠ p := by
  have hwaiting : (b.remove p wrk).waiting = b.waiting.filter (· ≠ p) := by
    rw [Broker.remove, Broker.destroy, Broker.detach_waiting]
  rw [Broker.Expired, Broker.Expired, hwaiting, mem_filter, decide_eq_true_eq, Broker.expiryAt, heap_remove]
  by_cases hq : q = p
  · simp [hq]
  · rw [if_neg hq]
    exact and_right_comm

lemma Purged.remove (hlive : Live b) {p : ℕ} {wrk : Worker} (hp : b.heap p = some wrk)
    (hexpired : b.Expired now p) (h : Purged now (b.remove p wrk) b') : Purged now b b' where
  heap q := by
    rw [h.heap, heap_remove]
    by_cases hq : q = p
    · rw [if_pos hq, hq, if_pos hexpired]
      exact ite_self _
    · rw [if_neg hq]
      exact if_congr ((expired_remove q).trans (and_iff_left hq)) rfl rfl
  services name srv hsrv := by
    have hleft := hlive.lookup_remove hp name
    rw [hsrv, Option.map_some] at hleft
    obtain ⟨srv', hsrv', hrequests, hwaiting⟩ := h.services name _ hleft
    refine ⟨srv', hsrv', hrequests, ?_⟩
    rw [hwaiting, filter_filter]
    refine filter_congr fun q _ => ?_
    rw [← Bool.decide_and, decide_eq_decide, expired_remove]
    constructor
    · exact fun ⟨hnot, hne⟩ hexpired => hnot ⟨hexpired, hne⟩
    · refine fun hnot => ⟨fun hexpired => hnot hexpired.1, ?_⟩
      rintro rfl
      exact hnot hexpired

lemma waiting_remove {p : ℕ} {wrk : Worker} {before rest : List ℕ} (hwaiting : b.waiting = before ++ p :: rest)
    (hnot : p ∉ before) : (b.remove p wrk).waiting = before ++ rest.filter (· ≠ p) := by
  change (b.detach p wrk).waiting.filter (· ≠ p) = _
  rw [Broker.detach_waiting, hwaiting, filter_append]
  congr 1
  · refine filter_eq_self.mpr fun q hq => ?_
    rw [decide_eq_true_eq]
    rintro rfl
    exact hnot hq
  · exact filter_cons_of_neg (by simp)

lemma purgeFrom_purged (lib : JsonLib) (hlive : Live b) (fuel : ℕ) {before rest : List ℕ}
    (hwaiting : b.waiting = before ++ rest) (hfuel : rest.length ≤ fuel)
    (hbefore : ∀ p ∈ before, now < b.expiryAt p) :
    ∃ b', b.purgeFrom lib now fuel before.length = .ok b' ∧ Live b' ∧ Purged now b b' := by
  induction fuel generalizing b before rest with
  | zero =>
    rw [length_eq_zero_iff.mp (Nat.le_zero.mp hfuel), append_nil] at hwaiting
    exact ⟨b, rfl, hlive, .refl (hwaiting ▸ hbefore)⟩
  | succ fuel ih =>
    rw [Broker.purgeFrom, hwaiting, getElem?_append_right le_rfl, Nat.sub_self]
    cases rest with
    | nil =>
      rw [append_nil] at hwaiting
      exact ⟨b, rfl, hlive, .refl (hwaiting ▸ hbefore)⟩
    | cons p rest =>
      obtain ⟨wrk, hp⟩ := hlive.listed p (by rw [hwaiting]; simp)
      have hexpiry : b.expiryAt p = wrk.expiry := Broker.expiryAt_eq hp
      simp only [getElem?_cons_zero, Broker.deref, hp]
      by_cases hseen : wrk.expiry > now
      · have hnext : ∀ q ∈ before ++ [p], now < b.expiryAt q := fun q hq => by
          rcases mem_append.mp hq with hq | hq
          · exact hbefore q hq
          · rw [mem_singleton.mp hq, hexpiry]
            exact hseen
        have hrest := ih hlive (hwaiting.trans (append_cons _ _ _)) (Nat.le_of_succ_le_succ hfuel) hnext
        rw [length_append] at hrest
        rw [if_pos hseen]
        exact hrest
      · have hexpired : b.Expired now p := ⟨by rw [hwaiting]; simp, by rw [hexpiry]; exact not_lt.mp hseen⟩
        have hnot : p ∉ before := fun hmem => absurd (hbefore p hmem) (by rw [hexpiry]; exact hseen)
        obtain ⟨text, hdelete⟩ := workerDelete_spec lib hp false
        have hremoved : Live ((b.remove p wrk).clientPub text) := by
          have hmove : Move False 0 (b.remove p wrk) ((b.remove p wrk).clientPub text) := .publish text
          exact hmove.live (hlive.remove hp)
        have hkept : ∀ q ∈ before, now < ((b.remove p wrk).clientPub text).expiryAt q := fun q hq => by
          have hne : q ≠ p := fun heq => hnot (heq ▸ hq)
          have hheap : ((b.remove p wrk).clientPub text).heap q = b.heap q := by
            exact (heap_remove p q wrk).trans (if_neg hne)
          rw [Broker.expiryAt, hheap]
          exact hbefore q hq
        have hlen : (rest.filter (· ≠ p)).length ≤ fuel :=
          (length_filter_le _ _).trans (Nat.le_of_succ_le_succ hfuel)
        obtain ⟨b', hok, hlive', hpurged⟩ := ih hremoved (waiting_remove hwaiting hnot) hlen hkept
        refine ⟨b', ?_, hlive', .remove hlive hp hexpired ⟨hpurged.heap, hpurged.services⟩⟩
        rw [if_neg hseen, hdelete]
        exact hok

lemma purgeWorkers_purged (lib : JsonLib) (now : ℤ) (hlive : Live b) :
    ∃ b', b.purgeWorkers lib now = .ok b' ∧ Live b' ∧ Purged now b b' :=
  purgeFrom_purged lib hlive b.waiting.length (nil_append b.waiting).symm le_rfl fun p hp => (by cases hp)

end Purge

/-! ### The loops -/

section Loops

variable {b : Broker}

lemma mostRecent_eq {wrk : ℕ × List ℕ} {next : List ℕ} (hwrk : ∃ w, b.heap wrk.1 = some w)
    (hnext : ∀ p ∈ next, ∃ w, b.heap p = some w) :
    b.mostRecent wrk next = .ok (recent b.uuidAt b.expiryAt wrk next) := by
  induction next generalizing wrk with
  | nil => rfl
  | cons p next ih =>
    obtain ⟨current, hcurrent⟩ := hwrk
    obtain ⟨other, hother⟩ := hnext p mem_cons_self
    have hrest : ∀ q ∈ next, ∃ w, b.heap q = some w := fun q hq => hnext q (mem_cons_of_mem _ hq)
    simp only [Broker.mostRecent, Broker.deref, hcurrent, hother, bind, Except.bind, recent,
      Broker.uuidAt_eq hcurrent, Broker.uuidAt_eq hother, Broker.expiryAt_eq hcurrent, Broker.expiryAt_eq hother]
    split
    · exact ih ⟨other, hother⟩ hrest
    · exact ih ⟨current, hcurrent⟩ hrest

lemma findRequest_eq (srv : Service) (fuel : ℕ) {l : List ℕ} (h : ∀ p ∈ l, ∃ w, b.heap p = some w) :
    b.findRequest srv fuel l = .ok (find b.uuidAt b.expiryAt srv.pending fuel l) := by
  induction fuel generalizing l with
  | zero => rfl
  | succ fuel ih =>
    cases l with
    | nil => rfl
    | cons p next =>
      have hrecent : b.mostRecent (p, next) next = .ok (recent b.uuidAt b.expiryAt (p, next) next) :=
        mostRecent_eq (h p mem_cons_self) fun q hq => h q (mem_cons_of_mem _ hq)
      obtain ⟨before, hspec⟩ := recent_spec b.uuidAt b.expiryAt p next
      rw [find]
      generalize recent b.uuidAt b.expiryAt (p, next) next = wrk at hrecent hspec ⊢
      obtain ⟨current, hcurrent⟩ := h wrk.1 (by rw [hspec.split]; simp)
      have hrest : ∀ q ∈ wrk.2, ∃ w, b.heap q = some w := fun q hq => h q (by rw [hspec.split]; simp [hq])
      simp only [Broker.findRequest, hrecent, Broker.deref, hcurrent, bind, Except.bind,
        Broker.uuidAt_eq hcurrent, Service.pending_pos]
      split
      · rfl
      · exact ih hrest

lemma find_eq_none {requests : String → ℕ} (hzero : ∀ uuid, requests uuid = 0) (fuel : ℕ) (l : List ℕ) :
    find b.uuidAt b.expiryAt requests fuel l = none := by
  induction fuel generalizing l with
  | zero => rfl
  | succ fuel ih =>
    cases l with
    | nil => rfl
    | cons p next => rw [find, hzero, if_neg (lt_irrefl 0), ih]

lemma serve_eq_self {requests : String → ℕ} {l : List ℕ}
    (hnone : find b.uuidAt b.expiryAt requests l.length l = none) (fuel : ℕ) :
    serve b.uuidAt b.expiryAt fuel l requests = (l, requests) := by
  cases fuel with
  | zero => rfl
  | succ fuel => rw [serve, hnone]

lemma pending_handOver (srv : Service) {uuid : String} {msg : Zmsg} {rest : List Zmsg} (waiting : List ℕ)
    (hqueue : srv.queue uuid = msg :: rest) :
    Service.pending { srv.takeRequest uuid rest with waiting } = takeOne srv.pending uuid := by
  funext u
  change ((srv.takeRequest uuid rest).queue u).length = _
  rw [Service.queue_takeRequest, takeOne, Function.update_apply]
  split
  · rw [Service.pending, hqueue, length_cons, Nat.add_sub_cancel]
  · rfl

lemma dispatchLoop_serves (name : String) (fuel : ℕ) (hlive : Live b) {srv : Service}
    (hsrv : b.services.lookup name = some srv) :
    ∃ b' srv', Broker.dispatchLoop name fuel b = .ok b' ∧ b'.heap = b.heap ∧
      b'.services.lookup name = some srv' ∧
      (srv'.waiting, srv'.pending) = serve b.uuidAt b.expiryAt fuel srv.waiting srv.pending := by
  induction fuel generalizing b srv with
  | zero => exact ⟨b, srv, rfl, rfl, hsrv, rfl⟩
  | succ fuel ih =>
    rw [Broker.dispatchLoop, hsrv]
    have hwaiting : ∀ p ∈ srv.waiting, ∃ wrk, b.heap p = some wrk := fun p hp => by
      obtain ⟨wrk, hwrk, -⟩ := hlive.attached name srv hsrv p hp
      exact ⟨wrk, hwrk⟩
    by_cases hempty : srv.waiting = [] ∨ srv.requests = ∅
    · have hnone : find b.uuidAt b.expiryAt srv.pending srv.waiting.length srv.waiting = none := by
        rcases hempty with hnil | hempty
        · rw [hnil]
          exact find_nil _ _
        · refine find_eq_none (fun uuid => ?_) _ _
          rw [Service.pending, Service.queue, hempty]
          rfl
      exact ⟨b, srv, if_pos hempty, rfl, hsrv, (serve_eq_self hnone _).symm⟩
    · have hfound := findRequest_eq srv srv.waiting.length hwaiting
      obtain ⟨found, hfind, hspec⟩ := findRequest_spec srv srv.waiting.length hwaiting
      obtain rfl := Except.ok.inj (hfind.symm.trans hfound)
      simp only [if_neg hempty, readIDs_ok hwaiting, hfound, bind, Except.bind]
      cases hfind' : find b.uuidAt b.expiryAt srv.pending srv.waiting.length srv.waiting with
      | none => exact ⟨b, srv, rfl, rfl, hsrv, (serve_eq_self hfind' _).symm⟩
      | some wrk =>
        obtain ⟨hle, w, hp, hne⟩ := hspec wrk hfind'
        obtain ⟨before, msg, rest, hbefore, hqueue, hok⟩ := dispatchTo_spec name hle hp hne
        have hmove : Move False 0 b (b.handOver name srv wrk.1 w (before ++ wrk.2) msg rest) :=
          .handOver name srv wrk.1 w before wrk.2 msg rest hsrv hbefore hp hqueue
        obtain ⟨b', srv', hrest, hheap, hsrv', hserve⟩ := ih (hmove.live hlive) (Finmap.lookup_insert _)
        refine ⟨b', srv', by simp only [hok]; exact hrest, hheap, hsrv', ?_⟩
        have htake : srv.waiting.take (srv.waiting.length - wrk.2.length - 1) = before := by
          rw [hbefore]
          refine take_left' ?_
          rw [length_append, length_cons]
          omega
        rw [hserve, serve, hfind', pending_handOver srv _ hqueue]
        simp only [htake, Broker.uuidAt_eq hp]
        rfl

end Loops

/-! ### Dispatching -/

section Dispatch

variable {b : Broker}

lemma idle_iff (hlive : Live b) {name : String} {srv : Service} (hsrv : b.services.lookup name = some srv) :
    b.Idle name ↔ Starving b.uuidAt (srv.waiting, srv.pending) := by
  constructor
  · rintro ⟨srv', hsrv', p, hp, wrk, hwrk, hne⟩
    obtain rfl := Option.some.inj (hsrv.symm.trans hsrv')
    exact ⟨p, hp, by rw [Broker.uuidAt_eq hwrk]; exact (srv.pending_pos _).mpr hne⟩
  · rintro ⟨p, hp, hpos⟩
    obtain ⟨wrk, hwrk, -⟩ := hlive.attached name srv hsrv p hp
    rw [Broker.uuidAt_eq hwrk] at hpos
    exact ⟨srv, hsrv, p, hp, wrk, hwrk, (srv.pending_pos _).mp hpos⟩

/-- The workers of a service that still wait when those have been deleted that have expired. -/
def Broker.remaining (b : Broker) (now : ℤ) (srv : Service) : List ℕ :=
  srv.waiting.filter fun p => ¬ b.Expired now p

/-- How many requests are queued for a project with a new one. -/
def Service.pendingWith (srv : Service) (msg : Option Zmsg) (strUuid uuid : String) : ℕ :=
  srv.pending uuid + if msg.isSome ∧ uuid = strUuid then 1 else 0

lemma dispatchAll_idle_iff (lib : JsonLib) (hlive : Live b) (now : ℤ) {name : String} {srv : Service}
    (hsrv : b.services.lookup name = some srv) :
    ∃ b', b.dispatchAll lib now name = .ok b' ∧
      (b'.Idle name ↔ Starves b.uuidAt b.expiryAt srv.pending (b.remaining now srv)) := by
  obtain ⟨b1, hpurge, hlive1, hpurged⟩ := purgeWorkers_purged lib now hlive
  obtain ⟨srv1, hsrv1, hrequests, hwaiting⟩ := hpurged.services name srv hsrv
  obtain ⟨b', srv', hloop, hheap, hsrv', hserve⟩ := dispatchLoop_serves name srv1.waiting.length hlive1 hsrv1
  have hmoved : ∃ b2, Broker.dispatchLoop name srv1.waiting.length b1 = .ok b2 ∧ Moves False 0 b1 b2 :=
    dispatchLoop_moves name _ hlive1 ⟨srv1, hsrv1⟩
  obtain ⟨b2, hloop', hmoves⟩ := hmoved
  obtain rfl := Except.ok.inj (hloop.symm.trans hloop')
  have hlive' : Live b' := hmoves.live hlive1
  have hpending : srv1.pending = srv.pending := by
    funext uuid
    rw [Service.pending, Service.pending, Service.queue, Service.queue, hrequests]
  -- Those that remain are as they were before.
  have hkept : ∀ p ∈ b.remaining now srv, b1.heap p = b.heap p := fun p hp => by
    rw [hpurged.heap, if_neg (by simpa using (mem_filter.mp hp).2)]
  have huuid : ∀ p ∈ b.remaining now srv, b1.uuidAt p = b.uuidAt p := fun p hp => by
    rw [Broker.uuidAt, Broker.uuidAt, hkept p hp]
  have hexpiry : ∀ p ∈ b.remaining now srv, b1.expiryAt p = b.expiryAt p := fun p hp => by
    rw [Broker.expiryAt, Broker.expiryAt, hkept p hp]
  refine ⟨b', by simp only [Broker.dispatchAll, hpurge, hsrv1, hloop, bind, Except.bind], ?_⟩
  have huuid' : b'.uuidAt = b1.uuidAt := by
    funext p
    rw [Broker.uuidAt, Broker.uuidAt, hheap]
  rw [idle_iff hlive' hsrv', hserve, huuid', starving_serve_iff _ _ _ le_rfl, hpending, hwaiting]
  constructor
  · exact fun h => h.congr huuid hexpiry
  · exact fun h => h.congr (fun p hp => (huuid p hp).symm) fun p hp => (hexpiry p hp).symm

/-- **Dispatching.** From every state with safe pointers, for every service, dispatching ends, with a new
request or without, and then no worker of the service waits for whose project a request is queued, exactly if
none starves among those that have not expired. -/
theorem dispatch_work_conserving (lib : JsonLib) (b : Broker) (hlive : Live b) (now : ℤ) (name : String)
    (srv : Service) (hsrv : b.services.lookup name = some srv) (msg : Option Zmsg) (strUuid : String) :
    ∃ b', b.serviceDispatch lib now name msg strUuid = .ok b' ∧
      (¬ b'.Idle name ↔
        ¬ Starves b.uuidAt b.expiryAt (srv.pendingWith msg strUuid) (b.remaining now srv)) := by
  cases msg with
  | none =>
    obtain ⟨b', hok, hiff⟩ := dispatchAll_idle_iff lib hlive now hsrv
    refine ⟨b', by simp only [Broker.serviceDispatch, hsrv]; exact hok, ?_⟩
    have hpending : srv.pendingWith none strUuid = srv.pending := by
      funext uuid
      rw [Service.pendingWith, if_neg (by simp), add_zero]
    rw [hpending, hiff]
  | some msg =>
    have hlookup : (b.queueRequest name srv msg strUuid).services.lookup name =
        some { srv with requests := srv.requests.insert strUuid (srv.queue strUuid ++ [msg]) } :=
      Finmap.lookup_insert _
    obtain ⟨b', hok, hiff⟩ := dispatchAll_idle_iff lib (hlive.queueRequest hsrv msg strUuid) now hlookup
    refine ⟨b', by simp only [Broker.serviceDispatch, hsrv]; exact hok, ?_⟩
    have hpending : Service.pending
        { srv with requests := srv.requests.insert strUuid (srv.queue strUuid ++ [msg]) } =
        srv.pendingWith (some msg) strUuid := by
      funext uuid
      rw [Service.pending, Service.pendingWith, Service.queue]
      by_cases huuid : uuid = strUuid
      · rw [huuid, Finmap.lookup_insert, if_pos ⟨rfl, rfl⟩]
        exact length_append
      · rw [Finmap.lookup_insert_of_ne _ huuid, if_neg fun h => huuid h.2, add_zero]
        rfl
    rw [hpending] at hiff
    exact not_congr hiff

/-- The library on texts of projects. -/
def JsonLib.ofTexts (texts : List (String × Json)) : JsonLib := ⟨fun _ => "", fun str => texts.lookup str⟩

/-- A project with a UUID, as a tree. -/
def projectNode (uuid : String) : Json :=
  .object [("OperatorType", .int 0), ("m_projectType", .int 0), ("m_strName", .string ""),
    ("m_strPath", .string ""), ("m_strUUID", .string uuid)]

def projectTextA : String := "\x7b\"OperatorType\":0,\"m_projectType\":0,\"m_strName\":\"\",\"m_strPath\":\"\"," ++
  "\"m_strUUID\":\"aaaaaaaaaaaaaaaaaaaaaaaaaaaaaaaa\"\x7d"

def projectTextB : String := "\x7b\"OperatorType\":0,\"m_projectType\":0,\"m_strName\":\"\",\"m_strPath\":\"\"," ++
  "\"m_strUUID\":\"bbbbbbbbbbbbbbbbbbbbbbbbbbbbbbbb\"\x7d"

/-- The library on the texts of two projects. -/
def JsonLib.twoProjects : JsonLib := .ofTexts
  [(projectTextA, projectNode "aaaaaaaaaaaaaaaaaaaaaaaaaaaaaaaa"),
    (projectTextB, projectNode "bbbbbbbbbbbbbbbbbbbbbbbbbbbbbbbb")]

/-- A worker of the service `echo` registers. -/
def readyEvent (identity project : String) (clock : ℤ) : BrokerEvent :=
  .message [bytes identity, [], bytes "MDPW01", [1], bytes "echo", bytes project] ⟨clock, clock, 0, 0⟩

/-- Two workers register, and a request for the project of the second is dispatched. -/
theorem dispatch_work_conserving_run : ∃ b, runSteps (Broker.step JsonLib.twoProjects true) (Broker.initial 0)
    [readyEvent "A" projectTextA 1, readyEvent "B" projectTextB 2] = .ok b ∧
    ∃ b', b.serviceDispatch JsonLib.twoProjects 2 "echo" (some ["hello"]) "bbbbbbbbbbbbbbbbbbbbbbbbbbbbbbbb" =
      .ok b' ∧ ¬ b'.Idle "echo" := by
  refine okAnd.exists_imp (P := fun b => ∃ srv ∈ b.services.lookup "echo", (srv.waiting.map b.uuidAt).Nodup)
    (by decide +kernel) fun b hb ⟨srv, hsrv, hnodup⟩ => ?_
  have hreachable : b.Reachable JsonLib.twoProjects true := ⟨0, _, hb⟩
  obtain ⟨b', hok, hiff⟩ := dispatch_work_conserving JsonLib.twoProjects b hreachable.live 2 "echo" srv hsrv
    (some ["hello"]) "bbbbbbbbbbbbbbbbbbbbbbbbbbbbbbbb"
  refine ⟨b', hok, hiff.mpr (not_starves_of_nodup ?_)⟩
  exact (filter_sublist.map b.uuidAt).nodup hnodup

/-- The workers A, B and C register, A and C for one project and B for another. A request for the project of B
comes: the search moves from A to C, which has been seen later, and goes on behind it, so that B waits although
the request for its project is queued. -/
theorem dispatch_not_work_conserving : ∃ b, runSteps (Broker.step JsonLib.twoProjects true) (Broker.initial 0)
    [readyEvent "A" projectTextA 1, readyEvent "B" projectTextB 2, readyEvent "C" projectTextA 3,
      .message [bytes "client", [], bytes "MDPC01", bytes "echo.bbbbbbbbbbbbbbbbbbbbbbbbbbbbbbbb", bytes "hello"]
        ⟨4, 4, 0, 0⟩] = .ok b ∧ b.Idle "echo" := by
  refine okAnd.exists ?_
  decide +kernel

end Dispatch

end Gds
