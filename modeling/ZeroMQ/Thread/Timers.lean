import Mathlib.Algebra.Ring.Int.Defs
import Mathlib.Algebra.Ring.Nat
import Mathlib.Data.List.Sort
import ZeroMQ.Foundation.Run

/-!
# The timers of a poller

A poller keeps its timers in a multimap with their expirations as keys, and `execute_timers` goes through it from the
beginning while the handlers that it calls add timers and cancel some. A timer is erased when its handler has
returned; until then it is in the map, and a handler that cancels a timer with the sink and the id of the one that is
being triggered erases the node that the loop stands on. As long as this does not happen and timeouts are not
negative, every timer is triggered once, when it is due, and in the order of the expirations.

A step is a call from outside, a call of a handler, or the return of a handler. Besides the map the state has what has
been observed: which timers have been added, triggered and cancelled, and what the calls of `execute_timers` have left.
-/

namespace Zmq

open Foundation List Nat Prod

variable {S : Type}

/-! ### The poller -/

/-- A node of the multimap: the key, and `timer_info_t`. The serial number tells nodes apart. -/
structure Timer (S : Type) where
  serial : ℕ
  expiration : ℕ
  sink : S
  id : Int
  deriving DecidableEq

/-- A call of `execute_timers` that has returned: the clock it has read, what it has returned, and the timers that it
has left. -/
structure TimersReturn (S : Type) where
  clock : ℕ
  value : ℕ
  left : List (Timer S)

/-- The timers of `poller_base_t`, and what has been observed. -/
structure PollerBase (S : Type) where
  /-- The multimap, in its order. -/
  timers : List (Timer S)
  /-- The last value of the clock. -/
  clock : ℕ
  /-- In `execute_timers`, while a handler runs: `current`, and the node of the iterator. -/
  firing : Option (ℕ × Timer S)
  added : List (Timer S)
  /-- The timers that have been triggered, with the clock that `execute_timers` had read. -/
  fired : List (Timer S × ℕ)
  cancelled : List (Timer S)
  returned : List (TimersReturn S)

/-- What must not happen. -/
inductive TimerFault
  /-- `cancel_timer` has not found the timer. -/
  | timerNotFound
  /-- The node of the iterator has been erased. -/
  | danglingIterator
  deriving DecidableEq, Repr

/-- What happens to a poller; with a reading of the clock in microseconds, where the clock is read. -/
inductive PollerEvent (S : Type)
  | addTimer (us : UInt64) (timeout : Int32) (sink : S) (id : Int)
  | cancelTimer (sink : S) (id : Int)
  | executeTimers (us : UInt64)
  /-- The handler that has been called by `execute_timers` returns. -/
  | handlerReturns

/-- `clock_t::now_ms`. -/
def nowMs (us : UInt64) : ℕ := us.toNat / 1000

namespace PollerBase

/-- The constructor. -/
def new : PollerBase S := ⟨[], 0, none, [], [], [], []⟩

/-- `multimap::insert`: behind the nodes with the same key. -/
def insertTimer (t : Timer S) : List (Timer S) → List (Timer S)
  | [] => [t]
  | u :: timers => if t.expiration < u.expiration then t :: u :: timers else u :: insertTimer t timers

/-- `add_timer`. -/
def addTimer (us : UInt64) (timeout : Int32) (sink : S) (id : Int) (s : PollerBase S) : PollerBase S :=
  let expiration : Int := ((nowMs us : Int) + timeout.toInt) % 2 ^ 64
  let t : Timer S := ⟨s.added.length, expiration.toNat, sink, id⟩
  { s with timers := insertTimer t s.timers, clock := nowMs us, added := s.added ++ [t] }

variable [DecidableEq S]

/-- `cancel_timer`. -/
def cancelTimer (sink : S) (id : Int) (s : PollerBase S) : Except TimerFault (PollerBase S) :=
  match s.timers.find? fun t => t.sink = sink ∧ t.id = id with
  | none => .error .timerNotFound
  | some t => .ok { s with timers := s.timers.erase t, cancelled := s.cancelled ++ [t] }

/-- `execute_timers` returns. -/
def returns (current value : ℕ) (s : PollerBase S) : PollerBase S :=
  { s with firing := none, returned := s.returned ++ [⟨current, value, s.timers⟩] }

/-- The loop of `execute_timers` up to the call of a handler, for the nodes from the iterator on. -/
def resume (current : ℕ) (it : List (Timer S)) (s : PollerBase S) : PollerBase S :=
  match it with
  | [] => s.returns current 0
  | t :: _ =>
    if t.expiration > current then s.returns current (t.expiration - current)
    else { s with firing := some (current, t), fired := s.fired ++ [(t, current)] }

/-- `execute_timers`, up to the call of the first handler. -/
def executeTimers (us : UInt64) (s : PollerBase S) : PollerBase S :=
  if s.timers = [] then s.returns s.clock 0
  else { s with clock := nowMs us }.resume (nowMs us) s.timers

/-- `execute_timers`, from the return of a handler to the call of the next one. -/
def handlerReturns (current : ℕ) (t : Timer S) (s : PollerBase S) : Except TimerFault (PollerBase S) :=
  if t ∈ s.timers then
    let it := (s.timers.dropWhile (· ≠ t)).tail
    .ok ({ s with timers := s.timers.erase t, firing := none }.resume current it)
  else .error .danglingIterator

/-- A step. Handlers do not call `execute_timers`. -/
def step (s : PollerBase S) : PollerEvent S → Except TimerFault (PollerBase S)
  | .addTimer us timeout sink id => .ok (s.addTimer us timeout sink id)
  | .cancelTimer sink id => s.cancelTimer sink id
  | .executeTimers us =>
    match s.firing with
    | none => .ok (s.executeTimers us)
    | some _ => .ok s
  | .handlerReturns =>
    match s.firing with
    | none => .ok s
    | some (current, t) => s.handlerReturns current t

/-- The timers that have not been triggered and not been cancelled. -/
def pending (s : PollerBase S) : List (Timer S) :=
  match s.firing with
  | none => s.timers
  | some (_, t) => s.timers.erase t

/-- A call of `execute_timers` leaves the timers that are not due, and it returns how long it takes until the first of
them is, or 0 when it leaves none. -/
structure LeavesRight (r : TimersReturn S) : Prop where
  notDue : ∀ t ∈ r.left, r.clock < t.expiration
  zero : r.value = 0 → r.left = []
  earliest : r.left ≠ [] → ∃ t ∈ r.left, t.expiration = r.clock + r.value ∧ ∀ u ∈ r.left, t.expiration ≤ u.expiration

/-- Every timer that has been added has been triggered once, or cancelled, or neither yet; timers are triggered in the
order of their expirations, when they are due and not later than in the first `execute_timers` that finds them due. -/
structure Orderly (s : PollerBase S) : Prop where
  once : s.added.Perm (s.fired.map Prod.fst ++ s.cancelled ++ s.pending)
  distinct : s.added.Nodup
  inOrder : (s.fired.map fun f => f.1.expiration).Pairwise (· ≤ ·)
  due : ∀ f ∈ s.fired, f.1.expiration ≤ f.2
  returned : ∀ r ∈ s.returned, LeavesRight r

/-- The clock does not go back, timeouts are not negative, and no handler cancels a timer with the sink and the id of
the one that is being triggered. -/
def WellUsed (s : PollerBase S) : PollerEvent S → Prop
  | .addTimer us timeout _ _ => s.clock ≤ nowMs us ∧ 0 ≤ timeout.toInt
  | .cancelTimer sink id => ∀ e ∈ s.firing, ¬(e.2.sink = sink ∧ e.2.id = id)
  | .executeTimers us => s.clock ≤ nowMs us
  | .handlerReturns => True

instance (s : PollerBase S) (e : PollerEvent S) : Decidable (s.WellUsed e) :=
  match e with
  | .addTimer us timeout _ _ => inferInstanceAs (Decidable (s.clock ≤ nowMs us ∧ 0 ≤ timeout.toInt))
  | .cancelTimer sink id =>
    match hs : s.firing with
    | none => isTrue (by simp [WellUsed, hs])
    | some e => decidable_of_iff (¬(e.2.sink = sink ∧ e.2.id = id)) (by simp [WellUsed, hs])
  | .executeTimers us => inferInstanceAs (Decidable (s.clock ≤ nowMs us))
  | .handlerReturns => isTrue trivial

section Insert

variable {t u : Timer S} {timers : List (Timer S)}

omit [DecidableEq S] in
lemma insertTimer_perm (t : Timer S) (timers : List (Timer S)) : (insertTimer t timers).Perm (t :: timers) := by
  induction timers with
  | nil => exact .refl _
  | cons u timers ih =>
    rw [insertTimer]
    split
    · exact .refl _
    · exact (ih.cons u).trans (.swap t u timers)

omit [DecidableEq S] in
lemma insertTimer_sorted (h : timers.Pairwise fun a b => a.expiration ≤ b.expiration) (t : Timer S) :
    (insertTimer t timers).Pairwise fun a b => a.expiration ≤ b.expiration := by
  induction timers with
  | nil => exact pairwise_singleton _ _
  | cons u timers ih =>
    obtain ⟨hhead, htail⟩ := pairwise_cons.mp h
    rw [insertTimer]
    split
    next hlt =>
      refine pairwise_cons.mpr ⟨fun v hv => ?_, h⟩
      rcases mem_cons.mp hv with rfl | hmem
      · exact Nat.le_of_lt hlt
      · exact Nat.le_trans (Nat.le_of_lt hlt) (hhead v hmem)
    next hge =>
      refine pairwise_cons.mpr ⟨fun v hv => ?_, ih htail⟩
      rcases mem_cons.mp ((insertTimer_perm t timers).mem_iff.mp hv) with rfl | hmem
      · exact Nat.le_of_not_lt hge
      · exact hhead v hmem

omit [DecidableEq S] in
lemma insertTimer_cons (hle : u.expiration ≤ t.expiration) :
    insertTimer t (u :: timers) = u :: insertTimer t timers := if_neg (not_lt.mpr hle)

end Insert

lemma expiration_eq (us : UInt64) {timeout : Int32} (h : 0 ≤ timeout.toInt) :
    (((nowMs us : Int) + timeout.toInt) % 2 ^ 64).toNat = nowMs us + timeout.toInt.toNat := by
  have hus : us.toNat < 2 ^ 64 := us.toNat_lt
  have htimeout : timeout.toInt < 2 ^ 31 := timeout.toInt_lt
  unfold nowMs
  omega

/-! ### The invariant -/

/-- What holds whatever the poller does. -/
structure Inv (s : PollerBase S) : Prop where
  sorted : s.timers.Pairwise fun a b => a.expiration ≤ b.expiration
  once : s.added.Perm (s.fired.map Prod.fst ++ s.cancelled ++ s.pending)
  serials : ∀ t ∈ s.added, t.serial < s.added.length
  distinct : s.added.Nodup
  head : ∀ e ∈ s.firing, ∃ rest, s.timers = e.2 :: rest ∧ e.2.expiration ≤ e.1 ∧ e.1 ≤ s.clock
  inOrder : (s.fired.map fun f => f.1.expiration).Pairwise (· ≤ ·)
  below : ∀ f ∈ s.fired, ∀ t ∈ s.timers, f.1.expiration ≤ t.expiration
  due : ∀ f ∈ s.fired, f.1.expiration ≤ f.2 ∧ f.2 ≤ s.clock
  returned : ∀ r ∈ s.returned, LeavesRight r

variable {s : PollerBase S}

lemma Inv.orderly (h : s.Inv) : s.Orderly :=
  ⟨h.once, h.distinct, h.inOrder, fun f hf => (h.due f hf).1, h.returned⟩

lemma inv_new : (new : PollerBase S).Inv where
  sorted := List.Pairwise.nil
  once := .refl _
  serials t ht := by cases ht
  distinct := nodup_nil
  head e he := by cases he
  inOrder := List.Pairwise.nil
  below f hf := by cases hf
  due f hf := by cases hf
  returned r hr := by cases hr

lemma Inv.tick (h : s.Inv) {clock : ℕ} (hle : s.clock ≤ clock) : ({ s with clock := clock } : PollerBase S).Inv :=
  { h with
    head := fun e he => by
      obtain ⟨rest, hrest, hdue, hclock⟩ := h.head e he
      exact ⟨rest, hrest, hdue, le_trans hclock hle⟩
    due := fun f hf => ⟨(h.due f hf).1, le_trans (h.due f hf).2 hle⟩ }

lemma Inv.addTimer (h : s.Inv) {us : UInt64} {timeout : Int32} {sink : S} {id : Int} (hclock : s.clock ≤ nowMs us)
    (htimeout : 0 ≤ timeout.toInt) : (s.addTimer us timeout sink id).Inv := by
  generalize ht : (⟨s.added.length, nowMs us + timeout.toInt.toNat, sink, id⟩ : Timer S) = t
  have hexp : nowMs us ≤ t.expiration := by
    rw [← ht]
    exact le_add_right _ _
  have hstate : s.addTimer us timeout sink id =
      { s with timers := insertTimer t s.timers, clock := nowMs us, added := s.added ++ [t] } := by
    rw [PollerBase.addTimer, expiration_eq us htimeout, ht]
  have hmem : ∀ u, u ∈ insertTimer t s.timers ↔ u = t ∨ u ∈ s.timers := fun u =>
    (insertTimer_perm t s.timers).mem_iff.trans mem_cons
  have hpending : (pending { s with timers := insertTimer t s.timers, clock := nowMs us, added := s.added ++ [t] }).Perm
      (t :: s.pending) := by
    unfold pending
    cases hf : s.firing with
    | none => exact insertTimer_perm t s.timers
    | some e =>
      obtain ⟨rest, hrest, hdue, hnow⟩ := h.head e hf
      simp only [hrest, insertTimer_cons (show e.2.expiration ≤ t.expiration by omega), erase_cons_head]
      exact insertTimer_perm t rest
  rw [hstate]
  refine ⟨insertTimer_sorted h.sorted t, ?_, ?_, ?_, ?_, h.inOrder, ?_, ?_, h.returned⟩
  · calc s.added ++ [t]
      _ ~ t :: s.added := perm_append_singleton t s.added
      _ ~ t :: (s.fired.map fst ++ s.cancelled ++ s.pending) := h.once.cons t
      _ ~ s.fired.map fst ++ s.cancelled ++ t :: s.pending := perm_middle.symm
      _ ~ _ := hpending.symm.append_left _
  · intro u hu
    rw [length_append, length_singleton]
    rcases mem_append.mp hu with hold | hnew
    · exact lt_succ_of_lt (h.serials u hold)
    · obtain rfl := mem_singleton.mp hnew
      rw [← ht]
      exact lt_succ_self _
  · refine nodup_append.mpr ⟨h.distinct, nodup_singleton t, fun u hu v hv => ?_⟩
    obtain rfl := mem_singleton.mp hv
    rintro rfl
    have hless := h.serials u hu
    rw [← ht] at hless
    exact lt_irrefl _ hless
  · intro e he
    obtain ⟨rest, hrest, hdue, hnow⟩ := h.head e he
    refine ⟨insertTimer t rest, ?_, hdue, le_trans hnow hclock⟩
    rw [hrest, insertTimer_cons (by omega)]
  · intro f hf u hu
    rcases (hmem u).mp hu with rfl | hold
    · have hfired := h.due f hf
      omega
    · exact h.below f hf u hold
  · exact fun f hf => ⟨(h.due f hf).1, le_trans (h.due f hf).2 hclock⟩

lemma Inv.cancelTimer (h : s.Inv) {sink : S} {id : Int}
    (hother : ∀ e ∈ s.firing, ¬(e.2.sink = sink ∧ e.2.id = id)) :
    Yields (s.cancelTimer sink id) Inv (· = .timerNotFound) := by
  rw [PollerBase.cancelTimer]
  cases hfind : s.timers.find? fun t => t.sink = sink ∧ t.id = id with
  | none => exact rfl
  | some t =>
    have hmem : t ∈ s.timers := mem_of_find?_eq_some hfind
    have hname : t.sink = sink ∧ t.id = id := by simpa using find?_some hfind
    have hsub : s.timers.erase t <+ s.timers := erase_sublist
    have hhead : ∀ e ∈ s.firing, ∃ rest, s.timers.erase t = e.2 :: rest.erase t ∧ s.timers = e.2 :: rest ∧ t ∈ rest ∧
        e.2.expiration ≤ e.1 ∧ e.1 ≤ s.clock := by
      intro e he
      obtain ⟨rest, hrest, hdue, hnow⟩ := h.head e he
      have hne : e.2 ≠ t := by
        rintro rfl
        exact hother e he hname
      rw [hrest] at hmem
      refine ⟨rest, ?_, hrest, (mem_cons.mp hmem).resolve_left hne.symm, hdue, hnow⟩
      rw [hrest, erase_cons_tail (by simpa using hne)]
    have hpending : s.pending.Perm
        (t :: pending { s with timers := s.timers.erase t, cancelled := s.cancelled ++ [t] }) := by
      unfold pending
      cases hf : s.firing with
      | none => exact perm_cons_erase hmem
      | some e =>
        obtain ⟨rest, herase, hrest, hmem', -, -⟩ := hhead e hf
        change (s.timers.erase e.2).Perm (t :: (s.timers.erase t).erase e.2)
        rw [herase, hrest, erase_cons_head, erase_cons_head]
        exact perm_cons_erase hmem'
    refine ⟨h.sorted.sublist hsub, ?_, h.serials, h.distinct, ?_, h.inOrder, ?_, h.due, h.returned⟩
    · calc s.added
        _ ~ s.fired.map fst ++ s.cancelled ++ s.pending := h.once
        _ ~ s.fired.map fst ++ s.cancelled ++ t :: _ := hpending.append_left _
        _ ~ _ := by
          rw [← append_assoc, append_assoc _ [t], singleton_append]
    · intro e he
      obtain ⟨rest, herase, -, -, hdue, hnow⟩ := hhead e he
      exact ⟨rest.erase t, herase, hdue, hnow⟩
    · exact fun f hf u hu => h.below f hf u (hsub.subset hu)

lemma Inv.returns (h : s.Inv) (hfiring : s.firing = none) {current value : ℕ}
    (hright : LeavesRight ⟨current, value, s.timers⟩) : (s.returns current value).Inv := by
  have hpending : (s.returns current value).pending = s.pending := by
    rw [pending, pending, hfiring]
    rfl
  refine ⟨h.sorted, by rw [hpending]; exact h.once, h.serials, h.distinct, fun e he => (by cases he), h.inOrder, h.below,
    h.due, fun r hr => ?_⟩
  rcases mem_append.mp hr with hold | hnew
  · exact h.returned r hold
  · rw [mem_singleton.mp hnew]
    exact hright

lemma Inv.resume (h : s.Inv) (hfiring : s.firing = none) {current : ℕ} (hnow : current ≤ s.clock) :
    (s.resume current s.timers).Inv := by
  cases htimers : s.timers with
  | nil =>
    refine h.returns hfiring ⟨?_, fun _ => htimers, fun hne => absurd htimers hne⟩
    intro t ht
    rw [htimers] at ht
    cases ht
  | cons t rest =>
    have hsorted := h.sorted
    rw [htimers] at hsorted
    obtain ⟨hfirst, -⟩ := pairwise_cons.mp hsorted
    have hmin : ∀ u ∈ s.timers, t.expiration ≤ u.expiration := by
      intro u hu
      rw [htimers] at hu
      rcases mem_cons.mp hu with rfl | hmem
      · exact Nat.le_refl _
      · exact hfirst u hmem
    have htmem : t ∈ s.timers := htimers ▸ mem_cons_self
    rw [PollerBase.resume]
    split
    next hlater =>
      refine h.returns hfiring ⟨fun u hu => Nat.lt_of_lt_of_le hlater (hmin u hu), fun hzero => ?_, fun _ => ?_⟩
      · dsimp only at hzero
        omega
      · exact ⟨t, htmem, by dsimp only; omega, hmin⟩
    next hdue =>
      have hpending : s.pending = t :: rest := by rw [pending, hfiring, htimers]
      have honce := h.once
      rw [hpending] at honce
      refine ⟨h.sorted, ?_, h.serials, h.distinct, ?_, ?_, ?_, ?_, h.returned⟩
      · rw [pending]
        simp only [htimers, erase_cons_head, map_append, map_singleton]
        calc s.added
          _ ~ s.fired.map fst ++ s.cancelled ++ t :: rest := honce
          _ ~ t :: (s.fired.map fst ++ s.cancelled ++ rest) := perm_middle
          _ ~ s.fired.map fst ++ t :: (s.cancelled ++ rest) := by
            rw [append_assoc]
            exact perm_middle.symm
          _ ~ _ := by rw [append_assoc, append_assoc, singleton_append]
      · intro e he
        obtain rfl := Option.some.inj he
        exact ⟨rest, htimers, Nat.le_of_not_lt hdue, hnow⟩
      · rw [map_append, map_singleton]
        refine pairwise_append.mpr ⟨h.inOrder, pairwise_singleton _ _, ?_⟩
        intro x hx y hy
        obtain ⟨f, hf, rfl⟩ := mem_map.mp hx
        obtain rfl := mem_singleton.mp hy
        exact h.below f hf t htmem
      · intro f hf u hu
        rcases mem_append.mp hf with hold | hnew
        · exact h.below f hold u hu
        · rw [mem_singleton.mp hnew]
          exact hmin u hu
      · intro f hf
        rcases mem_append.mp hf with hold | hnew
        · exact h.due f hold
        · rw [mem_singleton.mp hnew]
          exact ⟨Nat.le_of_not_lt hdue, hnow⟩

lemma Inv.executeTimers (h : s.Inv) (hfiring : s.firing = none) {us : UInt64} (hclock : s.clock ≤ nowMs us) :
    (s.executeTimers us).Inv := by
  rw [PollerBase.executeTimers]
  split
  next hempty =>
    refine h.returns hfiring ⟨?_, fun _ => hempty, fun hne => absurd hempty hne⟩
    intro t ht
    rw [hempty] at ht
    cases ht
  next hsome => exact (h.tick hclock).resume hfiring (le_refl _)

lemma Inv.handlerReturns (h : s.Inv) {e : ℕ × Timer S} (hfiring : s.firing = some e) :
    ∃ s', s.handlerReturns e.1 e.2 = .ok s' ∧ s'.Inv := by
  obtain ⟨rest, hrest, hdue, hnow⟩ := h.head e hfiring
  have hmem : e.2 ∈ s.timers := hrest ▸ mem_cons_self
  have hit : (s.timers.dropWhile (· ≠ e.2)).tail = rest := by
    rw [hrest, dropWhile_cons_of_neg (by simp)]
    rfl
  have herase : s.timers.erase e.2 = rest := by rw [hrest, erase_cons_head]
  have hinv : ({ s with timers := rest, firing := none } : PollerBase S).Inv := by
    refine ⟨?_, ?_, h.serials, h.distinct, fun e he => (by cases he), h.inOrder, ?_, h.due, h.returned⟩
    · have hsorted := h.sorted
      rw [hrest] at hsorted
      exact (pairwise_cons.mp hsorted).2
    · have hpending : s.pending = rest := by
        rw [pending, hfiring]
        exact herase
      have honce := h.once
      rw [hpending] at honce
      exact honce
    · intro f hf u hu
      exact h.below f hf u (hrest ▸ mem_cons_of_mem _ hu)
  refine ⟨_, ?_, hinv.resume rfl hnow⟩
  rw [PollerBase.handlerReturns, if_pos hmem, hit, herase]

/-- Every step of a poller that is used well keeps the invariant, unless the timer to be cancelled is not there. -/
lemma Inv.step (h : s.Inv) {e : PollerEvent S} (hgood : s.WellUsed e) :
    Yields (s.step e) Inv (· = .timerNotFound) := by
  cases e with
  | addTimer us timeout sink id => exact h.addTimer hgood.1 hgood.2
  | cancelTimer sink id => exact h.cancelTimer hgood
  | executeTimers us =>
    rw [PollerBase.step]
    cases hfiring : s.firing with
    | none => exact h.executeTimers hfiring hgood
    | some e => exact h
  | handlerReturns =>
    rw [PollerBase.step]
    cases hfiring : s.firing with
    | none => exact h
    | some e =>
      obtain ⟨s', hs', hinv⟩ := h.handlerReturns hfiring
      simp only [hs']
      exact hinv

/-- In every run in which the poller is used well the timers are triggered as they should be; such a run fails only when
`cancel_timer` does not find the timer. -/
theorem orderly_of_wellUsed (es : List (PollerEvent S)) (h : StepsMeet step WellUsed new es) :
    Yields (runSteps step new es) Orderly (· = .timerNotFound) :=
  (Yields.runSteps (fun _ _ hs he => hs.step he) inv_new h).mono fun _ hs => hs.orderly

/-- Two timers; the handler of the first one adds another one, and it cancels the second one. -/
theorem orderly_of_wellUsed_three :
    Yields (runSteps step (new : PollerBase (Fin 2))
      [.addTimer 0 5 0 1, .addTimer 0 5 1 1, .executeTimers 7000, .addTimer 7000 0 0 1, .cancelTimer 1 1, .handlerReturns,
        .handlerReturns]) Orderly (· = .timerNotFound) :=
  orderly_of_wellUsed _ (by decide +kernel)

/-- A handler sets its timer again and thinks better of it: what is cancelled is the timer that is being triggered. -/
theorem cancel_rescheduled :
    runSteps step (new : PollerBase (Fin 1))
      [.addTimer 0 5 0 1, .executeTimers 5000, .addTimer 5000 5 0 1, .cancelTimer 0 1, .handlerReturns] =
      .error .danglingIterator := by
  rfl

end PollerBase

end Zmq
