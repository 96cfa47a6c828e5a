import Mathlib.Data.List.Count
import Mathlib.Data.List.Induction
import Mathlib.Data.Nat.Cast.WithTop
import ZeroMQ.Foundation.Run

/-!
# The multiplexers `poll_t` and `select_t`

An I/O thread waits for events on file descriptors and calls the handler object that is registered for one. Its timers
and handlers may add and remove descriptors and change what is waited for. An entry that is removed is only marked as
retired, and is dropped at the end of the round; what the system call has reported stays until then.

Both loops look three times at each entry, and go on to the next one as soon as they find it retired, so they share one
machine; a run may end anywhere. Descriptors are added that are not registered, and all else is done to descriptors
that are. The sets of `select` have `FD_SETSIZE` places; `select_t` asserts that it has no more descriptors than that,
and does not look at the descriptors themselves.
-/

namespace Zmq

open Foundation Function Except List Option

/-! ### The loop -/

/-- What timers and handlers do; the handler objects are of type `H`. -/
inductive FdAct (H : Type)
  | addFd (fd : ℕ) (events : H)
  | rmFd (fd : ℕ)
  | setPollin (fd : ℕ)
  | resetPollin (fd : ℕ)
  | setPollout (fd : ℕ)
  | resetPollout (fd : ℕ)

inductive PollFault
  | assertFailed
  | outOfBounds
  deriving DecidableEq

/-- The tests of an entry, in their order. -/
inductive PollTest
  | pollerr
  | pollout
  | pollin
  deriving DecidableEq

/-- What comes out of a test. -/
inductive PollVerdict (H : Type)
  | retired
  | quiet
  | call (fd : ℕ) (events : H)

/-- Where a loop goes on with an entry that is not retired. -/
def PollTest.next (i : ℕ) : PollTest → ℕ × PollTest
  | pollerr => (i, pollout)
  | pollout => (i, pollin)
  | pollin => (i + 1, pollerr)

lemma PollTest.next_le (i : ℕ) (t : PollTest) : (t.next i).1 ≤ i + 1 := by
  cases t <;> simp [next]

/-- A multiplexer, with what the system call reports in `R`. -/
structure Poller (σ R H : Type) where
  act : FdAct H → σ → Except PollFault σ
  /-- The system call, and what it reports. -/
  wait : R → σ → σ
  size : σ → ℕ
  test : σ → ℕ → PollTest → Except PollFault (PollVerdict H)
  /-- The end of a round. -/
  cleanup : σ → σ

inductive PollPc
  /-- The timers are executed. -/
  | timers
  /-- An entry is to be tested. -/
  | entry (next : ℕ × PollTest)
  /-- A handler runs; then the loop goes on. -/
  | handler (next : ℕ × PollTest)
  deriving DecidableEq

structure PollState (σ H : Type) where
  poller : σ
  pc : PollPc
  /-- The handler that is registered for a descriptor. -/
  live : ℕ → Option H

inductive PollLabel (R H : Type)
  | act (a : FdAct H)
  /-- The system call returns; there are events, or none (a timeout, or a signal). -/
  | wait (reported : R) (events : Bool)
  /-- The loop goes on. -/
  | goOn

variable {σ R H : Type}

/-- The handler that is registered for a descriptor afterwards. -/
def FdAct.register (live : ℕ → Option H) : FdAct H → ℕ → Option H
  | addFd fd events => update live fd (some events)
  | rmFd fd => update live fd none
  | _ => live

/-- Only descriptors are added that are not registered, and all else is done to registered ones. -/
def FdAct.Allowed (live : ℕ → Option H) : FdAct H → Prop
  | addFd fd _ => live fd = none
  | rmFd fd | setPollin fd | resetPollin fd | setPollout fd | resetPollout fd => live fd ≠ none

/-- What timers and handlers do fits. -/
def PollLabel.Fits (fits : FdAct H → Prop) : PollLabel R H → Prop
  | act a => fits a
  | _ => True

instance (fits : FdAct H → Prop) [DecidablePred fits] : (label : PollLabel R H) → Decidable (label.Fits fits)
  | .act a => inferInstanceAs (Decidable (fits a))
  | .wait _ _ | .goOn => isTrue trivial

namespace Poller

variable (m : Poller σ R H)

/-- One step of an I/O thread. -/
def step (s : PollState σ H) : PollLabel R H → Except PollFault (PollState σ H)
  | .act a => do
    let poller ← m.act a s.poller
    .ok { s with poller, live := a.register s.live }
  | .wait reported events =>
    .ok { s with poller := m.wait reported s.poller, pc := if events then .entry (0, .pollerr) else .timers }
  | .goOn =>
    match s.pc with
    | .timers => .ok s
    | .handler next => .ok { s with pc := .entry next }
    | .entry (i, t) =>
      if i = m.size s.poller then .ok { s with poller := m.cleanup s.poller, pc := .timers }
      else do
        match ← m.test s.poller i t with
        | .retired => .ok { s with pc := .entry (i + 1, .pollerr) }
        | .quiet => .ok { s with pc := .entry (t.next i) }
        | .call _ _ => .ok { s with pc := .handler (t.next i) }

/-- Timers and handlers do what is allowed, and the system call is made after the timers. -/
def Proper (s : PollState σ H) : PollLabel R H → Prop
  | .act a => (s.pc = .timers ∨ ∃ next, s.pc = .handler next) ∧ a.Allowed s.live
  | .wait _ _ => s.pc = .timers
  | .goOn => s.pc ≠ .timers

instance (pc : PollPc) : Decidable (∃ next, pc = .handler next) :=
  match pc with
  | .handler next => isTrue ⟨next, rfl⟩
  | .timers => isFalse fun ⟨_, h⟩ => by cases h
  | .entry _ => isFalse fun ⟨_, h⟩ => by cases h

instance (live : ℕ → Option H) : (a : FdAct H) → Decidable (a.Allowed live)
  | .addFd fd _ => inferInstanceAs (Decidable (live fd = none))
  | .rmFd fd | .setPollin fd | .resetPollin fd | .setPollout fd | .resetPollout fd =>
    inferInstanceAs (Decidable (live fd ≠ none))

instance (s : PollState σ H) : (label : PollLabel R H) → Decidable (Proper s label)
  | .act _ => inferInstanceAs (Decidable ((_ ∨ _) ∧ _))
  | .wait _ _ => inferInstanceAs (Decidable (s.pc = .timers))
  | .goOn => inferInstanceAs (Decidable (s.pc ≠ .timers))

/-- The loop is about to call a handler. -/
def Calls (s : PollState σ H) (fd : ℕ) (events : H) : Prop :=
  ∃ i t, s.pc = .entry (i, t) ∧ i ≠ m.size s.poller ∧ m.test s.poller i t = .ok (.call fd events)

/-- What is to be kept by what a multiplexer does, of which nothing fails but assertions if timers and handlers do what
fits. -/
structure Keeps (I : σ → (ℕ → Option H) → Prop) (fits : FdAct H → Prop) : Prop where
  act : ∀ {s live} {a : FdAct H}, I s live → a.Allowed live → fits a →
    Yields (m.act a s) (fun s' => I s' (a.register live) ∧ m.size s ≤ m.size s') (· = .assertFailed)
  wait : ∀ {s live} (r : R), I s live → I (m.wait r s) live
  test : ∀ {s live i}, I s live → i < m.size s → ∀ t, Yields (m.test s i t) (fun _ => True) (· = .assertFailed)
  cleanup : ∀ {s live}, I s live → I (m.cleanup s) live

/-- The invariant of the loop: what is kept, and that the loop is at an entry or behind the last one. -/
def Kept (I : σ → (ℕ → Option H) → Prop) (s : PollState σ H) : Prop :=
  I s.poller s.live ∧ ∀ next, s.pc = .entry next ∨ s.pc = .handler next → next.1 ≤ m.size s.poller

variable {m} {I : σ → (ℕ → Option H) → Prop} {fits : FdAct H → Prop}

/-- What is kept by one step of an I/O thread. -/
lemma Keeps.step (h : m.Keeps I fits) {s : PollState σ H} {label : PollLabel R H} (hs : m.Kept I s)
    (hproper : Proper s label) (hfits : label.Fits fits) : Yields (m.step s label) (m.Kept I) (· = .assertFailed) := by
  obtain ⟨hI, hplace⟩ := hs
  cases label with
  | act a =>
    refine (h.act hI hproper.2 hfits).bind fun poller hpoller => ?_
    exact ⟨hpoller.1, fun next hnext => (hplace next hnext).trans hpoller.2⟩
  | wait reported events =>
    refine ⟨h.wait reported hI, fun next hnext => ?_⟩
    cases events <;> rcases hnext with hnext | hnext <;> cases hnext
    exact Nat.zero_le _
  | goOn =>
    rw [Poller.step]
    split
    · exact ⟨hI, hplace⟩
    · next next' hpc =>
      refine ⟨hI, fun next hnext => hplace next (.inr ?_)⟩
      rcases hnext with hnext | hnext <;> cases hnext
      exact hpc
    · next i t hpc =>
      split
      · refine ⟨h.cleanup hI, fun next hnext => ?_⟩
        rcases hnext with hnext | hnext <;> cases hnext
      · next hne =>
        have hlt : i < m.size s.poller := (hplace _ (.inl hpc)).lt_of_ne hne
        refine (h.test hI hlt t).bind fun verdict _ => ?_
        cases verdict <;> refine ⟨hI, fun next hnext => ?_⟩ <;> rcases hnext with hnext | hnext <;> cases hnext
        · exact hlt
        · exact (t.next_le i).trans hlt
        · exact (t.next_le i).trans hlt

/-- What is kept by a run. -/
lemma Keeps.run (h : m.Keeps I fits) {poller : σ} {labels : List (PollLabel R H)} (hI : I poller fun _ => none)
    (hgood : StepsMeet m.step (fun s label => Proper s label ∧ label.Fits fits) ⟨poller, .timers, fun _ => none⟩ labels) :
    Yields (runSteps m.step ⟨poller, .timers, fun _ => none⟩ labels) (m.Kept I) (· = .assertFailed) := by
  refine Yields.runSteps (fun s label hs hgood => h.step hs hgood.1 hgood.2) ⟨hI, fun next hnext => ?_⟩ hgood
  rcases hnext with hnext | hnext <;> cases hnext

end Poller

/-! ### `poll_t` -/

/-- What `poll` reports of a descriptor; `pollerr` stands for `POLLERR` and `POLLHUP`. -/
structure Revents where
  pollnval : Bool
  pollerr : Bool
  pollout : Bool
  pollin : Bool
  deriving DecidableEq

/-- `pollfd`; the descriptor of a retired entry is `⊥`. -/
structure PollFd where
  fd : WithBot ℕ
  pollin : Bool
  pollout : Bool
  revents : Revents
  deriving DecidableEq

/-- `fd_entry_t`; the index of an entry that is not in use is `none`. -/
structure FdEntry (H : Type) where
  index : Option ℕ
  events : Option H

/-- `poll_t`; what the table does not hold yet is not in use. -/
structure PollT (H : Type) where
  fdTable : ℕ → FdEntry H
  pollset : List PollFd
  retired : Bool

namespace PollT

/-- Nothing has been reported. -/
def noRevents : Revents := ⟨false, false, false, false⟩

/-- `poll_t::poll_t`. -/
def new (H : Type) : PollT H := ⟨fun _ => ⟨none, none⟩, [], false⟩

/-- `poll_t::add_fd`. -/
def addFd (fd : ℕ) (events : H) (s : PollT H) : Except PollFault (PollT H) :=
  if (s.fdTable fd).index = none then
    let pollset := s.pollset ++ [⟨fd, false, false, noRevents⟩]
    .ok { s with pollset, fdTable := update s.fdTable fd ⟨some (pollset.length - 1), some events⟩ }
  else .error .assertFailed

/-- `poll_t::rm_fd`. -/
def rmFd (fd : ℕ) (s : PollT H) : Except PollFault (PollT H) :=
  match (s.fdTable fd).index with
  | some i => .ok {
      fdTable := update s.fdTable fd { s.fdTable fd with index := none }
      pollset := s.pollset.modify i fun e => { e with fd := ⊥ }
      retired := true }
  | none => .error .assertFailed

/-- What the pollset says about a descriptor is changed. -/
def change (f : PollFd → PollFd) (fd : ℕ) (s : PollT H) : Except PollFault (PollT H) :=
  match (s.fdTable fd).index with
  | some i => .ok { s with pollset := s.pollset.modify i f }
  | none => .error .outOfBounds

/-- `poll_t::set_pollin`. -/
def setPollin : ℕ → PollT H → Except PollFault (PollT H) := change fun e => { e with pollin := true }

/-- `poll_t::reset_pollin`. -/
def resetPollin : ℕ → PollT H → Except PollFault (PollT H) := change fun e => { e with pollin := false }

/-- `poll_t::set_pollout`. -/
def setPollout : ℕ → PollT H → Except PollFault (PollT H) := change fun e => { e with pollout := true }

/-- `poll_t::reset_pollout`. -/
def resetPollout : ℕ → PollT H → Except PollFault (PollT H) := change fun e => { e with pollout := false }

def act : FdAct H → PollT H → Except PollFault (PollT H)
  | .addFd fd events => addFd fd events
  | .rmFd fd => rmFd fd
  | .setPollin fd => setPollin fd
  | .resetPollin fd => resetPollin fd
  | .setPollout fd => setPollout fd
  | .resetPollout fd => resetPollout fd

/-- `poll`, which ignores retired entries. -/
def wait (reported : ℕ → Revents) (s : PollT H) : PollT H where
  __ := s
  pollset := s.pollset.mapIdx fun i e => { e with revents := if e.fd = ⊥ then noRevents else reported i }

/-- Whether a test finds what it looks for. -/
def fires (e : PollFd) : PollTest → Bool
  | .pollerr => e.revents.pollerr
  | .pollout => e.revents.pollout
  | .pollin => e.revents.pollin

/-- The body of the loop over the pollset. -/
def test (s : PollT H) (i : ℕ) (t : PollTest) : Except PollFault (PollVerdict H) :=
  match s.pollset[i]? with
  | none => .error .outOfBounds
  | some e =>
    if t = .pollerr ∧ e.revents.pollnval then .error .assertFailed
    else match e.fd with
      | none => .ok .retired
      | some fd =>
        if fires e t then
          match (s.fdTable fd).events with
          | some events => .ok (.call fd events)
          | none => .error .outOfBounds
        else .ok .quiet

/-- The loop that drops retired entries; the entries before `i` have been looked at. -/
def compact : List PollFd → ℕ → (ℕ → FdEntry H) → List PollFd × (ℕ → FdEntry H)
  | [], _, fdTable => ([], fdTable)
  | e :: rest, i, fdTable =>
    match e.fd with
    | none => compact rest i fdTable
    | some fd =>
      let r := compact rest (i + 1) (update fdTable fd { fdTable fd with index := some i })
      (e :: r.1, r.2)

/-- The end of a round. -/
def cleanup (s : PollT H) : PollT H :=
  if s.retired then
    let r := compact s.pollset 0 s.fdTable
    ⟨r.2, r.1, false⟩
  else s

/-- `poll_t::loop`. -/
def loop (H : Type) : Poller (PollT H) (ℕ → Revents) H := ⟨act, wait, fun s => s.pollset.length, test, cleanup⟩

/-- The descriptors of the entries. -/
def fds (s : PollT H) : List (WithBot ℕ) := s.pollset.map PollFd.fd

/-- An entry has a descriptor if and only if the table leads to it, and the table knows the handler. -/
structure Inv (s : PollT H) (live : ℕ → Option H) : Prop where
  index : ∀ fd i, (s.fdTable fd).index = some i ↔ s.fds[i]? = some ↑fd
  events : ∀ fd, live fd = if (s.fdTable fd).index = none then none else (s.fdTable fd).events
  known : ∀ fd, live fd = none → (s.fdTable fd).index = none

variable {s s' : PollT H} {live : ℕ → Option H}

lemma inv_new : Inv (new H) fun _ => none where
  index _ _ := by simp [new, fds]
  events _ := rfl
  known _ _ := rfl

lemma Inv.of_fds (h : Inv s live) (htable : s'.fdTable = s.fdTable) (hfds : s'.fds = s.fds) : Inv s' live := by
  refine ⟨?_, ?_, ?_⟩ <;> rw [htable]
  · rw [hfds]
    exact h.index
  · exact h.events
  · exact h.known

lemma Inv.addFd (h : Inv s live) {fd : ℕ} {events : H} (hrun : s.addFd fd events = .ok s') :
    Inv s' (update live fd (some events)) := by
  rw [PollT.addFd] at hrun
  split at hrun
  · next hfree =>
    rw [← ok.inj hrun]
    refine ⟨fun fd' i => ?_, fun fd' => ?_, fun fd' hlive => ?_⟩ <;> by_cases hfd : fd' = fd
    · have hi := h.index fd i
      rw [hfree] at hi
      simp [hfd, fds, getElem?_append] at hi ⊢
      grind
    · have hi := h.index fd' i
      have hne : (fd : WithBot ℕ) ≠ ↑fd' := fun heq => hfd (WithBot.coe_injective heq).symm
      simp [hfd, fds] at hi ⊢
      grind
    · simp [hfd]
    · simpa [hfd] using h.events fd'
    · simp [hfd] at hlive
    · simpa [hfd] using h.known fd' (by simpa [hfd] using hlive)
  · cases hrun

lemma Inv.rmFd (h : Inv s live) {fd : ℕ} (hrun : s.rmFd fd = .ok s') : Inv s' (update live fd none) := by
  rw [PollT.rmFd] at hrun
  split at hrun
  · next i hindex =>
    rw [← ok.inj hrun]
    have hentry := (h.index fd i).mp hindex
    have hfds : (s.pollset.modify i fun e => { e with fd := ⊥ }).map PollFd.fd = s.fds.set i ⊥ := by
      refine ext_getElem? fun j => ?_
      simp [fds, getElem?_modify, getElem?_set]
      grind
    have hbot (fd : ℕ) : (⊥ : WithBot ℕ) ≠ fd := WithBot.bot_ne_natCast fd
    refine ⟨fun fd' j => ?_, fun fd' => ?_, fun fd' hlive => ?_⟩ <;> by_cases hfd : fd' = fd
    · have hj := h.index fd j
      rw [fds, hfds, hfd]
      dsimp only
      rw [update_self]
      grind
    · have hj := h.index fd' j
      have hne : (fd : WithBot ℕ) ≠ ↑fd' := fun heq => hfd (WithBot.coe_injective heq).symm
      rw [fds, hfds]
      dsimp only
      rw [update_of_ne hfd, hj]
      grind
    · simp [hfd]
    · simpa [hfd] using h.events fd'
    · simp [hfd]
    · simpa [hfd] using h.known fd' (by simpa [hfd] using hlive)
  · cases hrun

lemma Inv.change (h : Inv s live) {f : PollFd → PollFd} (hf : ∀ e, (f e).fd = e.fd) {fd : ℕ}
    (hrun : change f fd s = .ok s') : Inv s' live := by
  rw [PollT.change] at hrun
  split at hrun
  · next i _ =>
    rw [← ok.inj hrun]
    refine h.of_fds rfl (ext_getElem? fun j => ?_)
    simp [fds, getElem?_modify]
    grind
  · cases hrun

lemma compact_spec (l : List PollFd) (i : ℕ) (fdTable : ℕ → FdEntry H)
    (hapart : l.Pairwise fun a b => a.fd = b.fd → a.fd = ⊥) :
    (∀ fd j, ((compact l i fdTable).1.map PollFd.fd)[j]? = some ↑fd →
        ((compact l i fdTable).2 fd).index = some (i + j)) ∧
      (∀ fd : ℕ, (fd : WithBot ℕ) ∈ l.map PollFd.fd → (fd : WithBot ℕ) ∈ (compact l i fdTable).1.map PollFd.fd) ∧
      (∀ fd : ℕ, (fd : WithBot ℕ) ∉ l.map PollFd.fd → (compact l i fdTable).2 fd = fdTable fd) ∧
      ∀ fd, ((compact l i fdTable).2 fd).events = (fdTable fd).events := by
  induction l generalizing i fdTable with
  | nil => simp [compact]
  | cons e rest ih =>
    obtain ⟨he, hrest⟩ := pairwise_cons.mp hapart
    rw [compact]
    split
    · next hfd =>
      obtain ⟨hindex, hkept, hsame, hevents⟩ := ih i fdTable hrest
      have hbot (fd : ℕ) : (fd : WithBot ℕ) ≠ e.fd := by
        rw [hfd]
        exact WithBot.coe_ne_bot
      refine ⟨hindex, fun fd hmem => hkept fd ?_, fun fd hmem => hsame fd ?_, hevents⟩ <;> simpa [hbot] using hmem
    · next fd hfd =>
      obtain ⟨hindex, hkept, hsame, hevents⟩ := ih (i + 1) (update fdTable fd { fdTable fd with index := some i }) hrest
      have hfirst (fd' : ℕ) : (fd' : WithBot ℕ) = e.fd ↔ fd' = fd := by
        rw [hfd]
        exact WithBot.coe_inj
      refine ⟨fun fd' j hj => ?_, fun fd' hmem => ?_, fun fd' hmem => ?_, fun fd' => ?_⟩
      · cases j with
        | zero =>
          have heq : fd' = fd := (hfirst fd').mp (some.inj hj).symm
          have hnew : (fd' : WithBot ℕ) ∉ rest.map PollFd.fd := by
            intro hmem
            obtain ⟨b, hb, hbfd⟩ := mem_map.mp hmem
            have := he b hb (by rw [hbfd, (hfirst fd').mpr heq])
            rw [hfd] at this
            cases this
          rw [hsame fd' hnew, heq, update_self]
          rfl
        | succ j =>
          rw [hindex fd' j (by simpa using hj), Nat.add_right_comm]
          rfl
      · simp [hfirst] at hmem ⊢
        exact hmem.imp_right fun h => by simpa using hkept fd' (by simpa using h)
      · simp [hfirst] at hmem
        rw [hsame fd' (by simpa using hmem.2), update_of_ne hmem.1]
      · rw [hevents]
        by_cases heq : fd' = fd
        · simp [heq]
        · rw [update_of_ne heq]

lemma Inv.cleanup (h : Inv s live) : Inv s.cleanup live := by
  rw [PollT.cleanup]
  split
  · have hapart : s.pollset.Pairwise fun a b => a.fd = b.fd → a.fd = ⊥ := by
      rw [pairwise_iff_getElem]
      intro i j hi hj hij heq
      by_contra hne
      obtain ⟨fd, hfd⟩ := WithBot.ne_bot_iff_exists.mp hne
      have hi' := (h.index fd i).mpr (by simp [fds, hi, ← hfd]; rfl)
      have hj' := (h.index fd j).mpr (by simp [fds, hj, ← heq, ← hfd]; rfl)
      rw [hi'] at hj'
      exact hij.ne (some.inj hj')
    obtain ⟨hindex, hkept, hsame, hevents⟩ := compact_spec s.pollset 0 s.fdTable hapart
    have hnone (fd : ℕ) : ((compact s.pollset 0 s.fdTable).2 fd).index = none ↔ (s.fdTable fd).index = none := by
      by_cases hmem : (fd : WithBot ℕ) ∈ s.fds
      · obtain ⟨i, hi⟩ := mem_iff_getElem?.mp hmem
        obtain ⟨j, hj⟩ := mem_iff_getElem?.mp (hkept fd hmem)
        simp [hindex fd j hj, (h.index fd i).mpr hi]
      · rw [hsame fd hmem]
    refine ⟨fun fd i => ⟨fun hi => ?_, fun hi => ?_⟩, fun fd => ?_, fun fd hlive => (hnone fd).mpr (h.known fd hlive)⟩
    · by_cases hmem : (fd : WithBot ℕ) ∈ s.fds
      · obtain ⟨j, hj⟩ := mem_iff_getElem?.mp (hkept fd hmem)
        have hij := some.inj ((hindex fd j hj).symm.trans hi)
        rw [← hij, Nat.zero_add]
        exact hj
      · exact absurd (mem_of_getElem? ((h.index fd i).mp (by rwa [← hsame fd hmem]))) hmem
    · simpa using hindex fd i hi
    · rw [h.events fd]
      simp only [hnone, hevents]
  · exact h

lemma Inv.act (h : Inv s live) {a : FdAct H} (hrun : act a s = .ok s') : Inv s' (a.register live) := by
  cases a with
  | addFd fd events => exact h.addFd hrun
  | rmFd fd => exact h.rmFd hrun
  | setPollin | resetPollin | setPollout | resetPollout =>
    refine h.change ?_ hrun
    exact fun _ => rfl

/-- Entries are only dropped at the end of a round. -/
lemma length_le_of_act {a : FdAct H} (hrun : act a s = .ok s') : s.pollset.length ≤ s'.pollset.length := by
  cases a <;> simp only [PollT.act, PollT.addFd, PollT.rmFd, setPollin, resetPollin, setPollout, resetPollout,
    PollT.change] at hrun <;> split at hrun <;> cases hrun <;> simp

/-- The table has an entry for every descriptor that something may be done to. -/
lemma Inv.act_error (h : Inv s live) {a : FdAct H} (hallowed : a.Allowed live) {e : PollFault}
    (hrun : PollT.act a s = .error e) : e = .assertFailed := by
  have hindex (fd : ℕ) (hlive : live fd ≠ none) : (s.fdTable fd).index ≠ none := by
    intro hnone
    exact hlive (by rw [h.events, if_pos hnone])
  cases a with
  | addFd | rmFd =>
    simp only [PollT.act, PollT.addFd, PollT.rmFd] at hrun
    split at hrun <;> cases hrun
    rfl
  | setPollin fd | resetPollin fd | setPollout fd | resetPollout fd =>
    simp only [PollT.act, setPollin, resetPollin, setPollout, resetPollout, PollT.change] at hrun
    split at hrun
    · cases hrun
    · next hnone => exact absurd hnone (hindex fd hallowed)

/-- The handler of an entry is known. -/
lemma Inv.test_yields (h : Inv s live) {i : ℕ} (hi : i < s.pollset.length) (t : PollTest) :
    Yields (PollT.test s i t) (fun _ => True) (· = .assertFailed) := by
  rw [PollT.test, getElem?_eq_getElem hi]
  dsimp only
  split
  · rfl
  split
  · trivial
  next fd hfd =>
    split
    · split
      · trivial
      next hevents =>
        have hindex := (h.index fd i).mpr (by simp [fds, hi, hfd]; rfl)
        refine absurd (h.known fd ?_) (by simp [hindex])
        rw [h.events, hevents, ite_self]
    · trivial

lemma keeps (H : Type) : (loop H).Keeps Inv fun _ => True where
  act h hallowed _ := yields_of (fun _ hrun => ⟨h.act hrun, length_le_of_act hrun⟩) fun _ => h.act_error hallowed
  wait r h := h.of_fds rfl (ext_getElem? fun i => by simp [loop, wait, fds, comp_def])
  test h hi t := h.test_yields hi t
  cleanup h := h.cleanup

/-- What is called is registered. -/
lemma Inv.call (h : Inv s live) {i fd : ℕ} {t : PollTest} {events : H} (hcall : s.test i t = .ok (.call fd events)) :
    live fd = some events := by
  rw [test] at hcall
  split at hcall
  · cases hcall
  next e he =>
    split at hcall
    · cases hcall
    split at hcall
    · cases hcall
    next fd' hfd =>
      have hindex := (h.index fd' i).mpr (by simp [fds, he, hfd]; rfl)
      split at hcall
      · split at hcall
        · next events' hevents =>
          cases hcall
          rw [h.events, hindex, hevents]
          rfl
        · cases hcall
      · cases hcall

end PollT

/-! ### `select_t` -/

/-- `fd_entry_t` of `select_t`. -/
structure SelectEntry (H : Type) where
  fd : WithBot ℕ
  events : H

/-- `select_t`; the test tells the sets for errors, for output and for input apart. What is outside the sets is not
modelled. -/
structure SelectT (H : Type) where
  fds : List (SelectEntry H)
  /-- `source_set_err`, `source_set_out` and `source_set_in`. -/
  source : PollTest → ℕ → Bool
  /-- `exceptfds`, `writefds` and `readfds`. -/
  result : PollTest → ℕ → Bool
  maxfd : WithBot ℕ
  retired : Bool

namespace SelectT

/-- `select_t::select_t`. -/
def new (H : Type) : SelectT H := ⟨[], fun _ _ => false, fun _ _ => false, ⊥, false⟩

/-- `FD_SET` and `FD_CLR` on a source set, with `FD_SETSIZE` as a parameter. -/
def change (fdSetsize : ℕ) (t : PollTest) (b : Bool) (fd : ℕ) (s : SelectT H) : Except PollFault (SelectT H) :=
  if fd < fdSetsize then .ok { s with source := update s.source t (update (s.source t) fd b) }
  else .error .outOfBounds

/-- `select_t::add_fd`. -/
def addFd (fdSetsize fd : ℕ) (events : H) (s : SelectT H) : Except PollFault (SelectT H) :=
  let fds := s.fds ++ [⟨fd, events⟩]
  if fds.length ≤ fdSetsize then
    change fdSetsize .pollerr true fd { s with fds, maxfd := if s.maxfd < fd then fd else s.maxfd }
  else .error .assertFailed

/-- The first entry with a descriptor is marked as retired. -/
def retire (fd : ℕ) : List (SelectEntry H) → Option (List (SelectEntry H))
  | [] => none
  | e :: rest => if e.fd = fd then some ({ e with fd := ⊥ } :: rest) else (retire fd rest).map (e :: ·)

/-- The largest descriptor of the entries. -/
def largest (fds : List (SelectEntry H)) : WithBot ℕ :=
  fds.foldl (fun maxfd e => if maxfd < e.fd then e.fd else maxfd) ⊥

/-- `select_t::rm_fd`. -/
def rmFd (fdSetsize fd : ℕ) (s : SelectT H) : Except PollFault (SelectT H) :=
  match retire fd s.fds with
  | some fds =>
    if fd < fdSetsize then .ok {
      fds
      retired := true
      source := fun t => update (s.source t) fd false
      result := fun t => update (s.result t) fd false
      maxfd := if ↑fd = s.maxfd then largest fds else s.maxfd }
    else .error .outOfBounds
  | none => .error .assertFailed

/-- `select_t::set_pollin`. -/
def setPollin (fdSetsize : ℕ) : ℕ → SelectT H → Except PollFault (SelectT H) := change fdSetsize .pollin true

/-- `select_t::reset_pollin`. -/
def resetPollin (fdSetsize : ℕ) : ℕ → SelectT H → Except PollFault (SelectT H) := change fdSetsize .pollin false

/-- `select_t::set_pollout`. -/
def setPollout (fdSetsize : ℕ) : ℕ → SelectT H → Except PollFault (SelectT H) := change fdSetsize .pollout true

/-- `select_t::reset_pollout`. -/
def resetPollout (fdSetsize : ℕ) : ℕ → SelectT H → Except PollFault (SelectT H) := change fdSetsize .pollout false

def act (fdSetsize : ℕ) : FdAct H → SelectT H → Except PollFault (SelectT H)
  | .addFd fd events => addFd fdSetsize fd events
  | .rmFd fd => rmFd fdSetsize fd
  | .setPollin fd => setPollin fdSetsize fd
  | .resetPollin fd => resetPollin fdSetsize fd
  | .setPollout fd => setPollout fdSetsize fd
  | .resetPollout fd => resetPollout fdSetsize fd

/-- `select`, which reports on descriptors it is asked about. -/
def wait (reported : PollTest → ℕ → Bool) (s : SelectT H) : SelectT H :=
  { s with result := fun t fd => s.source t fd && reported t fd }

/-- The body of the loop over the entries. -/
def test (fdSetsize : ℕ) (s : SelectT H) (i : ℕ) (t : PollTest) : Except PollFault (PollVerdict H) :=
  match s.fds[i]? with
  | none => .error .outOfBounds
  | some e =>
    match e.fd with
    | none => .ok .retired
    | some fd =>
      if fd < fdSetsize then .ok (if s.result t fd then .call fd e.events else .quiet)
      else .error .outOfBounds

/-- The end of a round. -/
def cleanup (s : SelectT H) : SelectT H :=
  if s.retired then { s with fds := s.fds.filter fun e => e.fd ≠ ⊥, retired := false } else s

/-- `select_t::loop`. -/
def loop (H : Type) (fdSetsize : ℕ) : Poller (SelectT H) (PollTest → ℕ → Bool) H :=
  ⟨act fdSetsize, wait, fun s => s.fds.length, test fdSetsize, cleanup⟩

/-- Every registered descriptor has one entry, with its handler, and a place in the sets, and the largest one is
known. -/
structure Inv (fdSetsize : ℕ) (s : SelectT H) (live : ℕ → Option H) : Prop where
  lt_fdSetsize : ∀ fd, live fd ≠ none → fd < fdSetsize
  count : ∀ fd : ℕ, (s.fds.map SelectEntry.fd).count ↑fd = if live fd = none then 0 else 1
  events : ∀ e ∈ s.fds, ∀ fd : ℕ, e.fd = fd → live fd = some e.events
  le_maxfd : ∀ fd : ℕ, live fd ≠ none → fd ≤ s.maxfd
  maxfd : s.maxfd = ⊥ ∨ ∃ fd : ℕ, s.maxfd = fd ∧ live fd ≠ none

variable {s s' : SelectT H} {live : ℕ → Option H} {fdSetsize : ℕ}

lemma inv_new (fdSetsize : ℕ) : Inv fdSetsize (new H) fun _ => none where
  lt_fdSetsize _ h := absurd rfl h
  count _ := rfl
  events _ h := by cases h
  le_maxfd _ h := absurd rfl h
  maxfd := .inl rfl

lemma largest_spec (fds : List (SelectEntry H)) :
    (∀ e ∈ fds, e.fd ≤ largest fds) ∧ (largest fds = ⊥ ∨ ∃ e ∈ fds, largest fds = e.fd) := by
  induction fds using reverseRecOn with
  | nil => exact ⟨fun _ h => (by cases h), .inl rfl⟩
  | append_singleton fds e ih =>
    rw [largest, foldl_append, ← largest]
    simp
    grind

lemma exists_of_retire {fd : ℕ} {fds fds' : List (SelectEntry H)} (h : retire fd fds = some fds') :
    ∃ (l₁ l₂ : List (SelectEntry H)) (e : SelectEntry H), fds = l₁ ++ e :: l₂ ∧ e.fd = fd ∧
      fds' = l₁ ++ { e with fd := ⊥ } :: l₂ := by
  induction fds generalizing fds' with
  | nil => cases h
  | cons e rest ih =>
    rw [retire] at h
    split at h
    · next hfd => exact ⟨[], rest, e, rfl, hfd, (some.inj h).symm⟩
    · obtain ⟨rest', hrest, rfl⟩ := map_eq_some_iff.mp h
      obtain ⟨l₁, l₂, e', rfl, hfd, rfl⟩ := ih hrest
      exact ⟨e :: l₁, l₂, e', rfl, hfd, rfl⟩

lemma Inv.addFd (h : Inv fdSetsize s live) {fd : ℕ} {events : H} (hfree : live fd = none)
    (hrun : s.addFd fdSetsize fd events = .ok s') : Inv fdSetsize s' (update live fd (some events)) := by
  rw [SelectT.addFd] at hrun
  split at hrun
  · rw [change] at hrun
    split at hrun
    swap
    · cases hrun
    next hlt =>
    rw [← ok.inj hrun]
    have hcoe (fd' : ℕ) : (fd : WithBot ℕ) = fd' ↔ fd' = fd := WithBot.coe_inj.trans eq_comm
    refine ⟨fun fd' hlive => ?_, fun fd' => ?_, fun e he fd' hfd => ?_, fun fd' hlive => ?_, .inr ?_⟩
    · by_cases hfd : fd' = fd
      · rwa [hfd]
      · exact h.lt_fdSetsize fd' (by rwa [update_of_ne hfd] at hlive)
    · have hcount := h.count fd'
      by_cases hfd : fd' = fd
      · subst hfd
        simpa [hfree] using hcount
      · simpa [hfd, hcoe, count_singleton] using hcount
    · rcases mem_append.mp he with he | he
      · have hlive := h.events e he fd' hfd
        rwa [update_of_ne]
        rintro rfl
        rw [hfree] at hlive
        cases hlive
      · obtain rfl := mem_singleton.mp he
        rw [(hcoe fd').mp hfd, update_self]
    · have hle := h.le_maxfd fd'
      by_cases hfd : fd' = fd
      · simp [hfd]
        split <;> grind
      · rw [update_of_ne hfd] at hlive
        dsimp only
        grind
    · have hmax := h.maxfd
      dsimp only
      split
      · exact ⟨fd, rfl, by simp⟩
      · next hle =>
        obtain hbot | ⟨fd', hfd', hlive⟩ := hmax
        · exact absurd (hbot ▸ WithBot.bot_lt_coe fd) hle
        · refine ⟨fd', hfd', ?_⟩
          rw [update_of_ne]
          · exact hlive
          rintro rfl
          exact hlive hfree
  · cases hrun

lemma Inv.rmFd (h : Inv fdSetsize s live) {fd : ℕ} (hrun : s.rmFd fdSetsize fd = .ok s') :
    Inv fdSetsize s' (update live fd none) := by
  rw [SelectT.rmFd] at hrun
  split at hrun
  · next fds hretire =>
    obtain ⟨l₁, l₂, e, hfds, he, rfl⟩ := exists_of_retire hretire
    split at hrun
    swap
    · cases hrun
    rw [← ok.inj hrun]
    have hold (fd' : ℕ) (hlive : update live fd none fd' ≠ none) : live fd' ≠ none := by
      by_cases hfd : fd' = fd
      · rw [hfd, update_self] at hlive
        exact absurd rfl hlive
      · rwa [update_of_ne hfd] at hlive
    have hcoe (fd' : ℕ) : (fd : WithBot ℕ) = fd' ↔ fd' = fd := WithBot.coe_inj.trans eq_comm
    have hcount (fd' : ℕ) : ((l₁ ++ { e with fd := ⊥ } :: l₂).map SelectEntry.fd).count ↑fd' =
        if update live fd none fd' = none then 0 else 1 := by
      have hcount := h.count fd'
      rw [hfds] at hcount
      by_cases hfd : fd' = fd
      · subst hfd
        simp [he] at hcount ⊢
        split at hcount <;> omega
      · simpa [count_cons, he, hcoe, hfd] using hcount
    have hevents (e') (he' : e' ∈ l₁ ++ { e with fd := ⊥ } :: l₂) (fd' : ℕ) (hfd : e'.fd = fd') :
        update live fd none fd' = some e'.events := by
      have hmem : e' ∈ s.fds := by
        have hbot : (⊥ : WithBot ℕ) ≠ fd' := WithBot.bot_ne_natCast fd'
        rw [hfds]
        simp at he' ⊢
        grind
      rw [update_of_ne]
      · exact h.events e' hmem fd' hfd
      rintro rfl
      have hzero := hcount fd'
      rw [update_self, if_pos rfl, count_eq_zero, ← hfd] at hzero
      exact hzero (mem_map_of_mem he')
    obtain ⟨hle, hlargest⟩ := largest_spec (l₁ ++ { e with fd := ⊥ } :: l₂)
    refine ⟨fun fd' hlive => h.lt_fdSetsize fd' (hold fd' hlive), hcount, hevents, fun fd' hlive => ?_, ?_⟩
    · have hmem : (fd' : WithBot ℕ) ∈ (l₁ ++ { e with fd := ⊥ } :: l₂).map SelectEntry.fd := by
        rw [← count_pos_iff, hcount, if_neg hlive]
        exact Nat.one_pos
      obtain ⟨e', he', hfd⟩ := mem_map.mp hmem
      dsimp only
      split
      · exact hfd ▸ hle e' he'
      · exact h.le_maxfd fd' (hold fd' hlive)
    · dsimp only
      split
      · obtain hbot | ⟨e', he', hlargest⟩ := hlargest
        · exact .inl hbot
        · cases hfd : e'.fd using WithBot.recBotCoe with
          | bot => exact .inl (hlargest.trans hfd)
          | coe fd' =>
            refine .inr ⟨fd', hlargest.trans hfd, ?_⟩
            rw [hevents e' he' fd' hfd]
            exact some_ne_none _
      · next hne =>
        refine h.maxfd.imp_right fun ⟨fd', hfd', hlive⟩ => ⟨fd', hfd', ?_⟩
        rwa [update_of_ne]
        rintro rfl
        exact hne hfd'.symm
  · cases hrun

lemma Inv.cleanup (h : Inv fdSetsize s live) : Inv fdSetsize s.cleanup live := by
  rw [SelectT.cleanup]
  split
  · refine { h with count := fun fd => ?_, events := fun e he => h.events e (mem_of_mem_filter he) }
    rw [← h.count fd]
    rw [count_eq_countP, count_eq_countP, countP_map, countP_map, countP_filter]
    refine countP_congr fun e _ => ?_
    by_cases hfd : e.fd = fd
    · simp [hfd]
    · simp [hfd]
  · exact h

lemma Inv.act (h : Inv fdSetsize s live) {a : FdAct H} (hallowed : a.Allowed live)
    (hrun : act fdSetsize a s = .ok s') : Inv fdSetsize s' (a.register live) := by
  cases a with
  | addFd fd events => exact h.addFd hallowed hrun
  | rmFd fd => exact h.rmFd hrun
  | setPollin | resetPollin | setPollout | resetPollout =>
    simp only [SelectT.act, setPollin, resetPollin, setPollout, resetPollout, change] at hrun
    split at hrun <;> cases hrun
    exact { h with }

/-- Entries are only dropped at the end of a round. -/
lemma length_le_of_act {a : FdAct H} (hrun : act fdSetsize a s = .ok s') : s.fds.length ≤ s'.fds.length := by
  cases a with
  | addFd fd events =>
    simp only [SelectT.act, SelectT.addFd, change] at hrun
    split at hrun <;> try split at hrun
    all_goals cases hrun
    simp
  | rmFd fd =>
    simp only [SelectT.act, SelectT.rmFd] at hrun
    split at hrun <;> try split at hrun
    all_goals cases hrun
    next hretire _ =>
      obtain ⟨l₁, l₂, e, hfds, -, rfl⟩ := exists_of_retire hretire
      simp [hfds]
  | setPollin | resetPollin | setPollout | resetPollout =>
    simp only [SelectT.act, setPollin, resetPollin, setPollout, resetPollout, change] at hrun
    split at hrun <;> cases hrun
    exact le_rfl

/-- A descriptor that is added has a place in the sets. -/
def FdFits (fdSetsize : ℕ) : FdAct H → Prop
  | .addFd fd _ => fd < fdSetsize
  | _ => True

instance (fdSetsize : ℕ) : DecidablePred (FdFits (H := H) fdSetsize)
  | .addFd fd _ => inferInstanceAs (Decidable (fd < fdSetsize))
  | .rmFd _ | .setPollin _ | .resetPollin _ | .setPollout _ | .resetPollout _ => isTrue trivial

lemma Inv.act_error (h : Inv fdSetsize s live) {a : FdAct H} (hallowed : a.Allowed live) (hfits : FdFits fdSetsize a)
    {e : PollFault} (hrun : SelectT.act fdSetsize a s = .error e) : e = .assertFailed := by
  cases a with
  | addFd fd events =>
    simp only [SelectT.act, SelectT.addFd, change, if_pos (show fd < fdSetsize from hfits)] at hrun
    split at hrun <;> cases hrun
    rfl
  | rmFd fd =>
    simp only [SelectT.act, SelectT.rmFd, if_pos (h.lt_fdSetsize fd hallowed)] at hrun
    split at hrun <;> cases hrun
    rfl
  | setPollin fd | resetPollin fd | setPollout fd | resetPollout fd =>
    simp only [SelectT.act, setPollin, resetPollin, setPollout, resetPollout, change,
      if_pos (h.lt_fdSetsize fd hallowed)] at hrun
    cases hrun

lemma Inv.test_yields (h : Inv fdSetsize s live) {i : ℕ} (hi : i < s.fds.length) (t : PollTest) :
    Yields (SelectT.test fdSetsize s i t) (fun _ => True) (· = .assertFailed) := by
  rw [SelectT.test, getElem?_eq_getElem hi]
  dsimp only
  split
  · trivial
  next fd hfd =>
    have hlive : live fd ≠ none := by
      rw [h.events _ (getElem_mem hi) fd hfd]
      exact some_ne_none _
    rw [if_pos (h.lt_fdSetsize fd hlive)]
    trivial

lemma keeps (H : Type) (fdSetsize : ℕ) : (loop H fdSetsize).Keeps (Inv fdSetsize) (FdFits fdSetsize) where
  act h hallowed hfits :=
    yields_of (fun _ hrun => ⟨h.act hallowed hrun, length_le_of_act hrun⟩) fun _ => h.act_error hallowed hfits
  wait _ h := { h with }
  test h hi t := h.test_yields hi t
  cleanup h := h.cleanup

/-- What is called is registered. -/
lemma Inv.call (h : Inv fdSetsize s live) {i fd : ℕ} {t : PollTest} {events : H}
    (hcall : SelectT.test fdSetsize s i t = .ok (.call fd events)) : live fd = some events := by
  rw [SelectT.test] at hcall
  split at hcall
  · cases hcall
  next e he =>
    split at hcall
    · cases hcall
    next fd' hfd =>
      split at hcall
      swap
      · cases hcall
      split at hcall
      · cases hcall
        exact h.events e (mem_of_getElem? he) fd hfd
      · cases hcall

end SelectT

/-- **The bookkeeping of the multiplexers.** In whatever state a run of `poll_t` or `select_t` gets to, a descriptor is
registered if and only if it has an entry, which then is its only one, and a handler that is called is the one that is
registered for its descriptor. In `poll_t` the table leads to the entry; in `select_t` the largest registered
descriptor is known. A run ends at an assertion at worst, in `select_t` if the descriptors that are added are less than
`FD_SETSIZE`: to add one that is not writes past the set. -/
theorem multiplexer_bookkeeping (H : Type) :
    (∀ labels, StepsMeet (PollT.loop H).step Poller.Proper ⟨PollT.new H, .timers, fun _ => none⟩ labels →
      Yields (runSteps (PollT.loop H).step ⟨PollT.new H, .timers, fun _ => none⟩ labels) (fun s =>
        (∀ fd i, (s.poller.fdTable fd).index = some i ↔ s.poller.fds[i]? = some ↑fd) ∧
          (∀ fd, s.live fd = none ↔ (s.poller.fdTable fd).index = none) ∧
          ∀ fd events, (PollT.loop H).Calls s fd events → s.live fd = some events) (· = .assertFailed)) ∧
      ∀ fdSetsize labels,
        StepsMeet (SelectT.loop H fdSetsize).step
          (fun s label => Poller.Proper s label ∧ label.Fits (SelectT.FdFits fdSetsize))
          ⟨SelectT.new H, .timers, fun _ => none⟩ labels →
        Yields (runSteps (SelectT.loop H fdSetsize).step ⟨SelectT.new H, .timers, fun _ => none⟩ labels) (fun s =>
          (∀ fd : ℕ, (s.poller.fds.map SelectEntry.fd).count ↑fd = if s.live fd = none then 0 else 1) ∧
            (∀ fd events, (SelectT.loop H fdSetsize).Calls s fd events → s.live fd = some events) ∧
            (∀ fd : ℕ, s.live fd ≠ none → fd ≤ s.poller.maxfd) ∧
            (s.poller.maxfd = ⊥ ∨ ∃ fd : ℕ, s.poller.maxfd = fd ∧ s.live fd ≠ none) ∧
            ∀ fd events, s.poller.fds.length < fdSetsize → fdSetsize ≤ fd →
              (SelectT.loop H fdSetsize).step s (.act (.addFd fd events)) = .error .outOfBounds)
          (· = .assertFailed) := by
  refine ⟨fun labels hgood => ?_, fun fdSetsize labels hgood => ?_⟩
  · refine ((PollT.keeps H).run PollT.inv_new ?_).mono fun s ⟨h, _⟩ => ?_
    · refine hgood.mono fun s label hproper => ⟨hproper, ?_⟩
      cases label <;> trivial
    refine ⟨h.index, fun fd => ⟨h.known fd, fun hnone => ?_⟩, fun fd events hcalls => ?_⟩
    · rw [h.events, if_pos hnone]
    · obtain ⟨i, t, -, -, hcall⟩ := hcalls
      exact h.call hcall
  · refine ((SelectT.keeps H fdSetsize).run (SelectT.inv_new fdSetsize) hgood).mono fun s ⟨h, _⟩ => ?_
    refine ⟨h.count, fun fd events hcalls => ?_, h.le_maxfd, h.maxfd, fun fd events hlength hle => ?_⟩
    · obtain ⟨i, t, -, -, hcall⟩ := hcalls
      exact h.call hcall
    · have hadd : SelectT.addFd fdSetsize fd events s.poller = .error .outOfBounds := by
        rw [SelectT.addFd, length_append, length_singleton, if_pos (Nat.succ_le_of_lt hlength), SelectT.change,
          if_neg (not_lt.mpr hle)]
      simp only [Poller.step, SelectT.loop, SelectT.act, hadd]
      rfl

/-- Two descriptors are reported; the handler of the first removes the second one and registers its number again. -/
def demoLabels {R : Type} (reported : R) : List (PollLabel R ℕ) :=
  [.act (.addFd 3 0), .act (.addFd 5 1), .act (.setPollin 3), .act (.setPollin 5), .wait reported true,
    .goOn, .goOn, .goOn, .act (.rmFd 5), .act (.addFd 5 2), .goOn, .goOn, .goOn, .goOn, .goOn, .goOn]

/-- Such a round, of `poll_t` and of `select_t`. -/
theorem multiplexer_bookkeeping_round :
    (∃ s, runSteps (PollT.loop ℕ).step ⟨PollT.new ℕ, .timers, fun _ => none⟩
        (demoLabels fun _ => ⟨false, false, false, true⟩) = .ok s ∧
      (s.poller.fds = [(3 : ℕ), (5 : ℕ)] ∧ s.live 5 = some 2) ∧
      ∀ fd i, (s.poller.fdTable fd).index = some i ↔ s.poller.fds[i]? = some ↑fd) ∧
    ∃ s, runSteps (SelectT.loop ℕ 1024).step ⟨SelectT.new ℕ, .timers, fun _ => none⟩
        (demoLabels fun t _ => t = .pollin) = .ok s ∧ s.poller.maxfd = (5 : ℕ) ∧
      ∀ fd : ℕ, (s.poller.fds.map SelectEntry.fd).count ↑fd = if s.live fd = none then 0 else 1 := by
  obtain ⟨hpoll, hselect⟩ := multiplexer_bookkeeping ℕ
  refine ⟨okAnd.exists_and (by decide +kernel) fun s hs => ?_, okAnd.exists_and (by decide +kernel) fun s hs => ?_⟩
  · exact ((hpoll _ (by decide +kernel)).ensures s hs).1
  · exact ((hselect 1024 _ (by decide +kernel)).ensures s hs).1

/-- A descriptor that is not less than `FD_SETSIZE` is added. -/
theorem multiplexer_out_of_bounds :
    StepsMeet (SelectT.loop Unit 1024).step Poller.Proper ⟨SelectT.new Unit, .timers, fun _ => none⟩
      [.act (.addFd 1024 ())] ∧
    runSteps (SelectT.loop Unit 1024).step ⟨SelectT.new Unit, .timers, fun _ => none⟩ [.act (.addFd 1024 ())] =
      .error .outOfBounds :=
  ⟨⟨⟨.inl rfl, rfl⟩, fun _ _ => trivial⟩, rfl⟩

end Zmq
