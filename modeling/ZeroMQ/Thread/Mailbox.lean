import ZeroMQ.Foundation.Run
import ZeroMQ.Pipe.YPipe

/-!
# The mailbox of a thread

A mailbox is a lock-free pipe of commands with many senders and one receiver. The senders take turns
at the pipe by means of the mutex `sync`; a sender whose flush finds the receiver asleep sends a signal,
after it has released the mutex. The receiver reads the pipe as long as it is `active`; when the pipe
is empty it becomes passive and waits for a signal.

A step is an access to something shared: the mutex, the pipe (where `flush` takes two steps if its
compare-and-swap fails) or the signaler. `MailboxInv` says who holds the mutex and how the flag
`active`, the sleeping state of the pipe and the signals agree. From it follows that commands are
received once and in the order in which they were sent, and that a receiver that waits for a signal
while there is something to read will get one.
-/

namespace Zmq

open Function List

variable {α : Type}

/-! ### The parties -/

/-- Where a sender is in `mailbox_t::send`. -/
inductive SenderPc (α : Type)
  | outside
  /-- It has the mutex. -/
  | locked (cmd : α)
  /-- It has written its command. -/
  | written
  /-- It is inside `flush`, between the failed compare-and-swap and `c.set`. -/
  | setting
  /-- `flush` has returned `ok`; the mutex is still held. -/
  | flushed (ok : Bool)
  /-- The mutex is released, and `signaler.send` is to come. -/
  | signalling

namespace SenderPc

/-- The sender is between `sync.lock` and `sync.unlock`. -/
def holds : SenderPc α → Bool
  | .outside | .signalling => false
  | .locked _ | .written | .setting | .flushed _ => true

/-- Its flush has found the receiver asleep and it has not sent the signal yet. -/
def owes : SenderPc α → Bool
  | .flushed ok => !ok
  | .signalling => true
  | .outside | .locked _ | .written | .setting => false

/-- The sender is not inside `send`. -/
def isOutside : SenderPc α → Bool
  | .outside => true
  | .locked _ | .written | .setting | .flushed _ | .signalling => false

end SenderPc

/-- Where the receiver is in `mailbox_t::recv`. -/
inductive ReceiverPc
  | outside
  /-- It is passive and waits for a signal. -/
  | waiting
  /-- `signaler.wait` has returned 0. -/
  | signalled
  /-- The signal is received and the receiver is active. -/
  | woken
  deriving DecidableEq

/-- `mailbox_t` with its senders and its receiver. -/
structure Mailbox (α : Type) where
  cpipe : YPipe α
  /-- The signals sent and not received. -/
  signals : ℕ
  /-- The sender that has locked the mutex. -/
  sync : Option ℕ
  active : Bool
  senders : ℕ → SenderPc α
  receiver : ReceiverPc
  /-- The commands in the order in which they were written. -/
  sent : List α
  /-- The commands in the order in which `recv` returned them. -/
  received : List α

/-- A step of a sender. -/
inductive SendAct (α : Type)
  | lock (cmd : α)
  | write
  | flush
  | flushSet
  | unlock
  | signal

/-- A step of a sender or of the receiver. -/
inductive MailboxAct (α : Type)
  | send (sender : ℕ) (act : SendAct α)
  /-- `recv` is called. -/
  | recv
  /-- `signaler.wait` returns; not `ok` is a timeout or an interrupt. -/
  | wait (ok : Bool)
  | signalRecv
  /-- The read behind `active = true`. -/
  | read

/-- What can go wrong. -/
inductive MailboxFault
  /-- `zmq_assert (ok)` behind a received signal fails. -/
  | assertFailed
  /-- `signaler.recv` finds no signal. -/
  | noSignal
  deriving DecidableEq, Repr

namespace Mailbox

/-- The constructor: a new pipe is put into the passive state. -/
def new (mem : ℕ → α) : Mailbox α :=
  ⟨(YPipe.init mem).read.2, 0, none, false, fun _ => .outside, .outside, [], []⟩

/-- A sender gets to another place. -/
def goto (s : Mailbox α) (i : ℕ) (pc : SenderPc α) : Mailbox α :=
  { s with senders := update s.senders i pc }

/-- A step of a sender in `mailbox_t::send`. What it is not about to do does nothing. -/
def sendStep (s : Mailbox α) (i : ℕ) : SendAct α → Mailbox α
  | .lock cmd =>
    match s.senders i, s.sync with
    | .outside, none => { s.goto i (.locked cmd) with sync := some i }
    | _, _ => s
  | .write =>
    match s.senders i with
    | .locked cmd =>
      { s.goto i .written with cpipe := s.cpipe.write cmd false, sent := s.sent ++ [cmd] }
    | _ => s
  | .flush =>
    match s.senders i with
    | .written =>
      match s.cpipe.flushCas with
      | (some ok, p) => { s.goto i (.flushed ok) with cpipe := p }
      | (none, p) => { s.goto i .setting with cpipe := p }
    | _ => s
  | .flushSet =>
    match s.senders i with
    | .setting => { s.goto i (.flushed false) with cpipe := s.cpipe.flushSet }
    | _ => s
  | .unlock =>
    match s.senders i with
    | .flushed ok => { s.goto i (if ok then .outside else .signalling) with sync := none }
    | _ => s
  | .signal =>
    match s.senders i with
    | .signalling => { s.goto i .outside with signals := s.signals + 1 }
    | _ => s

/-- A step. What the receiver is not about to do does nothing. -/
def step (s : Mailbox α) : MailboxAct α → Except MailboxFault (Mailbox α)
  | .send i act => .ok (s.sendStep i act)
  | .recv =>
    match s.receiver with
    | .outside =>
      if s.active then
        match s.cpipe.read with
        | (some cmd, p) => .ok { s with cpipe := p, received := s.received ++ [cmd] }
        | (none, p) => .ok { s with cpipe := p, active := false, receiver := .waiting }
      else .ok { s with receiver := .waiting }
    | _ => .ok s
  | .wait ok =>
    match s.receiver with
    | .waiting =>
      if !ok then .ok { s with receiver := .outside }
      else if 0 < s.signals then .ok { s with receiver := .signalled }
      else .ok s
    | _ => .ok s
  | .signalRecv =>
    match s.receiver with
    | .signalled =>
      if 0 < s.signals then
        .ok { s with signals := s.signals - 1, active := true, receiver := .woken }
      else .error .noSignal
    | _ => .ok s
  | .read =>
    match s.receiver with
    | .woken =>
      match s.cpipe.read with
      | (some cmd, p) =>
        .ok { s with cpipe := p, received := s.received ++ [cmd], receiver := .outside }
      | (none, _) => .error .assertFailed
    | _ => .ok s

/-- A sequence of steps. -/
def run (s : Mailbox α) (acts : List (MailboxAct α)) : Except MailboxFault (Mailbox α) :=
  Foundation.runSteps step s acts

/-- A call of `recv` that waits until a signal is pending. -/
def recvCall : List (MailboxAct α) := [.recv, .wait true, .signalRecv, .read]

end Mailbox

/-! ### The invariant -/

/-- What a sender that holds the mutex has done to the pipe. -/
def SenderPc.Progress (pc : SenderPc α) (u : Upipe α) : Prop :=
  match pc with
  | .locked _ | .flushed _ => u.complete = []
  | .written => u.complete ≠ []
  | .setting => u.complete ≠ [] ∧ u.asleep = true
  | .outside | .signalling => False

/-- Who is in the critical section, and how far. -/
inductive Mailbox.Section (s : Mailbox α) (u : Upipe α) : Prop
  | free (hsync : s.sync = none) (hout : ∀ i, (s.senders i).holds = false) (hc : u.complete = [])
  | taken (i : ℕ) (hsync : s.sync = some i) (hout : ∀ j, j ≠ i → (s.senders j).holds = false)
      (hpc : (s.senders i).Progress u)

/-- Who has to wake the receiver. -/
inductive Mailbox.Wake (s : Mailbox α) (u : Upipe α) : Prop
  /-- Nobody: the receiver has found the pipe empty and nothing was flushed since. -/
  | asleep (ha : u.asleep = true) (hactive : s.active = false) (hsig : s.signals = 0)
      (hpc : s.receiver = .outside ∨ s.receiver = .waiting)
      (howes : ∀ i, (s.senders i).owes = false)
  /-- The sender `i`, by sending a signal. -/
  | owed (i : ℕ) (ha : u.asleep = false) (hfl : u.flushed ≠ []) (hactive : s.active = false)
      (hsig : s.signals = 0) (hpc : s.receiver = .outside ∨ s.receiver = .waiting)
      (hi : (s.senders i).owes = true) (howes : ∀ j, j ≠ i → (s.senders j).owes = false)
  /-- The signal was sent. -/
  | pending (ha : u.asleep = false) (hfl : u.flushed ≠ []) (hactive : s.active = false)
      (hsig : s.signals = 1) (hpc : s.receiver ≠ .woken) (howes : ∀ i, (s.senders i).owes = false)
  /-- The signal was received, and the first command is about to be read. -/
  | woken (ha : u.asleep = false) (hfl : u.flushed ≠ []) (hactive : s.active = true)
      (hsig : s.signals = 0) (hpc : s.receiver = .woken) (howes : ∀ i, (s.senders i).owes = false)
  /-- Nobody: the receiver is active. -/
  | active (ha : u.asleep = false) (hactive : s.active = true) (hsig : s.signals = 0)
      (hpc : s.receiver = .outside) (howes : ∀ i, (s.senders i).owes = false)

/-- The pipe represents a queue of whole commands, with what was received they are what was sent, and
mutex and signals are in order. -/
structure MailboxInv (s : Mailbox α) (u : Upipe α) : Prop where
  pipe : s.cpipe.Represents u
  sent_eq : s.sent = s.received ++ u.items
  incomplete : u.incomplete = []
  section_ : s.Section u
  wake : s.Wake u

namespace MailboxInv

variable {s : Mailbox α} {u : Upipe α} {i : ℕ} {cmd : α}

open Mailbox

lemma flushed_of_asleep (h : MailboxInv s u) (ha : u.asleep = true) : u.flushed = [] :=
  h.pipe.asleep_flushed ha

lemma new (mem : ℕ → α) : MailboxInv (Mailbox.new mem) (Upipe.empty.read.2) where
  pipe := (YPipe.Represents.init mem).read.2
  sent_eq := rfl
  incomplete := rfl
  section_ := .free rfl (fun _ => rfl) rfl
  wake := .asleep rfl rfl rfl (.inl rfl) (fun _ => rfl)

/-! ### Steps of the senders -/

lemma owes_goto {senders : ℕ → SenderPc α} {pc : SenderPc α} {j : ℕ}
    (hpc : pc.owes = (senders i).owes) :
    (update senders i pc j).owes = (senders j).owes := by
  by_cases hj : j = i
  · rw [hj, update_self, hpc]
  · rw [update_of_ne hj]

lemma wake_mono {t : Mailbox α} {v : Upipe α} (h : s.Wake u)
    (howes : ∀ j, (t.senders j).owes = (s.senders j).owes) (ha : v.asleep = u.asleep)
    (hfl : u.flushed ≠ [] → v.flushed ≠ []) (hactive : t.active = s.active)
    (hsig : t.signals = s.signals) (hpc : t.receiver = s.receiver) : t.Wake v := by
  cases h with
  | asleep h1 h2 h3 h4 h5 =>
    exact .asleep (ha.trans h1) (hactive.trans h2) (hsig.trans h3) (by rw [hpc]; exact h4)
      fun j => (howes j).trans (h5 j)
  | owed i h1 h2 h3 h4 h5 h6 h7 =>
    exact .owed i (ha.trans h1) (hfl h2) (hactive.trans h3) (hsig.trans h4) (by rw [hpc]; exact h5)
      ((howes i).trans h6) fun j hj => (howes j).trans (h7 j hj)
  | pending h1 h2 h3 h4 h5 h6 =>
    exact .pending (ha.trans h1) (hfl h2) (hactive.trans h3) (hsig.trans h4) (by rw [hpc]; exact h5)
      fun j => (howes j).trans (h6 j)
  | woken h1 h2 h3 h4 h5 h6 =>
    exact .woken (ha.trans h1) (hfl h2) (hactive.trans h3) (hsig.trans h4) (hpc.trans h5)
      fun j => (howes j).trans (h6 j)
  | active h1 h2 h3 h4 h5 =>
    exact .active (ha.trans h1) (hactive.trans h2) (hsig.trans h3) (hpc.trans h4)
      fun j => (howes j).trans (h5 j)

lemma holder (h : MailboxInv s u) (hi : (s.senders i).holds = true) :
    s.sync = some i ∧ (∀ j, j ≠ i → (s.senders j).holds = false) ∧ (s.senders i).Progress u := by
  cases h.section_ with
  | free hsync hout hc =>
    rw [hout i] at hi
    exact absurd hi (by decide)
  | taken j hsync hout hpc =>
    by_cases hij : i = j
    · subst hij
      exact ⟨hsync, hout, hpc⟩
    · rw [hout i hij] at hi
      exact absurd hi (by decide)

lemma others (hout : ∀ j, j ≠ i → (s.senders j).holds = false) (pc : SenderPc α) :
    ∀ j, j ≠ i → (update s.senders i pc j).holds = false := by
  intro j hj
  rw [update_of_ne hj]
  exact hout j hj

lemma lock (h : MailboxInv s u) (i : ℕ) (cmd : α) :
    MailboxInv (s.sendStep i (.lock cmd)) u := by
  simp only [sendStep]
  split
  next hpc hsync =>
    refine ⟨h.pipe, h.sent_eq, h.incomplete, ?_, ?_⟩
    · cases h.section_ with
      | free _ hout hc =>
        refine .taken i rfl (others (fun j _ => hout j) _) ?_
        simp only [goto, update_self]
        exact hc
      | taken j hsync' => simp [hsync] at hsync'
    · exact wake_mono h.wake (fun j => owes_goto (by rw [hpc]; rfl)) rfl id rfl rfl rfl
  next => exact h

lemma write (h : MailboxInv s u) (i : ℕ) : ∃ v, MailboxInv (s.sendStep i .write) v := by
  simp only [sendStep]
  split
  next cmd hpc =>
    obtain ⟨hsync, hout, hprog⟩ := h.holder (i := i) (by rw [hpc]; rfl)
    refine ⟨u.write cmd false, h.pipe.write cmd false, ?_, rfl, ?_, ?_⟩
    · simp only [goto, Upipe.items_write, h.sent_eq, append_assoc]
    · refine .taken i hsync (others hout _) ?_
      simp [goto, SenderPc.Progress, Upipe.write]
    · exact wake_mono h.wake (fun j => owes_goto (by rw [hpc]; rfl)) rfl id rfl rfl rfl
  next => exact ⟨u, h⟩

lemma flush (h : MailboxInv s u) (i : ℕ) : ∃ v, MailboxInv (s.sendStep i .flush) v := by
  simp only [sendStep]
  split
  next hpc =>
    obtain ⟨hsync, hout, hprog⟩ := h.holder (i := i) (by rw [hpc]; rfl)
    have hc : u.complete ≠ [] := by
      rw [hpc] at hprog
      exact hprog
    cases ha : u.asleep with
    | true =>
      rw [h.pipe.flushCas_of_asleep hc ha]
      refine ⟨u, h.pipe, h.sent_eq, h.incomplete, .taken i hsync (others hout _) ?_, ?_⟩
      · simp only [goto, update_self]
        exact ⟨hc, ha⟩
      · exact wake_mono h.wake (fun j => owes_goto (by rw [hpc]; rfl)) rfl id rfl rfl rfl
    | false =>
      rw [h.pipe.flushCas_of_awake hc ha]
      have hfl := Upipe.flush_of_ne_nil hc
      refine ⟨u.flush.2, h.pipe.flushSet hc, ?_, ?_, .taken i hsync (others hout _) ?_, ?_⟩
      · rw [Upipe.items_flush]
        exact h.sent_eq
      · rw [hfl]
        exact h.incomplete
      · simp [goto, SenderPc.Progress, hfl]
      · refine wake_mono h.wake (fun j => owes_goto (by rw [hpc]; rfl)) ?_ ?_ rfl rfl rfl
        · rw [hfl, ha]
        · intro _
          rw [hfl]
          simp [hc]
  next => exact ⟨u, h⟩

lemma flushSet (h : MailboxInv s u) (i : ℕ) : ∃ v, MailboxInv (s.sendStep i .flushSet) v := by
  simp only [sendStep]
  split
  next hpc =>
    obtain ⟨hsync, hout, hprog⟩ := h.holder (i := i) (by rw [hpc]; rfl)
    obtain ⟨hc, ha⟩ : u.complete ≠ [] ∧ u.asleep = true := by
      rw [hpc] at hprog
      exact hprog
    have hfl := Upipe.flush_of_ne_nil hc
    refine ⟨u.flush.2, h.pipe.flushSet hc, ?_, ?_, .taken i hsync (others hout _) ?_, ?_⟩
    · rw [Upipe.items_flush]
      exact h.sent_eq
    · rw [hfl]
      exact h.incomplete
    · simp [goto, SenderPc.Progress, hfl]
    · have hfl' : u.flush.2.flushed ≠ [] := by
        rw [hfl]
        simp [hc]
      have ha' : u.flush.2.asleep = false := by rw [hfl]
      cases h.wake with
      | asleep _ hactive hsig hrecv howes =>
        refine .owed i ha' hfl' hactive hsig hrecv (by simp [goto, SenderPc.owes]) fun j hj => ?_
        simp only [goto, update_of_ne hj]
        exact howes j
      | owed _ hno | pending hno | woken hno | active hno =>
        rw [ha] at hno
        exact absurd hno (by decide)
  next => exact ⟨u, h⟩

lemma unlock (h : MailboxInv s u) (i : ℕ) : MailboxInv (s.sendStep i .unlock) u := by
  simp only [sendStep]
  split
  next ok hpc =>
    obtain ⟨hsync, hout, hprog⟩ := h.holder (i := i) (by rw [hpc]; rfl)
    have hc : u.complete = [] := by
      rw [hpc] at hprog
      exact hprog
    refine ⟨h.pipe, h.sent_eq, h.incomplete, .free rfl (fun j => ?_) hc, ?_⟩
    · by_cases hj : j = i
      · simp only [goto, hj, update_self]
        cases ok <;> rfl
      · simp only [goto, update_of_ne hj]
        exact hout j hj
    · exact wake_mono h.wake (fun j => owes_goto (by rw [hpc]; cases ok <;> rfl)) rfl id rfl rfl rfl
  next => exact h

lemma signal (h : MailboxInv s u) (i : ℕ) : MailboxInv (s.sendStep i .signal) u := by
  simp only [sendStep]
  split
  next hpc =>
    have howe : (s.senders i).owes = true := by rw [hpc]; rfl
    refine ⟨h.pipe, h.sent_eq, h.incomplete, ?_, ?_⟩
    · cases h.section_ with
      | free hsync hout hc =>
        refine .free hsync (fun j => ?_) hc
        by_cases hj : j = i
        · simp only [goto, hj, update_self]
          rfl
        · simp only [goto, update_of_ne hj]
          exact hout j
      | taken j hsync hout hprog =>
        have hji : j ≠ i := by
          rintro rfl
          rw [hpc] at hprog
          exact hprog
        refine .taken j hsync (fun k hk => ?_) ?_
        · by_cases hki : k = i
          · simp only [goto, hki, update_self]
            rfl
          · simp only [goto, update_of_ne hki]
            exact hout k hk
        · simp only [goto, update_of_ne hji]
          exact hprog
    · cases h.wake with
      | owed j ha hfl hactive hsig hrecv hj hothers =>
        have hij : i = j := by
          by_contra hne
          rw [hothers i hne] at howe
          exact absurd howe (by decide)
        refine .pending ha hfl hactive (by simp [hsig]) ?_ fun k => ?_
        · rcases hrecv with hrecv | hrecv <;> simp [goto, hrecv]
        by_cases hk : k = i
        · simp only [goto, hk, update_self]
          rfl
        · simp only [goto, update_of_ne hk]
          exact hothers k (hij ▸ hk)
      | asleep _ _ _ _ howes | pending _ _ _ _ _ howes | woken _ _ _ _ _ howes
      | active _ _ _ _ howes =>
        rw [howes i] at howe
        exact absurd howe (by decide)
  next => exact h

lemma sendStep (h : MailboxInv s u) (i : ℕ) (act : SendAct α) :
    ∃ v, MailboxInv (s.sendStep i act) v := by
  cases act with
  | lock cmd => exact ⟨u, h.lock i cmd⟩
  | write => exact h.write i
  | flush => exact h.flush i
  | flushSet => exact h.flushSet i
  | unlock => exact ⟨u, h.unlock i⟩
  | signal => exact ⟨u, h.signal i⟩

/-! ### Steps of the receiver -/

lemma read_asleep_of_asleep {v : Upipe α} (h : v.asleep = true) : v.read.2.asleep = true := by
  unfold Upipe.read
  split
  · rfl
  · exact h

lemma goto_receiver (h : MailboxInv s u) {pc : ReceiverPc} (hw : Wake { s with receiver := pc } u) :
    MailboxInv { s with receiver := pc } u := by
  refine ⟨h.pipe, h.sent_eq, h.incomplete, ?_, hw⟩
  cases h.section_ with
  | free hsync hout hc => exact .free hsync hout hc
  | taken i hsync hout hpc => exact .taken i hsync hout hpc

lemma section_read (h : s.Section u) {t : Mailbox α} (hsync : t.sync = s.sync)
    (hsenders : t.senders = s.senders) : t.Section u.read.2 := by
  have hc : u.read.2.complete = u.complete := by
    unfold Upipe.read
    split <;> rfl
  cases h with
  | free h1 hout h3 =>
    exact .free (hsync.trans h1) (by rw [hsenders]; exact hout) (hc.trans h3)
  | taken i h1 hout hpc =>
    refine .taken i (hsync.trans h1) (by rw [hsenders]; exact hout) ?_
    rw [hsenders]
    cases hs : s.senders i with
    | outside | signalling =>
      rw [hs] at hpc
      exact hpc.elim
    | locked cmd | flushed ok =>
      rw [hs] at hpc
      exact hc.trans hpc
    | written =>
      rw [hs] at hpc
      exact fun hnil => hpc (hc.symm.trans hnil)
    | setting =>
      rw [hs] at hpc
      exact ⟨fun hnil => hpc.1 (hc.symm.trans hnil), read_asleep_of_asleep hpc.2⟩

lemma take (h : MailboxInv s u) (hfl : u.flushed ≠ []) (ha : u.asleep = false)
    (hsig : s.signals = 0) (hactive : s.active = true)
    (howes : ∀ j, (s.senders j).owes = false) :
    ∃ cmd p v, s.cpipe.read = (some cmd, p) ∧
      MailboxInv { s with cpipe := p, received := s.received ++ [cmd], receiver := .outside } v := by
  obtain ⟨cmd, cmds, hcons⟩ := exists_cons_of_ne_nil hfl
  obtain ⟨hres, hrep⟩ := h.pipe.read
  have hread := Upipe.read_of_cons hcons
  rw [hread] at hres hrep
  have hsec := section_read h.section_ (t := { s with
    cpipe := s.cpipe.read.2, received := s.received ++ [cmd], receiver := .outside }) rfl rfl
  rw [hread] at hsec
  refine ⟨cmd, s.cpipe.read.2, _, Prod.ext hres rfl, hrep, ?_, h.incomplete, hsec,
    .active ha hactive hsig rfl howes⟩
  simp [h.sent_eq, Upipe.items, hcons]

lemma recv (h : MailboxInv s u) : ∃ t v, s.step .recv = .ok t ∧ MailboxInv t v := by
  cases hpc : s.receiver with
  | waiting | signalled | woken => exact ⟨s, u, by simp [step, hpc], h⟩
  | outside =>
    cases h.wake with
    | woken _ _ _ _ hpc' => simp [hpc] at hpc'
    | asleep ha hactive hsig _ howes =>
      exact ⟨{ s with receiver := .waiting }, u, by simp [step, hpc, hactive],
        h.goto_receiver (.asleep ha hactive hsig (.inr rfl) howes)⟩
    | owed i ha hfl hactive hsig _ hi howes =>
      exact ⟨{ s with receiver := .waiting }, u, by simp [step, hpc, hactive],
        h.goto_receiver (.owed i ha hfl hactive hsig (.inr rfl) hi howes)⟩
    | pending ha hfl hactive hsig _ howes =>
      exact ⟨{ s with receiver := .waiting }, u, by simp [step, hpc, hactive],
        h.goto_receiver (.pending ha hfl hactive hsig (by simp) howes)⟩
    | active ha hactive hsig _ howes =>
      cases hfl : u.flushed with
      | cons cmd cmds =>
        obtain ⟨cmd, p, v, hread, hinv⟩ := h.take (by simp [hfl]) ha hsig hactive howes
        refine ⟨_, v, ?_, hinv⟩
        simp [step, hpc, hactive, hread]
      | nil =>
        -- the receiver has read everything and goes to sleep
        obtain ⟨hres, hrep⟩ := h.pipe.read
        have hread := Upipe.read_of_nil hfl
        have hsec := section_read h.section_ (t := { s with
          cpipe := s.cpipe.read.2, active := false, receiver := .waiting }) rfl rfl
        rw [hread] at hres hrep hsec
        have hpair : s.cpipe.read = (none, s.cpipe.read.2) := Prod.ext hres rfl
        refine ⟨{ s with cpipe := s.cpipe.read.2, active := false, receiver := .waiting }, _, ?_, hrep,
          h.sent_eq, h.incomplete, hsec, .asleep rfl rfl hsig (.inr rfl) howes⟩
        rw [step, hpc]
        simp only [hactive, if_true]
        rw [hpair]

lemma wait (h : MailboxInv s u) (ok : Bool) :
    ∃ t v, s.step (.wait ok) = .ok t ∧ MailboxInv t v := by
  cases hpc : s.receiver with
  | outside | signalled | woken => exact ⟨s, u, by simp [step, hpc], h⟩
  | waiting =>
    cases ok with
    | false =>
      refine ⟨{ s with receiver := .outside }, u, by simp [step, hpc], h.goto_receiver ?_⟩
      cases h.wake with
      | asleep ha hactive hsig _ howes => exact .asleep ha hactive hsig (.inl rfl) howes
      | owed i ha hfl hactive hsig _ hi howes =>
        exact .owed i ha hfl hactive hsig (.inl rfl) hi howes
      | pending ha hfl hactive hsig _ howes => exact .pending ha hfl hactive hsig (by simp) howes
      | woken _ _ _ _ hpc' | active _ _ _ hpc' => simp [hpc] at hpc'
    | true =>
      by_cases hsig : 0 < s.signals
      swap
      · exact ⟨s, u, by simp [step, hpc, hsig], h⟩
      refine ⟨{ s with receiver := .signalled }, u, by simp [step, hpc, hsig], h.goto_receiver ?_⟩
      cases h.wake with
      | pending ha hfl hactive hsig _ howes => exact .pending ha hfl hactive hsig (by simp) howes
      | asleep _ _ hno | owed _ _ _ _ hno | woken _ _ _ hno | active _ _ hno =>
        rw [hno] at hsig
        exact absurd hsig (by decide)

lemma wakeUp (h : MailboxInv s u) (ha : u.asleep = false) (hfl : u.flushed ≠ [])
    (howes : ∀ i, (s.senders i).owes = false) :
    MailboxInv { s with signals := 0, active := true, receiver := .woken } u := by
  refine ⟨h.pipe, h.sent_eq, h.incomplete, ?_, .woken ha hfl rfl rfl rfl howes⟩
  cases h.section_ with
  | free hsync hout hc => exact .free hsync hout hc
  | taken i hsync hout hpc => exact .taken i hsync hout hpc

lemma signalRecv (h : MailboxInv s u) : ∃ t v, s.step .signalRecv = .ok t ∧ MailboxInv t v := by
  cases hpc : s.receiver with
  | outside | waiting | woken => exact ⟨s, u, by simp [step, hpc], h⟩
  | signalled =>
    cases h.wake with
    | pending ha hfl hactive hsig _ howes =>
      exact ⟨{ s with signals := 0, active := true, receiver := .woken }, u,
        by simp [step, hpc, hsig], h.wakeUp ha hfl howes⟩
    | asleep _ _ _ hno | owed _ _ _ _ _ hno => rcases hno with hno | hno <;> simp [hpc] at hno
    | woken _ _ _ _ hno | active _ _ _ hno => simp [hpc] at hno

lemma read (h : MailboxInv s u) : ∃ t v, s.step .read = .ok t ∧ MailboxInv t v := by
  cases hpc : s.receiver with
  | outside | waiting | signalled => exact ⟨s, u, by simp [step, hpc], h⟩
  | woken =>
    cases h.wake with
    | woken ha hfl hactive hsig _ howes =>
      obtain ⟨cmd, p, v, hread, hinv⟩ := h.take hfl ha hsig hactive howes
      exact ⟨_, v, by simp [step, hpc, hread], hinv⟩
    | asleep _ _ _ hno | owed _ _ _ _ _ hno => rcases hno with hno | hno <;> simp [hpc] at hno
    | pending _ _ _ _ hno | active _ _ _ hno => simp [hpc] at hno

lemma step (h : MailboxInv s u) (a : MailboxAct α) :
    ∃ t v, s.step a = .ok t ∧ MailboxInv t v := by
  cases a with
  | send i act =>
    obtain ⟨v, hv⟩ := h.sendStep i act
    exact ⟨_, v, rfl, hv⟩
  | recv => exact h.recv
  | wait ok => exact h.wait ok
  | signalRecv => exact h.signalRecv
  | read => exact h.read

/-! ### What the mailbox guarantees -/

lemma flushed_of_quiet (h : MailboxInv s u) (hquiet : ∀ i, (s.senders i).isOutside = true) :
    s.sent = s.received ++ u.flushed := by
  have hc : u.complete = [] := by
    cases h.section_ with
    | free _ _ hc => exact hc
    | taken i _ _ hpc =>
      have hi := hquiet i
      cases hs : s.senders i with
      | outside =>
        rw [hs] at hpc
        exact hpc.elim
      | _ => simp [hs, SenderPc.isOutside] at hi
  rw [h.sent_eq, Upipe.items, hc, h.incomplete, append_nil, append_nil]

lemma owes_of_quiet (hquiet : ∀ i, (s.senders i).isOutside = true) (i : ℕ) :
    (s.senders i).owes = false := by
  have hi := hquiet i
  cases hs : s.senders i with
  | outside => rfl
  | _ => simp [hs, SenderPc.isOutside] at hi

lemma signalled_of_flushed (h : MailboxInv s u) (hactive : s.active = false)
    (hfl : u.flushed ≠ []) : s.signals = 1 ∨ ∃ i, (s.senders i).owes = true := by
  cases h.wake with
  | asleep ha => exact absurd (h.flushed_of_asleep ha) hfl
  | owed i _ _ _ _ _ hi => exact .inr ⟨i, hi⟩
  | pending _ _ _ hsig => exact .inl hsig
  | woken _ _ hno | active _ hno =>
    rw [hactive] at hno
    exact absurd hno (by decide)

lemma recvCall (h : MailboxInv s u) (hquiet : ∀ i, (s.senders i).isOutside = true)
    (hpc : s.receiver = .outside) (hne : s.received ≠ s.sent) :
    ∃ t v cmd, s.run Mailbox.recvCall = .ok t ∧ MailboxInv t v ∧ t.receiver = .outside ∧
      t.senders = s.senders ∧ t.sent = s.sent ∧ t.received = s.received ++ [cmd] := by
  have hfl : u.flushed ≠ [] := by
    intro hnil
    rw [h.flushed_of_quiet hquiet, hnil, append_nil] at hne
    exact hne rfl
  have howes := owes_of_quiet hquiet
  cases h.wake with
  | asleep ha => exact absurd (h.flushed_of_asleep ha) hfl
  | owed i _ _ _ _ _ hi =>
    rw [howes i] at hi
    exact absurd hi (by decide)
  | woken _ _ _ _ hno => simp [hpc] at hno
  | active ha hactive hsig =>
    obtain ⟨cmd, p, v, hread, hinv⟩ := h.take hfl ha hsig hactive howes
    refine ⟨_, v, cmd, ?_, hinv, rfl, rfl, rfl, rfl⟩
    simp [Mailbox.run, Mailbox.recvCall, Foundation.runSteps, Mailbox.step, hpc, hactive, hread]
  | pending ha _ hactive hsig =>
    obtain ⟨cmd, p, v, hread, hinv⟩ := (h.wakeUp ha hfl howes).take hfl ha rfl rfl howes
    refine ⟨_, v, cmd, ?_, hinv, rfl, rfl, rfl, rfl⟩
    simp [Mailbox.run, Mailbox.recvCall, Foundation.runSteps, Mailbox.step, hpc, hactive, hsig, hread]

lemma recvCalls (h : MailboxInv s u) (hquiet : ∀ i, (s.senders i).isOutside = true)
    (hpc : s.receiver = .outside) {n : ℕ} (hn : s.received.length + n ≤ s.sent.length) :
    ∃ t, s.run (List.replicate n Mailbox.recvCall).flatten = .ok t ∧ t.sent = s.sent ∧
      t.received = s.sent.take (s.received.length + n) := by
  induction n generalizing s u with
  | zero =>
    refine ⟨s, rfl, rfl, ?_⟩
    rw [Nat.add_zero]
    exact (prefix_iff_eq_take.mp ⟨u.items, h.sent_eq.symm⟩)
  | succ n ih =>
    have hne : s.received ≠ s.sent := by
      intro heq
      rw [heq] at hn
      omega
    obtain ⟨t, v, cmd, hrun, hinv, hpc', hsenders, hsent, hreceived⟩ := h.recvCall hquiet hpc hne
    have hn' : t.received.length + n ≤ t.sent.length := by
      rw [hreceived, hsent, length_append, length_singleton]
      omega
    obtain ⟨t', hrun', hsent', htake⟩ := ih hinv (by rw [hsenders]; exact hquiet) hpc' hn'
    refine ⟨t', ?_, hsent'.trans hsent, ?_⟩
    · rw [replicate_succ, flatten_cons]
      exact (Foundation.runSteps_append hrun _).trans hrun'
    · rw [htake, hsent, hreceived, length_append, length_singleton]
      congr 1
      omega

end MailboxInv

/-- What holds of a mailbox at any time. -/
structure Mailbox.Sound (s : Mailbox α) : Prop where
  /-- Commands are received once and in the order in which they were sent. -/
  fifo : s.received <+: s.sent
  signals_le : s.signals ≤ 1
  /-- If a passive receiver has something to read, a signal is pending, or the sender that found it
  asleep is about to send one. -/
  signalled : s.active = false → s.cpipe.read.1 ≠ none →
    s.signals = 1 ∨ ∃ i, (s.senders i).owes = true
  /-- If no sender is inside `send` and a passive receiver has not received everything, a signal is
  pending. -/
  quiet : (∀ i, (s.senders i).isOutside = true) → s.active = false → s.received ≠ s.sent →
    s.signals = 1
  complete : (∀ i, (s.senders i).isOutside = true) → s.receiver = .outside →
    ∀ n, s.received.length + n ≤ s.sent.length →
      ∃ t, s.run (List.replicate n Mailbox.recvCall).flatten = .ok t ∧ t.sent = s.sent ∧
        t.received = s.sent.take (s.received.length + n)

lemma MailboxInv.sound {s : Mailbox α} {u : Upipe α} (h : MailboxInv s u) : s.Sound where
  fifo := ⟨u.items, h.sent_eq.symm⟩
  signals_le := by
    cases h.wake with
    | pending _ _ _ hsig => exact hsig.le
    | asleep _ _ hsig | owed _ _ _ _ hsig | woken _ _ _ hsig | active _ _ hsig => simp [hsig]
  signalled hactive hread := by
    refine h.signalled_of_flushed hactive fun hnil => hread ?_
    rw [h.pipe.read.1, Upipe.read_of_nil hnil]
  quiet hquiet hactive hne := by
    have hfl : u.flushed ≠ [] := by
      intro hnil
      rw [h.flushed_of_quiet hquiet, hnil, append_nil] at hne
      exact hne rfl
    obtain hsig | ⟨i, hi⟩ := h.signalled_of_flushed hactive hfl
    · exact hsig
    · rw [MailboxInv.owes_of_quiet hquiet i] at hi
      exact absurd hi (by decide)
  complete hquiet hpc n hn := h.recvCalls hquiet hpc hn

/-- **The mailbox is a lossless queue with a reliable wake-up.** In every interleaving of any number of
senders and the receiver, whose waits may time out, no assertion fails, commands are received once and
in the order in which they were sent, at most one signal is pending, and a passive receiver with
something to read has a signal pending or is about to get one. -/
theorem mailbox_lossless (mem : ℕ → α) (acts : List (MailboxAct α)) :
    ∃ s, (Mailbox.new mem).run acts = .ok s ∧ s.Sound := by
  have hstep : ∀ (s : Mailbox α) a, (∃ u, MailboxInv s u) → True →
      ∃ t, Mailbox.step s a = .ok t ∧ ∃ v, MailboxInv t v := by
    rintro s a ⟨u, h⟩ -
    obtain ⟨t, v, hs, hv⟩ := h.step a
    exact ⟨t, hs, v, hv⟩
  have hmeet : Foundation.StepsMeet Mailbox.step (fun _ _ => True) (Mailbox.new mem) acts :=
    Foundation.stepsMeet_of_forall (fun _ _ _ => trivial) _
  obtain ⟨s, hrun, u, hu⟩ := Foundation.runSteps_invariant hstep ⟨_, MailboxInv.new mem⟩ hmeet
  exact ⟨s, hrun, hu.sound⟩

/-- The signal is sent after the mutex is released: until then the passive receiver has a command to
read and no signal is pending. -/
theorem mailbox_signal_after_unlock :
    ∃ s, (Mailbox.new fun _ => 0).run [.send 0 (.lock 7), .send 0 .write, .send 0 .flush,
        .send 0 .flushSet, .send 0 .unlock] = .ok s ∧
      s.active = false ∧ s.cpipe.read.1 = some 7 ∧ s.received ≠ s.sent ∧ s.signals = 0 :=
  ⟨_, rfl, rfl, rfl, by decide, rfl⟩

end Zmq
