import Mathlib.Data.List.Sublists
import ZeroMQ.Foundation.Run
import ZeroMQ.Msg

/-!
# The conflating pipe `ypipe_conflate_t`

With the option `conflate` a pipe keeps one value only. It is a double buffer: the writer fills the
back buffer and swaps it to the front if it gets the mutex at the first try; the reader takes the mutex
and empties the front buffer. Writer and reader are interleaved at the mutex: a step is a `try_lock`, a
`lock`, or what one side does between two of these, and the sections under the mutex end with its
release.

The pipe keeps three histories: what was written, what reached the front buffer, and what was read.
The values read are those of the front buffer in order, and a reader that keeps reading comes to the last
value that reached it. The last value written is another matter, for a writer that finds the mutex taken
gives up and leaves its value in the back buffer; it is the same value if the mutex is free when the last
write tries it.
-/

namespace Zmq

open Foundation List
open scoped List

variable {α : Type}

/-! ### The double buffer -/

/-- `dbuffer_t`, less its mutex. A buffer that was initialised and not written holds nothing. -/
structure DBuffer (α : Type) where
  back : Option α
  front : Option α
  /-- A value was put to the front that is not read yet. -/
  hasMsg : Bool
  deriving DecidableEq

namespace DBuffer

/-- The constructor. -/
def init : DBuffer α := ⟨none, none, false⟩

/-- The part of `dbuffer_t::write` before the mutex: move the value to the back buffer. -/
def fill (d : DBuffer α) (value : α) : DBuffer α := { d with back := some value }

/-- The part of `dbuffer_t::write` under the mutex. -/
def swap (d : DBuffer α) : DBuffer α := ⟨d.front, d.back, true⟩

/-- `dbuffer_t::read`: the value, or `none` when the call returns false. -/
def read (d : DBuffer α) : Option (Option α) × DBuffer α :=
  if d.hasMsg then (some d.front, { d with front := none, hasMsg := false }) else (none, d)

/-- `dbuffer_t::check_read`. -/
def checkRead (d : DBuffer α) : Bool := d.hasMsg

end DBuffer

/-! ### The two sides -/

/-- The two threads. -/
inductive ConflateSide
  | writer
  | reader
  deriving DecidableEq

/-- Where the writer is. -/
inductive ConflateWriter
  /-- Outside `write`. -/
  | idle
  /-- The back buffer is filled, `try_lock` comes next. -/
  | trying
  /-- `try_lock` succeeded. -/
  | swapping
  deriving DecidableEq

/-- The section under the mutex that the reader is in or on its way to. -/
inductive ReaderCall
  /-- `dbuffer.check_read`, called for `check_read`. -/
  | check
  /-- `dbuffer.check_read`, called for `read`. -/
  | readCheck
  /-- `dbuffer.read`. -/
  | take
  deriving DecidableEq

/-- Where the reader is. -/
inductive ConflateReader
  /-- Outside `check_read` and `read`. -/
  | idle
  /-- Waits for the mutex. -/
  | locking (call : ReaderCall)
  /-- Has the mutex. -/
  | holding (call : ReaderCall)
  deriving DecidableEq

/-- `ypipe_conflate_t` with its two threads. -/
structure Conflate (α : Type) where
  dbuffer : DBuffer α
  /-- The mutex `sync` of the double buffer: who holds it. -/
  sync : Option ConflateSide
  readerAwake : Bool
  writer : ConflateWriter
  reader : ConflateReader
  /-- The last `try_lock` failed. -/
  gaveUp : Bool
  /-- History: the values written. -/
  written : List α
  /-- History: the values swapped to the front. -/
  published : List (Option α)
  /-- History: the values read. -/
  reads : List (Option α)
  /-- History: how often `flush` asked for the reader to be woken up. -/
  activations : ℕ
  deriving DecidableEq

/-- What a thread can do next. -/
inductive ConflateAct (α : Type)
  /-- The writer calls `write`. -/
  | write (value : α)
  /-- The writer's `try_lock`. -/
  | tryLock
  /-- The writer's section under the mutex. -/
  | swap
  /-- The writer calls `flush`. -/
  | flush
  /-- The reader calls `check_read`. -/
  | checkRead
  /-- The reader calls `read`. -/
  | read
  /-- The reader gets the mutex. -/
  | lock
  /-- The reader's section under the mutex. -/
  | leave
  deriving DecidableEq

/-- A thread was asked for a step that it cannot take. -/
inductive ConflateFault
  | notEnabled
  deriving DecidableEq

namespace Conflate

/-- The constructor. -/
def init : Conflate α := ⟨.init, none, false, .idle, .idle, false, [], [], [], 0⟩

/-- What `check_read` does with the answer of the double buffer. -/
def noteCheck (c : Conflate α) : Conflate α :=
  if c.dbuffer.checkRead then c else { c with readerAwake := false }

/-- The reader's section under the mutex; it ends with the release of the mutex. -/
def underMutex (c : Conflate α) : ReaderCall → Conflate α
  | .check => { c.noteCheck with sync := none, reader := .idle }
  | .readCheck =>
    { c.noteCheck with
      sync := none, reader := if c.dbuffer.checkRead then .locking .take else .idle }
  | .take =>
    { c with
      dbuffer := c.dbuffer.read.2, reads := c.reads ++ c.dbuffer.read.1.toList,
      sync := none, reader := .idle }

/-- One step of one of the two threads. -/
def step (c : Conflate α) : ConflateAct α → Except ConflateFault (Conflate α)
  | .write value =>
    if c.writer = .idle then
      .ok { c with dbuffer := c.dbuffer.fill value, written := c.written ++ [value], writer := .trying }
    else .error .notEnabled
  | .tryLock =>
    if c.writer = .trying then
      match c.sync with
      | none => .ok { c with sync := some .writer, writer := .swapping, gaveUp := false }
      | some _ => .ok { c with writer := .idle, gaveUp := true }
    else .error .notEnabled
  | .swap =>
    if c.writer = .swapping then
      .ok { c with
        dbuffer := c.dbuffer.swap, published := c.published ++ [c.dbuffer.back], sync := none,
        writer := .idle }
    else .error .notEnabled
  | .flush =>
    if c.writer = .idle then
      .ok { c with activations := if c.readerAwake then c.activations else c.activations + 1 }
    else .error .notEnabled
  | .checkRead =>
    if c.reader = .idle then .ok { c with reader := .locking .check } else .error .notEnabled
  | .read =>
    if c.reader = .idle then .ok { c with reader := .locking .readCheck } else .error .notEnabled
  | .lock =>
    match c.reader, c.sync with
    | .locking call, none => .ok { c with sync := some .reader, reader := .holding call }
    | _, _ => .error .notEnabled
  | .leave =>
    match c.reader with
    | .holding call => .ok (c.underMutex call)
    | _ => .error .notEnabled

/-- The next step of a reader that reads again and again. -/
def readerAct (c : Conflate α) : ConflateAct α :=
  match c.reader with
  | .idle => .read
  | .locking _ => .lock
  | .holding _ => .leave

/-- The reader takes `n` steps, reading again and again, while the writer does nothing. -/
def keepReading : ℕ → Conflate α → Except ConflateFault (Conflate α)
  | 0, c => .ok c
  | n + 1, c => c.step c.readerAct >>= keepReading n

/-! ### The last write -/

/-- The step is a `try_lock`. -/
def isTryLock : ConflateAct α → Bool
  | .tryLock => true
  | _ => false

/-- The mutex is free when the last write tries it. -/
def lastFree : List (ConflateAct α) → Conflate α → Bool
  | [], _ => true
  | a :: acts, c => (!isTryLock a || acts.any isTryLock || c.sync.isNone) &&
    match c.step a with
    | .ok c => lastFree acts c
    | .error _ => true

/-! ### The invariant -/

/-- What holds between the buffers, the threads and the histories. -/
structure Inv (c : Conflate α) : Prop where
  awake : c.readerAwake = false
  sync_writer : c.sync = some .writer ↔ c.writer = .swapping
  sync_reader : c.sync = some .reader ↔ ∃ call, c.reader = .holding call
  published_sublist : c.published <+ c.written.map some
  /-- A writer that is not done with its value has it in the back buffer. -/
  pending : c.writer ≠ .idle → ∃ w v, c.written = w ++ [v] ∧ c.dbuffer.back = some v ∧ c.published <+ w.map some
  /-- A value that is not read is the last one that came to the front. -/
  full : c.dbuffer.hasMsg = true → ∃ p, c.published = p ++ [c.dbuffer.front] ∧ c.reads <+ p
  /-- Without such a value the last one that came to the front is read. -/
  empty : c.dbuffer.hasMsg = false → c.reads <+ c.published ∧ c.reads.getLast? = c.published.getLast?
  /-- A writer that did not give up brought its value to the front. -/
  handed : c.writer = .idle → c.gaveUp = false → c.published.getLast? = (c.written.map some).getLast?

lemma Inv.init : (init : Conflate α).Inv := by
  constructor <;> simp [Conflate.init, DBuffer.init]

section Steps

variable {c c' : Conflate α}

section

variable (h : c.Inv)

include h

lemma Inv.reads_sublist : c.reads <+ c.published := by
  cases hm : c.dbuffer.hasMsg with
  | false => exact (h.empty hm).1
  | true =>
    obtain ⟨p, hp, hreads⟩ := h.full hm
    rw [hp]
    exact hreads.trans (sublist_append_left p _)

lemma Inv.write (hidle : c.writer = .idle) (v : α) :
    Inv { c with dbuffer := c.dbuffer.fill v, written := c.written ++ [v], writer := .trying } where
  awake := h.awake
  sync_writer := by
    have hfree := h.sync_writer
    simp only [hidle, reduceCtorEq, iff_false] at hfree
    simpa using hfree
  sync_reader := h.sync_reader
  published_sublist := by
    simp only [map_append]
    exact h.published_sublist.trans (sublist_append_left _ _)
  pending := fun _ => ⟨c.written, v, rfl, rfl, h.published_sublist⟩
  full := h.full
  empty := h.empty
  handed := fun hw => (by cases hw)

lemma Inv.tryLock_free (htrying : c.writer = .trying) (hfree : c.sync = none) :
    Inv { c with sync := some .writer, writer := .swapping, gaveUp := false } where
  awake := h.awake
  sync_writer := by simp
  sync_reader := by
    have hreader := h.sync_reader
    simpa [hfree] using hreader
  published_sublist := h.published_sublist
  pending := fun _ => h.pending (by simp [htrying])
  full := h.full
  empty := h.empty
  handed := fun hw => (by cases hw)

lemma Inv.tryLock_taken (htrying : c.writer = .trying) : Inv { c with writer := .idle, gaveUp := true } where
  awake := h.awake
  sync_writer := by
    have hwriter := h.sync_writer
    simpa [htrying] using hwriter
  sync_reader := h.sync_reader
  published_sublist := h.published_sublist
  pending := fun hw => (hw rfl).elim
  full := h.full
  empty := h.empty
  handed := fun _ hg => (by cases hg)

lemma Inv.swap (hswapping : c.writer = .swapping) :
    Inv { c with
      dbuffer := c.dbuffer.swap, published := c.published ++ [c.dbuffer.back], sync := none,
      writer := .idle } := by
  obtain ⟨w, v, hw, hback, hsub⟩ := h.pending (by simp [hswapping])
  have hreader : ¬∃ call, c.reader = .holding call := by
    rw [← h.sync_reader, h.sync_writer.mpr hswapping]
    simp
  exact
    { awake := h.awake
      sync_writer := by simp
      sync_reader := by simpa using hreader
      published_sublist := by
        simp only [hw, hback, map_append, map_cons, map_nil]
        exact hsub.append (List.Sublist.refl _)
      pending := fun hne => (hne rfl).elim
      full := fun _ => ⟨c.published, rfl, h.reads_sublist⟩
      empty := fun hm => (by cases hm)
      handed := fun _ _ => (by simp [hw, hback]) }

lemma Inv.setReader (hout : ∀ call, c.reader ≠ .holding call) {r : ConflateReader}
    (hr : ∀ call, r ≠ .holding call) : Inv { c with reader := r } where
  awake := h.awake
  sync_writer := h.sync_writer
  sync_reader := by
    have hreader := h.sync_reader
    simpa [hout, hr] using hreader
  published_sublist := h.published_sublist
  pending := h.pending
  full := h.full
  empty := h.empty
  handed := h.handed

lemma Inv.lock (hfree : c.sync = none) (call : ReaderCall) :
    Inv { c with sync := some .reader, reader := .holding call } where
  awake := h.awake
  sync_writer := by
    have hwriter := h.sync_writer
    simpa [hfree] using hwriter
  sync_reader := by simp
  published_sublist := h.published_sublist
  pending := h.pending
  full := h.full
  empty := h.empty
  handed := h.handed

lemma Inv.unlock {call : ReaderCall} (hheld : c.reader = .holding call)
    {r : ConflateReader} (hr : ∀ call, r ≠ .holding call) :
    Inv { c with sync := none, reader := r } where
  awake := h.awake
  sync_writer := by
    have hwriter := h.sync_writer
    have hmine := h.sync_reader.mpr ⟨call, hheld⟩
    simpa [hmine] using hwriter
  sync_reader := by simp [hr]
  published_sublist := h.published_sublist
  pending := h.pending
  full := h.full
  empty := h.empty
  handed := h.handed

lemma noteCheck_eq : c.noteCheck = c := by
  unfold noteCheck
  split
  · rfl
  · rw [← h.awake]

lemma Inv.read : Inv { c with dbuffer := c.dbuffer.read.2, reads := c.reads ++ c.dbuffer.read.1.toList } := by
  cases hm : c.dbuffer.hasMsg with
  | false => simpa [DBuffer.read, hm] using h
  | true =>
    obtain ⟨p, hp, hreads⟩ := h.full hm
    simp only [DBuffer.read, hm, if_true, Option.toList_some]
    exact
      { awake := h.awake
        sync_writer := h.sync_writer
        sync_reader := h.sync_reader
        published_sublist := h.published_sublist
        pending := h.pending
        full := fun hf => (by cases hf)
        empty := fun _ => by
          constructor
          · rw [hp]
            exact hreads.append (List.Sublist.refl _)
          · simp [hp]
        handed := h.handed }

lemma Inv.underMutex {call : ReaderCall} (hheld : c.reader = .holding call) : (c.underMutex call).Inv := by
  cases call with
  | check =>
    rw [Conflate.underMutex, noteCheck_eq h]
    exact h.unlock hheld (by simp)
  | readCheck =>
    rw [Conflate.underMutex, noteCheck_eq h]
    refine h.unlock hheld fun call => ?_
    split <;> simp
  | take => exact h.read.unlock hheld (by simp)

/-- **A step keeps the invariant.** -/
theorem Inv.step (a : ConflateAct α) : Ensures (c.step a) Inv := by
  cases a with
  | write v =>
    rw [Conflate.step]
    split
    · exact .ok (h.write ‹_› v)
    · exact .error _
  | tryLock =>
    rw [Conflate.step]
    split
    · split
      · exact .ok (h.tryLock_free ‹_› ‹_›)
      · exact .ok (h.tryLock_taken ‹_›)
    · exact .error _
  | swap =>
    rw [Conflate.step]
    split
    · exact .ok (h.swap ‹_›)
    · exact .error _
  | flush =>
    rw [Conflate.step]
    split
    · exact .ok { h with }
    · exact .error _
  | checkRead | read =>
    rw [Conflate.step]
    split
    case isTrue hidle => exact .ok (h.setReader (by simp [hidle]) (by simp))
    case isFalse => exact .error _
  | lock =>
    rw [Conflate.step]
    split
    · exact .ok (h.lock ‹_› _)
    · exact .error _
  | leave =>
    rw [Conflate.step]
    split
    · exact .ok (h.underMutex ‹_›)
    · exact .error _

end

lemma Inv.of_run {acts : List (ConflateAct α)}
    (hrun : runSteps Conflate.step Conflate.init acts = .ok c) : c.Inv := by
  have hall : StepsMeet Conflate.step (fun _ _ => True) Conflate.init acts :=
    stepsMeet_of_forall (fun _ _ _ => trivial) _
  refine runSteps_preserves ?_ Inv.init hall hrun
  intro s a s' hs _ hstep
  exact hs.step a s' hstep

end Steps

/-! ### A writer that does not give up -/

lemma gaveUp_step {c c' : Conflate α} {a : ConflateAct α} (hstep : c.step a = .ok c') :
    c'.gaveUp = if isTryLock a then c.sync.isSome else c.gaveUp := by
  cases a with
  | leave =>
    cases hreader : c.reader with
    | holding call =>
      simp only [step, hreader] at hstep
      rw [← Except.ok.inj hstep]
      cases call <;> simp only [underMutex, noteCheck, isTryLock] <;> (try split) <;> rfl
    | idle | locking call => simp [step, hreader] at hstep
  | tryLock =>
    simp only [step] at hstep
    split at hstep
    · split at hstep <;> (cases hstep; simp [isTryLock, *])
    · cases hstep
  | _ =>
    simp only [step] at hstep
    split at hstep <;> (cases hstep; try rfl)

/-- The writer has not given up its last value. -/
lemma gaveUp_of_lastFree {c c' : Conflate α} {acts : List (ConflateAct α)}
    (hrun : runSteps step c acts = .ok c') (hfree : lastFree acts c = true)
    (hc : acts.any isTryLock = true ∨ c.gaveUp = false) : c'.gaveUp = false := by
  induction acts generalizing c with
  | nil =>
    rw [← Except.ok.inj hrun]
    exact hc.resolve_left (by simp)
  | cons a acts ih =>
    rw [runSteps] at hrun
    split at hrun
    case h_2 => cases hrun
    next c1 hstep =>
    have hgave := gaveUp_step hstep
    simp only [lastFree, hstep, Bool.and_eq_true] at hfree
    refine ih hrun hfree.2 ?_
    cases htry : isTryLock a <;> cases hany : acts.any isTryLock <;> simp_all

/-! ### A reader that keeps reading -/

section Reading

variable {c : Conflate α}

/-- The writer's part of the state is as it was. -/
structure Untouched (c c' : Conflate α) : Prop where
  writer : c'.writer = c.writer
  gaveUp : c'.gaveUp = c.gaveUp
  written : c'.written = c.written
  published : c'.published = c.published

lemma Untouched.refl (c : Conflate α) : Untouched c c := ⟨rfl, rfl, rfl, rfl⟩

lemma Untouched.trans {c1 c2 c3 : Conflate α} (h : Untouched c1 c2) (h' : Untouched c2 c3) :
    Untouched c1 c3 :=
  ⟨h'.writer.trans h.writer, h'.gaveUp.trans h.gaveUp, h'.written.trans h.written, h'.published.trans h.published⟩

/-- How many steps the reader is away from the end of a `dbuffer.read`. -/
def distance : ConflateReader → ℕ
  | .locking .check => 7
  | .holding .check => 6
  | .idle => 5
  | .locking .readCheck => 4
  | .holding .readCheck => 3
  | .locking .take => 2
  | .holding .take => 1

lemma distance_bounds (r : ConflateReader) : 0 < distance r ∧ distance r ≤ 7 := by
  match r with
  | .idle => decide
  | .locking call => cases call <;> decide
  | .holding call => cases call <;> decide

/-- While the writer does nothing the reader can always go on. It never makes the buffer full, and it
comes closer to the end of a `dbuffer.read` as long as the buffer is full. -/
lemma step_readerAct (h : c.Inv) (hidle : c.writer = .idle) :
    ∃ c', c.step c.readerAct = .ok c' ∧ Untouched c c' ∧
      (c'.dbuffer.hasMsg = true → c.dbuffer.hasMsg = true ∧ distance c'.reader + 1 = distance c.reader) := by
  cases hreader : c.reader with
  | idle =>
    refine ⟨{ c with reader := .locking .readCheck }, ?_, ⟨rfl, rfl, rfl, rfl⟩, fun hm => ⟨hm, rfl⟩⟩
    simp [readerAct, Conflate.step, hreader]
  | locking call =>
    have hfree : c.sync = none := by
      have hw := h.sync_writer
      have hr := h.sync_reader
      simp only [hidle, hreader, reduceCtorEq, exists_false, iff_false] at hw hr
      match hs : c.sync with
      | none => rfl
      | some .writer => exact (hw hs).elim
      | some .reader => exact (hr hs).elim
    refine ⟨{ c with sync := some .reader, reader := .holding call }, ?_, ⟨rfl, rfl, rfl, rfl⟩, fun hm => ⟨hm, ?_⟩⟩
    · simp [readerAct, Conflate.step, hreader, hfree]
    · cases call <;> rfl
  | holding call =>
    refine ⟨c.underMutex call, by simp [readerAct, Conflate.step, hreader], ?_, ?_⟩
    · cases call <;> constructor <;> simp [underMutex, noteCheck_eq h]
    cases call with
    | check =>
      intro hm
      refine ⟨?_, rfl⟩
      simpa [underMutex, noteCheck_eq h] using hm
    | readCheck =>
      intro hm
      have hfull : c.dbuffer.hasMsg = true := by simpa [underMutex, noteCheck_eq h] using hm
      refine ⟨hfull, ?_⟩
      simp [underMutex, DBuffer.checkRead, hfull, distance]
    | take =>
      intro hm
      simp only [underMutex, DBuffer.read] at hm
      split at hm <;> simp_all

lemma keepReading_spec (n : ℕ) (h : c.Inv) (hidle : c.writer = .idle) :
    ∃ c', keepReading n c = .ok c' ∧ c'.Inv ∧ Untouched c c' ∧
      (c'.dbuffer.hasMsg = true → c.dbuffer.hasMsg = true ∧ n < distance c.reader) := by
  induction n generalizing c with
  | zero =>
    exact ⟨c, rfl, h, Untouched.refl c, fun hm => ⟨hm, (distance_bounds c.reader).1⟩⟩
  | succ n ih =>
    obtain ⟨c1, hstep, hsame, hcloser⟩ := step_readerAct h hidle
    obtain ⟨c2, hrest, hinv, hsame2, hcloser2⟩ := ih (h.step _ c1 hstep) (hsame.writer.trans hidle)
    refine ⟨c2, ?_, hinv, hsame.trans hsame2, fun hm => ?_⟩
    · rw [keepReading, hstep]
      exact hrest
    · obtain ⟨hm1, hlt⟩ := hcloser2 hm
      obtain ⟨hm0, hdist⟩ := hcloser hm1
      exact ⟨hm0, by omega⟩

/-- **Conflation.** In every run the values read are a subsequence of the values written. Once the
writer has stopped, a reader that keeps reading obtains the last value that came to the front, and this is
the last value written if the mutex was free when the last write tried it. -/
theorem conflate_reads (acts : List (ConflateAct α)) (c : Conflate α)
    (hrun : runSteps step init acts = .ok c) :
    c.reads <+ c.written.map some ∧
      (c.writer = .idle → ∀ n, 7 ≤ n → ∃ c', keepReading n c = .ok c' ∧ c'.written = c.written ∧
        c'.reads <+ c'.written.map some ∧ c'.reads.getLast? = c.published.getLast? ∧
        (lastFree acts init = true → c'.reads.getLast? = (c.written.map some).getLast?)) := by
  have h := Inv.of_run hrun
  refine ⟨h.reads_sublist.trans h.published_sublist, fun hidle n hn => ?_⟩
  obtain ⟨c', hread, hinv, hsame, hfull⟩ := keepReading_spec n h hidle
  have hempty : c'.dbuffer.hasMsg = false := by
    by_contra hm
    have hlt := (hfull (by simpa using hm)).2
    have := (distance_bounds c.reader).2
    omega
  have hlast : c'.reads.getLast? = c.published.getLast? := by
    rw [(hinv.empty hempty).2, hsame.published]
  refine ⟨c', hread, hsame.written, hinv.reads_sublist.trans hinv.published_sublist, hlast, fun hfree => ?_⟩
  rw [hlast]
  exact h.handed hidle (gaveUp_of_lastFree hrun hfree (.inr rfl))

end Reading

/-- The reader looks into the empty pipe; while it has the mutex the pipe is terminated: the delimiter is
written and flushed. -/
def lostDelimiter : List (ConflateAct Msg) := [.checkRead, .lock, .write Msg.initDelimiter, .tryLock, .flush]

/-- A delimiter that was written and flushed never comes to the reader, however long it keeps reading. -/
theorem conflate_loses_delimiter :
    ∃ c, runSteps step init lostDelimiter = .ok c ∧ c.writer = .idle ∧
      c.written.getLast? = some Msg.initDelimiter ∧
      ∀ n, ∃ c', keepReading n c = .ok c' ∧ c'.reads = [] := by
  have hcheck : okAnd (runSteps step init lostDelimiter) fun c => c.writer = .idle ∧
      c.written.getLast? = some Msg.initDelimiter ∧ c.dbuffer.hasMsg = false ∧ c.published = [] := by
    decide
  refine hcheck.exists_imp fun c hrun ⟨hidle, hlast, hempty, hnone⟩ => ⟨hidle, hlast, fun n => ?_⟩
  obtain ⟨c', hread, hinv, hsame, hfull⟩ := keepReading_spec n (Inv.of_run hrun) hidle
  have hempty' : c'.dbuffer.hasMsg = false := by
    by_contra hm
    have := (hfull (by simpa using hm)).1
    simp [hempty] at this
  have hsub := (hinv.empty hempty').1
  rw [hsame.published, hnone] at hsub
  exact ⟨c', hread, eq_nil_of_sublist_nil hsub⟩

/-- Two values and a delimiter are written; the reader misses the first. -/
def readLast : List (ConflateAct Msg) :=
  [.write ⟨.data, MsgFlags.none, [1]⟩, .tryLock, .swap, .flush, .read, .lock, .leave,
    .write ⟨.data, MsgFlags.none, [2]⟩, .tryLock, .swap, .flush, .lock, .leave,
    .write Msg.initDelimiter, .tryLock, .swap, .flush]

/-- The second value is read, and then the delimiter. -/
theorem conflate_reads_delimiter :
    ∃ c, runSteps step init readLast = .ok c ∧
      c.reads = [some ⟨.data, MsgFlags.none, [2]⟩] ∧ c.reads <+ c.written.map some ∧
      ∃ c', keepReading 7 c = .ok c' ∧ c'.reads.getLast? = some (some Msg.initDelimiter) := by
  have hcheck : okAnd (runSteps step init readLast) fun c => c.writer = .idle ∧
      c.reads = [some ⟨.data, MsgFlags.none, [2]⟩] ∧
      (c.written.map some).getLast? = some (some Msg.initDelimiter) := by
    decide
  refine hcheck.exists_imp fun c hrun ⟨hidle, hreads, hlast⟩ => ?_
  obtain ⟨hsub, hkeep⟩ := conflate_reads readLast c hrun
  obtain ⟨c', hread, -, -, -, hobtained⟩ := hkeep hidle 7 le_rfl
  refine ⟨hreads, hsub, c', hread, ?_⟩
  rw [hobtained (by decide)]
  exact hlast

end Conflate

end Zmq
