import ZeroMQ.Pipe.YPipe

/-!
# A writer and a reader on one `ypipe_t`

The writer performs any sequence of `write`, `unwrite` and `flush`, the reader any sequence of
`check_read` and `read`, and their steps interleave arbitrarily. A step is a call, except that a
`flush` that finds the reader asleep takes two: between its failed compare-and-swap and its `c.set`
the reader may run, while the writer is still inside `flush`.

A run leaves a trace of events. `Tally` reads off the trace what the writer and the reader may
expect of each other: what was written and not taken back, how much of it is complete, how much of
that was covered by a flush, what was delivered, and whether the reader was sent to sleep. The
results compare every event of every run with the tally of the events before it.
-/

namespace Zmq

open List

variable {α : Type}

/-! ### The two parties -/

/-- A step of one of the two parties. -/
inductive YLabel (α : Type)
  | write (value : α) (incomplete : Bool)
  | unwrite
  | flush
  /-- The second half of a `flush` whose compare-and-swap failed. -/
  | flushSet
  | checkRead
  | read

/-- A call that returned, with its result. -/
inductive YEvent (α : Type)
  | wrote (value : α) (incomplete : Bool)
  | unwrote (result : Option α)
  | flushed (result : Bool)
  | checked (result : Bool)
  | gave (result : Option α)

/-- The pipe and whether the writer is between the failed compare-and-swap and `c.set`. -/
structure YSystem (α : Type) where
  pipe : YPipe α
  setting : Bool

/-- One step: the new state and the event of a call that returned. A writer inside `flush` can only
finish it. -/
def YSystem.step (s : YSystem α) : YLabel α → YSystem α × Option (YEvent α)
  | .write v b =>
    if s.setting then (s, none) else ({ s with pipe := s.pipe.write v b }, some (.wrote v b))
  | .unwrite =>
    if s.setting then (s, none)
    else ({ s with pipe := s.pipe.unwrite.2 }, some (.unwrote s.pipe.unwrite.1))
  | .flush =>
    if s.setting then (s, none)
    else
      match s.pipe.flushCas with
      | (some b, p) => ({ s with pipe := p }, some (.flushed b))
      | (none, p) => ({ pipe := p, setting := true }, none)
  | .flushSet =>
    if s.setting then ({ pipe := s.pipe.flushSet, setting := false }, some (.flushed false))
    else (s, none)
  | .checkRead => ({ s with pipe := s.pipe.checkRead.2 }, some (.checked s.pipe.checkRead.1))
  | .read => ({ s with pipe := s.pipe.read.2 }, some (.gave s.pipe.read.1))

/-- The state and the trace after a sequence of steps on a new pipe. -/
def yrun (mem : ℕ → α) (labels : List (YLabel α)) : YSystem α × List (YEvent α) :=
  labels.foldl (fun st l => ((st.1.step l).1, st.2 ++ (st.1.step l).2.toList)) (⟨YPipe.init mem, false⟩, [])

/-! ### The tally of a trace -/

/-- What a trace says about the pipe. -/
structure Tally (α : Type) where
  /-- Values written and not unwritten. -/
  written : List α
  /-- How many of them lie up to the last write that was not incomplete. -/
  completed : ℕ
  /-- How many of them a finished flush covered. -/
  covered : ℕ
  /-- Values returned by `read`. -/
  delivered : List α
  /-- The reader was told that there is nothing to read and no flush published anything since. -/
  asleep : Bool

/-- A flush would publish something. -/
def Tally.publishes (t : Tally α) : Bool := decide (t.covered < t.completed)

/-- The tally after one more event. -/
def Tally.next (t : Tally α) : YEvent α → Tally α
  | .wrote v b =>
    { t with written := t.written ++ [v],
             completed := if b then t.completed else t.written.length + 1 }
  | .unwrote none => t
  | .unwrote (some _) => { t with written := t.written.dropLast }
  | .flushed _ => { t with covered := t.completed, asleep := t.asleep && !t.publishes }
  | .checked b => { t with asleep := t.asleep || !b }
  | .gave none => { t with asleep := true }
  | .gave (some v) => { t with delivered := t.delivered ++ [v] }

/-- The tally of a trace. -/
def tally (es : List (YEvent α)) : Tally α := es.foldl Tally.next ⟨[], 0, 0, [], false⟩

/-- An event a lossless first-in first-out queue with exact signalling may show after a trace of
tally `t`. -/
def Tally.Legal (t : Tally α) : YEvent α → Prop
  | .wrote _ _ => True
  /- only an incomplete value can be taken back, and it is the last one written -/
  | .unwrote none => t.completed = t.written.length
  | .unwrote (some v) => t.completed < t.written.length ∧ t.written.getLast? = some v
  /- false exactly when something is published to a sleeping reader -/
  | .flushed b => b = !(t.publishes && t.asleep)
  | .checked b => b = decide (t.delivered.length < t.covered)
  | .gave none => t.delivered.length = t.covered
  /- the next value of those written, and a flush has covered it -/
  | .gave (some v) => t.delivered.length < t.covered ∧ t.written[t.delivered.length]? = some v

@[simp] lemma tally_nil : tally ([] : List (YEvent α)) = ⟨[], 0, 0, [], false⟩ := rfl

@[simp] lemma tally_concat (es : List (YEvent α)) (e : YEvent α) : tally (es ++ [e]) = (tally es).next e := by
  simp [tally]

/-! ### The invariant -/

/-- The tally describes the queue `u`: what is written is what is delivered followed by the three
segments of `u`. -/
structure Tally.Describes (t : Tally α) (u : Upipe α) : Prop where
  written_eq : t.written = t.delivered ++ u.items
  covered_eq : t.covered = t.delivered.length + u.flushed.length
  completed_eq : t.completed = t.covered + u.complete.length
  asleep_eq : t.asleep = u.asleep

namespace Tally.Describes

variable {t : Tally α} {u : Upipe α}

section

variable (h : t.Describes u)

include h

lemma publishes_eq : t.publishes = decide (u.complete ≠ []) := by
  have := h.completed_eq
  rw [Tally.publishes, decide_eq_decide, ← length_pos_iff]
  omega

lemma length_written : t.written.length = t.completed + u.incomplete.length := by
  have := h.covered_eq
  have := h.completed_eq
  rw [h.written_eq]
  simp only [Upipe.items, length_append]
  omega

lemma write (v : α) (b : Bool) : (t.next (.wrote v b)).Describes (u.write v b) := by
  have hlen := h.length_written
  have hcomp := h.completed_eq
  refine ⟨?_, ?_, ?_, ?_⟩
  · rw [Upipe.items_write, ← append_assoc]
    exact congrArg (· ++ [v]) h.written_eq
  · cases b <;> exact h.covered_eq
  · cases b
    · simp only [Tally.next, Upipe.write, Bool.false_eq_true, ↓reduceIte, length_append, length_singleton]
      omega
    · exact hcomp
  · cases b <;> exact h.asleep_eq

lemma flush : t.Legal (.flushed u.flush.1) ∧ ∀ b, (t.next (.flushed b)).Describes u.flush.2 := by
  have hpub := h.publishes_eq
  have hcomp := h.completed_eq
  have hcov := h.covered_eq
  by_cases hc : u.complete = []
  · have hpub' : t.publishes = false := by simp [hpub, hc]
    rw [hc, length_nil] at hcomp
    simp only [Upipe.flush, if_pos hc]
    refine ⟨by simp [Tally.Legal, hpub'], fun b => ⟨h.written_eq, ?_, ?_, ?_⟩⟩
    · simp only [Tally.next]; omega
    · simp [Tally.next, hc]
    · simp [Tally.next, hpub', h.asleep_eq]
  · have hpub' : t.publishes = true := by simp [hpub, hc]
    have hitems := u.items_flush
    have hw := h.written_eq
    rw [← hitems] at hw
    simp only [Upipe.flush, if_neg hc] at hw ⊢
    refine ⟨by simp [Tally.Legal, hpub', h.asleep_eq], fun b => ⟨hw, ?_, ?_, ?_⟩⟩
    · simp only [Tally.next, length_append]; omega
    · simp [Tally.next]
    · simp [Tally.next, hpub']

lemma unwrite : t.Legal (.unwrote u.unwrite.1) ∧ (t.next (.unwrote u.unwrite.1)).Describes u.unwrite.2 := by
  have hlen := h.length_written
  unfold Upipe.unwrite
  rcases eq_nil_or_concat u.incomplete with hnil | ⟨l, v, hl⟩
  · rw [hnil, length_nil] at hlen
    simp only [hnil, getLast?_nil, dropLast_nil]
    refine ⟨hlen.symm, ?_, h.covered_eq, h.completed_eq, h.asleep_eq⟩
    simpa [Tally.next, Upipe.items, hnil] using h.written_eq
  · rw [hl, concat_eq_append, length_append, length_singleton] at hlen
    have hw := h.written_eq
    rw [Upipe.items, hl, concat_eq_append] at hw
    simp only [hl, concat_eq_append, getLast?_append, getLast?_singleton, Option.some_or, dropLast_concat]
    refine ⟨⟨by omega, by simp [hw]⟩, ?_, h.covered_eq, h.completed_eq, h.asleep_eq⟩
    simp only [Tally.next, hw, Upipe.items, ← append_assoc, dropLast_concat]

lemma checkRead :
    t.Legal (.checked u.checkRead.1) ∧ (t.next (.checked u.checkRead.1)).Describes u.checkRead.2 := by
  have hcov := h.covered_eq
  cases hfl : u.flushed with
  | nil =>
    rw [hfl, length_nil] at hcov
    rw [Upipe.checkRead_of_nil hfl]
    refine ⟨by simp [Tally.Legal, hcov], h.written_eq, h.covered_eq, h.completed_eq, ?_⟩
    simp [Tally.next]
  | cons v vs =>
    rw [hfl, length_cons] at hcov
    rw [Upipe.checkRead_of_cons hfl]
    refine ⟨by simp [Tally.Legal, hcov], h.written_eq, h.covered_eq, h.completed_eq, ?_⟩
    simp [Tally.next, h.asleep_eq]

lemma read : t.Legal (.gave u.read.1) ∧ (t.next (.gave u.read.1)).Describes u.read.2 := by
  have hcov := h.covered_eq
  cases hfl : u.flushed with
  | nil =>
    rw [hfl, length_nil] at hcov
    rw [Upipe.read_of_nil hfl]
    exact ⟨hcov.symm, h.written_eq, h.covered_eq, h.completed_eq, rfl⟩
  | cons v vs =>
    have hw := h.written_eq
    rw [Upipe.items, hfl] at hw
    rw [hfl, length_cons] at hcov
    rw [Upipe.read_of_cons hfl]
    refine ⟨⟨by omega, by simp [hw]⟩, ?_, ?_, h.completed_eq, h.asleep_eq⟩
    · simp [Tally.next, hw, Upipe.items]
    · simp only [Tally.next, length_append, length_singleton]
      omega

end

end Tally.Describes

/-- Every event of the trace is legal after the events before it. -/
def LegalTrace (es : List (YEvent α)) : Prop := ∀ pre e post, es = pre ++ e :: post → (tally pre).Legal e

/-- The invariant of a run: the trace is legal, and the pipe represents a queue the tally describes.
Inside a `flush` the reader sleeps and there is something to publish. -/
def YInv (st : YSystem α × List (YEvent α)) : Prop :=
  LegalTrace st.2 ∧ ∃ u, st.1.pipe.Represents u ∧ (tally st.2).Describes u ∧
    (st.1.setting = true → u.asleep = true ∧ u.complete ≠ [])

lemma LegalTrace.concat {es : List (YEvent α)} (h : LegalTrace es) {e : YEvent α}
    (he : (tally es).Legal e) : LegalTrace (es ++ [e]) := by
  intro pre e' post heq
  rcases eq_nil_or_concat post with rfl | ⟨post', x, rfl⟩
  · obtain ⟨rfl, h2⟩ := append_inj' heq rfl
    obtain rfl : e = e' := by simpa using h2
    exact he
  · rw [concat_eq_append, ← cons_append, ← append_assoc] at heq
    exact h pre e' post' (append_inj' heq rfl).1

lemma YInv.add {es : List (YEvent α)} {s : YSystem α} {u : Upipe α} (hleg : LegalTrace es)
    {e : YEvent α} (he : (tally es).Legal e) (hrep : s.pipe.Represents u)
    (hdesc : ((tally es).next e).Describes u)
    (hset : s.setting = true → u.asleep = true ∧ u.complete ≠ []) :
    YInv (s, es ++ (some e).toList) := by
  rw [← tally_concat] at hdesc
  exact ⟨hleg.concat he, u, hrep, hdesc, hset⟩

lemma Upipe.checkRead_asleep {u : Upipe α} (h : u.asleep = true ∧ u.complete ≠ []) :
    u.checkRead.2.asleep = true ∧ u.checkRead.2.complete ≠ [] := by
  unfold Upipe.checkRead
  split
  · exact ⟨rfl, h.2⟩
  · exact h

lemma Upipe.read_asleep {u : Upipe α} (h : u.asleep = true ∧ u.complete ≠ []) :
    u.read.2.asleep = true ∧ u.read.2.complete ≠ [] := by
  unfold Upipe.read
  split
  · exact ⟨rfl, h.2⟩
  · exact h

lemma YInv.step {s : YSystem α} {es : List (YEvent α)} (h : YInv (s, es)) (l : YLabel α) :
    YInv ((s.step l).1, es ++ (s.step l).2.toList) := by
  obtain ⟨hleg, u, hrep, hdesc, hset⟩ := h
  have hskip : YInv (s, es ++ (none : Option (YEvent α)).toList) := by
    rw [Option.toList_none, append_nil]
    exact ⟨hleg, u, hrep, hdesc, hset⟩
  cases l with
  | write v b =>
    by_cases hs : s.setting = true
    · simpa only [YSystem.step, if_pos hs] using hskip
    · simp only [YSystem.step, if_neg hs]
      exact YInv.add hleg trivial (hrep.write v b) (hdesc.write v b) (fun e => absurd e hs)
  | unwrite =>
    by_cases hs : s.setting = true
    · simpa only [YSystem.step, if_pos hs] using hskip
    obtain ⟨hres, hrep'⟩ := hrep.unwrite
    obtain ⟨hl, hdesc'⟩ := hdesc.unwrite
    simp only [YSystem.step, if_neg hs, hres]
    exact YInv.add hleg hl hrep' hdesc' (fun e => absurd e hs)
  | flush =>
    by_cases hs : s.setting = true
    · simpa only [YSystem.step, if_pos hs] using hskip
    obtain ⟨hl, hdesc'⟩ := hdesc.flush
    simp only [YSystem.step, if_neg hs]
    by_cases hc : u.complete = []
    · rw [Upipe.flush_of_nil hc] at hl hdesc'
      rw [hrep.flushCas_of_nil hc]
      exact YInv.add hleg hl hrep (hdesc' true) (fun e => absurd e hs)
    · have hu : u.flush.1 = !u.asleep := by rw [Upipe.flush_of_ne_nil hc]
      cases ha : u.asleep with
      | true =>
        rw [hrep.flushCas_of_asleep hc ha, Option.toList_none, append_nil]
        exact ⟨hleg, u, hrep, hdesc, fun _ => ⟨ha, hc⟩⟩
      | false =>
        rw [hu, ha] at hl
        rw [hrep.flushCas_of_awake hc ha]
        exact YInv.add hleg hl (hrep.flushSet hc) (hdesc' true) (fun e => absurd e hs)
  | flushSet =>
    by_cases hs : s.setting = true
    · obtain ⟨ha, hc⟩ := hset hs
      obtain ⟨hl, hdesc'⟩ := hdesc.flush
      have hu : u.flush.1 = false := by rw [Upipe.flush_of_ne_nil hc, ha]; rfl
      rw [hu] at hl
      simp only [YSystem.step, if_pos hs]
      exact YInv.add hleg hl (hrep.flushSet hc) (hdesc' false) (fun e => by simp at e)
    · simpa only [YSystem.step, if_neg hs] using hskip
  | checkRead =>
    obtain ⟨hres, hrep'⟩ := hrep.checkRead
    obtain ⟨hl, hdesc'⟩ := hdesc.checkRead
    simp only [YSystem.step, hres]
    exact YInv.add hleg hl hrep' hdesc' (fun e => Upipe.checkRead_asleep (hset e))
  | read =>
    obtain ⟨hres, hrep'⟩ := hrep.read
    obtain ⟨hl, hdesc'⟩ := hdesc.read
    simp only [YSystem.step, hres]
    exact YInv.add hleg hl hrep' hdesc' (fun e => Upipe.read_asleep (hset e))

lemma yrun_inv (mem : ℕ → α) (labels : List (YLabel α)) : YInv (yrun mem labels) := by
  refine List.foldlRecOn labels _ ⟨?_, Upipe.empty, YPipe.Represents.init mem, ?_, ?_⟩ ?_
  · intro pre e post h
    simp at h
  · exact ⟨rfl, rfl, rfl, rfl⟩
  · simp
  · rintro ⟨s, es⟩ h l -
    exact YInv.step h l

/-- **`ypipe_t` is a lossless first-in first-out queue with exact sleep signalling.** After every
interleaving of a writer and a reader: what was delivered is a prefix of what was written and not
unwritten; it does not exceed what the flushes covered, nor this what is complete; every event was
legal after the events before it, so that in particular every delivered value was the next one
written and was covered by a flush, and a flush returned false exactly when it published something
to a sleeping reader; the reader sleeps exactly when `c` is NULL; and the next `read` returns the
next covered value if there is one. -/
theorem ypipe_lossless_fifo (mem : ℕ → α) (labels : List (YLabel α)) :
    let s := (yrun mem labels).1
    let es := (yrun mem labels).2
    let t := tally es
    t.delivered <+: t.written ∧
    t.delivered.length ≤ t.covered ∧ t.covered ≤ t.completed ∧ t.completed ≤ t.written.length ∧
    LegalTrace es ∧
    (s.pipe.c = none ↔ t.asleep = true) ∧
    (s.step .read).2 = some (.gave
      (if t.delivered.length < t.covered then t.written[t.delivered.length]? else none)) := by
  obtain ⟨hleg, u, hrep, hdesc, -⟩ := yrun_inv mem labels
  have hcov := hdesc.covered_eq
  have hcomp := hdesc.completed_eq
  have hlen := hdesc.length_written
  refine ⟨⟨u.items, hdesc.written_eq.symm⟩, by omega, by omega, by omega, hleg, ?_, ?_⟩
  · rw [hrep.c_eq, hdesc.asleep_eq]
    cases u.asleep <;> simp
  obtain ⟨hl, -⟩ := hdesc.read
  simp only [YSystem.step, hrep.read.1]
  cases hr : u.read.1 with
  | none =>
    rw [hr] at hl
    rw [if_neg (by simpa [Tally.Legal] using hl.ge)]
  | some v =>
    rw [hr] at hl
    rw [if_pos hl.1, hl.2]

end Zmq
