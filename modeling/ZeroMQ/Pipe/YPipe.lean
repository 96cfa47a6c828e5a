import Mathlib.Data.List.Infix
import Mathlib.Tactic.Ring

/-!
# The lock-free pipe `ypipe_t`

`ypipe_t` is a queue between one writer and one reader whose only shared variable is the atomic
pointer `c`. The queue itself is `yqueue_t`; a pointer to one of its elements is modelled by the
position of that element in the stream of all elements ever pushed, so that two live elements have
different pointers. What a freshly allocated element holds is not initialised: the initial memory
is an arbitrary function.

Every operation is given as the source computes it. `flush` touches `c` twice when the reader is
asleep, so it is split at the compare-and-swap: `flushCas` is the part up to and including it and
`flushSet` the rest.

`Upipe` is what the pipe is for: a first-in first-out queue in three segments (readable, complete but
not yet flushed, incomplete) with a flag that the reader sleeps. `YPipe.Represents` relates the two
and every operation of `YPipe` is shown to simulate the operation of `Upipe` of the same name.
-/

namespace Zmq

open Function List Nat

variable {α : Type}

/-! ### The queue -/

/-- `yqueue_t`: the cells by position, with the positions of the front, of the back and of the end. -/
structure YQueue (α : Type) where
  /-- What the cell at a position holds. -/
  values : ℕ → α
  /-- Position of the front element, moved by the reader. -/
  beginPos : ℕ
  /-- Position of the back element, moved by the writer. -/
  backPos : ℕ
  /-- Position behind the back element. -/
  endPos : ℕ

/-- The queue before anything is pushed, over memory that holds `mem`. -/
def YQueue.init (mem : ℕ → α) : YQueue α := ⟨mem, 0, 0, 0⟩

/-- `yqueue_t::front`. -/
def YQueue.front (q : YQueue α) : α := q.values q.beginPos

/-- `yqueue_t::back` as a value. -/
def YQueue.back (q : YQueue α) : α := q.values q.backPos

/-- The assignment `queue.back () = value_`. -/
def YQueue.setBack (q : YQueue α) (v : α) : YQueue α := { q with values := update q.values q.backPos v }

/-- `yqueue_t::push`. -/
def YQueue.push (q : YQueue α) : YQueue α := { q with backPos := q.endPos, endPos := q.endPos + 1 }

/-- `yqueue_t::unpush`. -/
def YQueue.unpush (q : YQueue α) : YQueue α := { q with backPos := q.backPos - 1, endPos := q.endPos - 1 }

/-- `yqueue_t::pop`. -/
def YQueue.pop (q : YQueue α) : YQueue α := { q with beginPos := q.beginPos + 1 }

/-! ### The pipe -/

/-- `atomic_ptr_t::cas`: the old value and the new one. -/
def atomicCas (ptr cmp val : Option ℕ) : Option ℕ × Option ℕ := (ptr, if ptr = cmp then val else ptr)

/-- `ypipe_t`. -/
structure YPipe (α : Type) where
  queue : YQueue α
  /-- The first un-flushed item; the writer's. -/
  w : ℕ
  /-- The first un-prefetched item; the reader's. -/
  r : Option ℕ
  /-- The first item to be flushed in the future; the writer's. -/
  f : ℕ
  /-- Points past the last flushed item; NULL when the reader is asleep. -/
  c : Option ℕ

namespace YPipe

/-- The constructor: push the terminator element and point everything at it. -/
def init (mem : ℕ → α) : YPipe α :=
  let queue := (YQueue.init mem).push
  ⟨queue, queue.backPos, some queue.backPos, queue.backPos, some queue.backPos⟩

/-- `ypipe_t::write`. -/
def write (p : YPipe α) (value : α) (incomplete : Bool) : YPipe α :=
  let queue := (p.queue.setBack value).push
  { p with queue := queue, f := if incomplete then p.f else queue.backPos }

/-- `ypipe_t::unwrite`: the value taken back, or `none` when the call returns false. -/
def unwrite (p : YPipe α) : Option α × YPipe α :=
  if p.f = p.queue.backPos then (none, p)
  else
    let queue := p.queue.unpush
    (some queue.back, { p with queue := queue })

/-- `ypipe_t::flush` up to the compare-and-swap. `some b` is a return of `b`; `none` means that the
reader was found asleep and `c.set` is still to come. -/
def flushCas (p : YPipe α) : Option Bool × YPipe α :=
  if p.w = p.f then (some true, p)
  else
    let (old, new) := atomicCas p.c (some p.w) (some p.f)
    if old ≠ some p.w then (none, { p with c := new })
    else (some true, { p with c := new, w := p.f })

/-- The rest of `ypipe_t::flush` after a failed compare-and-swap; it returns false. -/
def flushSet (p : YPipe α) : YPipe α := { p with c := some p.f, w := p.f }

/-- `ypipe_t::flush` when nothing happens between its two accesses to `c`. -/
def flush (p : YPipe α) : Bool × YPipe α :=
  match p.flushCas with
  | (some b, p') => (b, p')
  | (none, p') => (false, p'.flushSet)

/-- `ypipe_t::check_read`. -/
def checkRead (p : YPipe α) : Bool × YPipe α :=
  if some p.queue.beginPos ≠ p.r ∧ p.r ≠ none then (true, p)
  else
    let (old, new) := atomicCas p.c (some p.queue.beginPos) none
    let p' := { p with r := old, c := new }
    if some p.queue.beginPos = old ∨ old = none then (false, p') else (true, p')

/-- `ypipe_t::read`: the value, or `none` when the call returns false. -/
def read (p : YPipe α) : Option α × YPipe α :=
  match p.checkRead with
  | (false, p') => (none, p')
  | (true, p') => (some p'.queue.front, { p' with queue := p'.queue.pop })

end YPipe

/-! ### What the pipe is for -/

/-- A first-in first-out queue between a writer and a reader. -/
structure Upipe (α : Type) where
  /-- Items the reader can read. -/
  flushed : List α
  /-- Items that are complete but not flushed. -/
  complete : List α
  /-- Items written after the last complete one. -/
  incomplete : List α
  /-- The reader found nothing to read and expects to be woken up. -/
  asleep : Bool
  deriving DecidableEq

namespace Upipe

/-- The pipe a constructor makes: nothing in it, the reader awake. -/
def empty : Upipe α := ⟨[], [], [], false⟩

/-- All items of the pipe, in order. -/
def items (u : Upipe α) : List α := u.flushed ++ u.complete ++ u.incomplete

/-- Add an item; a complete one completes everything before it. -/
def write (u : Upipe α) (value : α) (incomplete : Bool) : Upipe α :=
  if incomplete then { u with incomplete := u.incomplete ++ [value] }
  else { u with complete := u.complete ++ u.incomplete ++ [value], incomplete := [] }

/-- Take back the last incomplete item. -/
def unwrite (u : Upipe α) : Option α × Upipe α :=
  (u.incomplete.getLast?, { u with incomplete := u.incomplete.dropLast })

/-- Hand the complete items to the reader. The result is false when there were such items and the
reader was asleep. -/
def flush (u : Upipe α) : Bool × Upipe α :=
  if u.complete = [] then (true, u)
  else (!u.asleep, { u with flushed := u.flushed ++ u.complete, complete := [], asleep := false })

/-- Is there an item to read? If not, the reader goes to sleep. -/
def checkRead (u : Upipe α) : Bool × Upipe α :=
  match u.flushed with
  | [] => (false, { u with asleep := true })
  | _ :: _ => (true, u)

/-- Read an item. If there is none, the reader goes to sleep. -/
def read (u : Upipe α) : Option α × Upipe α :=
  match u.flushed with
  | [] => (none, { u with asleep := true })
  | v :: vs => (some v, { u with flushed := vs })

lemma checkRead_of_nil {u : Upipe α} (h : u.flushed = []) : u.checkRead = (false, { u with asleep := true }) := by
  simp [checkRead, h]

lemma checkRead_of_cons {u : Upipe α} {v : α} {vs : List α} (h : u.flushed = v :: vs) :
    u.checkRead = (true, u) := by
  simp [checkRead, h]

lemma read_of_nil {u : Upipe α} (h : u.flushed = []) : u.read = (none, { u with asleep := true }) := by
  simp [read, h]

lemma read_of_cons {u : Upipe α} {v : α} {vs : List α} (h : u.flushed = v :: vs) :
    u.read = (some v, { u with flushed := vs }) := by
  simp [read, h]

lemma flush_of_nil {u : Upipe α} (h : u.complete = []) : u.flush = (true, u) := if_pos h

lemma flush_of_ne_nil {u : Upipe α} (h : u.complete ≠ []) :
    u.flush = (!u.asleep, { u with flushed := u.flushed ++ u.complete, complete := [], asleep := false }) :=
  if_neg h

lemma items_write (u : Upipe α) (v : α) (b : Bool) : (u.write v b).items = u.items ++ [v] := by
  cases b <;> simp [write, items]

lemma items_flush (u : Upipe α) : u.flush.2.items = u.items := by
  unfold flush
  split <;> simp [items]

end Upipe

/-! ### Simulation -/

/-- The pointers of the pipe delimit the three segments of the queue, and `c` is NULL exactly when
the reader sleeps. -/
structure YPipe.Represents (p : YPipe α) (u : Upipe α) : Prop where
  w_eq : p.w = p.queue.beginPos + u.flushed.length
  f_eq : p.f = p.w + u.complete.length
  back_eq : p.queue.backPos = p.f + u.incomplete.length
  end_eq : p.queue.endPos = p.queue.backPos + 1
  /-- The cells from the front up to the terminator hold the items. -/
  values_eq : ∀ i v, u.items[i]? = some v → p.queue.values (p.queue.beginPos + i) = v
  c_eq : p.c = if u.asleep then none else some p.w
  asleep_flushed : u.asleep = true → u.flushed = []
  /-- What was prefetched lies between the front and the last flushed item. -/
  r_le : ∀ k, p.r = some k → p.queue.beginPos ≤ k ∧ k ≤ p.w

namespace YPipe.Represents

variable {p : YPipe α} {u : Upipe α}

lemma init (mem : ℕ → α) : (YPipe.init mem).Represents Upipe.empty := by
  constructor <;> simp [YPipe.init, YQueue.init, YQueue.push, Upipe.empty, Upipe.items]

section

variable (h : p.Represents u)

include h

lemma back_eq_length : p.queue.backPos = p.queue.beginPos + u.items.length := by
  have := h.w_eq
  have := h.f_eq
  have := h.back_eq
  simp only [Upipe.items, length_append]
  omega

lemma write (v : α) (b : Bool) : (p.write v b).Represents (u.write v b) := by
  have hback := h.back_eq_length
  have hend := h.end_eq
  have hvalues : ∀ i x, (u.write v b).items[i]? = some x →
      (p.write v b).queue.values (p.queue.beginPos + i) = x := by
    intro i x hx
    rw [Upipe.items_write, List.getElem?_append] at hx
    change update p.queue.values p.queue.backPos v (p.queue.beginPos + i) = x
    split at hx
    · rw [update_of_ne (by omega)]
      exact h.values_eq i x hx
    obtain ⟨hi, hx⟩ := List.getElem?_eq_some_iff.mp hx
    simp only [List.length_singleton] at hi
    rw [show p.queue.beginPos + i = p.queue.backPos by omega, update_self]
    simpa using hx
  have hw := h.w_eq
  have hf := h.f_eq
  have hb := h.back_eq
  cases b
  · refine ⟨hw, ?_, ?_, rfl, hvalues, h.c_eq, h.asleep_flushed, h.r_le⟩
    · simp [YPipe.write, YQueue.setBack, YQueue.push, Upipe.write]
      omega
    · simp [YPipe.write, Upipe.write]
  · refine ⟨hw, hf, ?_, rfl, hvalues, h.c_eq, h.asleep_flushed, h.r_le⟩
    simp [YPipe.write, YQueue.setBack, YQueue.push, Upipe.write]
    omega

lemma unwrite : p.unwrite.1 = u.unwrite.1 ∧ p.unwrite.2.Represents u.unwrite.2 := by
  have hb := h.back_eq
  have hlen := h.back_eq_length
  unfold YPipe.unwrite Upipe.unwrite
  rcases List.eq_nil_or_concat u.incomplete with hnil | ⟨l, v, hl⟩
  · rw [hnil, List.length_nil, add_zero] at hb
    rw [if_pos hb.symm, hnil]
    refine ⟨rfl, ?_⟩
    rw [List.dropLast_nil, ← hnil]
    exact h
  · rw [hl, List.concat_eq_append, List.length_append, List.length_singleton] at hb
    have hend := h.end_eq
    rw [if_neg (by omega), hl, List.concat_eq_append]
    -- the item taken back sits in the cell the back pointer moves to
    have hitems : u.items = u.flushed ++ u.complete ++ l ++ [v] := by
      rw [Upipe.items, hl, List.concat_eq_append, List.append_assoc _ l]
    have hback : p.queue.backPos - 1 = p.queue.beginPos + (u.flushed ++ u.complete ++ l).length := by
      rw [hlen, hitems, List.length_append, List.length_singleton]
      omega
    refine ⟨?_, h.w_eq, h.f_eq, ?_, ?_, ?_, h.c_eq, h.asleep_flushed, h.r_le⟩
    · have := h.values_eq (u.flushed ++ u.complete ++ l).length v (by simp [hitems])
      simp only [YQueue.unpush, YQueue.back, hback, this, List.getLast?_append,
        List.getLast?_singleton, Option.some_or]
    · simp only [YQueue.unpush, List.dropLast_concat]
      omega
    · simp only [YQueue.unpush]
      omega
    · intro i x hx
      refine h.values_eq i x ?_
      simp only [Upipe.items, List.dropLast_concat] at hx
      rw [hitems, List.getElem?_append_left (List.getElem?_eq_some_iff.mp hx).1, hx]

lemma flushCas_of_nil (hc : u.complete = []) : p.flushCas = (some true, p) := by
  have hf := h.f_eq
  rw [hc, length_nil, add_zero] at hf
  rw [YPipe.flushCas, if_pos hf.symm]

lemma flushCas_of_asleep (hc : u.complete ≠ []) (ha : u.asleep = true) : p.flushCas = (none, p) := by
  have hf := h.f_eq
  have hpos := length_pos_iff.mpr hc
  have hcn : p.c = none := by rw [h.c_eq, ha, if_pos rfl]
  unfold YPipe.flushCas atomicCas
  rw [if_neg (by omega), hcn]
  simp only [ne_eq, reduceCtorEq, not_false_eq_true, ↓reduceIte]
  rw [← hcn]

lemma flushCas_of_awake (hc : u.complete ≠ []) (ha : u.asleep = false) :
    p.flushCas = (some true, p.flushSet) := by
  have hf := h.f_eq
  have hpos := length_pos_iff.mpr hc
  have hcw : p.c = some p.w := by rw [h.c_eq, ha]; rfl
  unfold YPipe.flushCas atomicCas
  rw [if_neg (by omega)]
  simp [hcw, YPipe.flushSet]

lemma flushSet (hc : u.complete ≠ []) : p.flushSet.Represents u.flush.2 := by
  have hw := h.w_eq
  have hf := h.f_eq
  have hb := h.back_eq
  have hvalues : ∀ i v, u.flush.2.items[i]? = some v → p.queue.values (p.queue.beginPos + i) = v := by
    rw [Upipe.items_flush]
    exact h.values_eq
  rw [Upipe.flush_of_ne_nil hc] at hvalues ⊢
  refine ⟨?_, ?_, hb, h.end_eq, hvalues, rfl, ?_, ?_⟩
  · simp only [YPipe.flushSet, length_append]
    omega
  · simp [YPipe.flushSet]
  · simp
  · intro k hk
    have := h.r_le k hk
    simp only [YPipe.flushSet]
    omega

lemma flush : p.flush.1 = u.flush.1 ∧ p.flush.2.Represents u.flush.2 := by
  by_cases hc : u.complete = []
  · rw [YPipe.flush, h.flushCas_of_nil hc, Upipe.flush_of_nil hc]
    exact ⟨rfl, h⟩
  have hres : u.flush.1 = !u.asleep := by rw [Upipe.flush_of_ne_nil hc]
  cases ha : u.asleep with
  | true =>
    rw [YPipe.flush, h.flushCas_of_asleep hc ha, hres, ha]
    exact ⟨rfl, h.flushSet hc⟩
  | false =>
    rw [YPipe.flush, h.flushCas_of_awake hc ha, hres, ha]
    exact ⟨rfl, h.flushSet hc⟩

lemma checkRead : p.checkRead.1 = u.checkRead.1 ∧ p.checkRead.2.Represents u.checkRead.2 := by
  have hw := h.w_eq
  unfold YPipe.checkRead
  split
  next hpre =>
    -- something was prefetched, so there is something to read
    obtain ⟨hne, hr⟩ := hpre
    obtain ⟨k, hk⟩ := Option.ne_none_iff_exists'.mp hr
    have hle := h.r_le k hk
    rw [hk] at hne
    have hlt : p.queue.beginPos ≠ k := fun e => hne (by rw [e])
    cases hfl : u.flushed with
    | nil => rw [hfl, length_nil] at hw; omega
    | cons v vs =>
      rw [Upipe.checkRead_of_cons hfl]
      exact ⟨rfl, h⟩
  cases hfl : u.flushed with
  | nil =>
    rw [hfl, length_nil, add_zero] at hw
    rw [Upipe.checkRead_of_nil hfl]
    cases ha : u.asleep with
    | true =>
      have hc : p.c = none := by rw [h.c_eq, ha]; rfl
      simp only [atomicCas, hc, reduceCtorEq, or_true, ↓reduceIte]
      refine ⟨trivial, ?_⟩
      refine ⟨by simp [hfl, hw], h.f_eq, h.back_eq, h.end_eq, h.values_eq, by simp, ?_, ?_⟩
      · exact fun _ => hfl
      · simp
    | false =>
      have hc : p.c = some p.w := by rw [h.c_eq, ha]; rfl
      simp only [atomicCas, hc, hw, ↓reduceIte, true_or]
      refine ⟨trivial, ?_⟩
      refine ⟨by simp [hfl], by simpa [hw] using h.f_eq, h.back_eq, h.end_eq,
        h.values_eq, by simp, fun _ => hfl, ?_⟩
      intro k hk
      have : p.queue.beginPos = k := by simpa using hk
      simp only
      omega
  | cons v vs =>
    rw [hfl, length_cons] at hw
    have ha : u.asleep = false := by
      cases ha : u.asleep with
      | false => rfl
      | true => rw [h.asleep_flushed ha] at hfl; simp at hfl
    have hc : p.c = some p.w := by rw [h.c_eq, ha]; rfl
    have hne : some p.w ≠ some p.queue.beginPos := by simp only [ne_eq, Option.some.injEq]; omega
    have hold : ¬(some p.queue.beginPos = some p.w ∨ some p.w = none) := by
      rintro (e | e)
      · exact hne e.symm
      · simp at e
    rw [Upipe.checkRead_of_cons hfl]
    simp only [atomicCas, hc, if_neg hne, if_neg hold]
    refine ⟨trivial, ?_⟩
    refine ⟨h.w_eq, h.f_eq, h.back_eq, h.end_eq, h.values_eq, by simp [ha], h.asleep_flushed, ?_⟩
    intro k hk
    have : p.w = k := by simpa using hk
    simp only
    omega

end

lemma r_ne_of_checkRead (hres : p.checkRead.1 = true) : p.checkRead.2.r ≠ some p.checkRead.2.queue.beginPos := by
  by_cases hpre : some p.queue.beginPos ≠ p.r ∧ p.r ≠ none
  · rw [YPipe.checkRead, if_pos hpre]
    exact fun e => hpre.1 e.symm
  by_cases hold : some p.queue.beginPos = p.c ∨ p.c = none
  · simp [YPipe.checkRead, atomicCas, if_neg hpre, hold] at hres
  · simp only [YPipe.checkRead, atomicCas, if_neg hpre]
    intro e
    exact hold (.inl (by simpa [hold] using e.symm))

lemma read (h : p.Represents u) : p.read.1 = u.read.1 ∧ p.read.2.Represents u.read.2 := by
  obtain ⟨hres, hrep⟩ := h.checkRead
  have hp : p.checkRead = (u.checkRead.1, p.checkRead.2) := by rw [← hres]
  rw [YPipe.read, hp]
  cases hfl : u.flushed with
  | nil =>
    rw [Upipe.checkRead_of_nil hfl] at hrep ⊢
    rw [Upipe.read_of_nil hfl]
    exact ⟨rfl, hrep⟩
  | cons v vs =>
    have hc := Upipe.checkRead_of_cons hfl
    rw [hc] at hrep ⊢
    rw [Upipe.read_of_cons hfl]
    have hitems : u.items = v :: { u with flushed := vs }.items := by
      simp [Upipe.items, hfl]
    have hw := hrep.w_eq
    rw [hfl, length_cons] at hw
    have hfront : p.checkRead.2.queue.front = v := by
      simpa [YQueue.front] using hrep.values_eq 0 v (by rw [hitems]; rfl)
    refine ⟨congrArg some hfront, ?_, hrep.f_eq, hrep.back_eq, hrep.end_eq, ?_, hrep.c_eq, ?_, ?_⟩
    · simp only [YQueue.pop]
      omega
    · intro i x hx
      have := hrep.values_eq (i + 1) x (by rw [hitems]; exact hx)
      simpa [YQueue.pop, add_assoc, add_comm 1 i] using this
    · intro ha
      have := hrep.asleep_flushed ha
      rw [hfl] at this
      simp at this
    · intro k hk
      have hle := hrep.r_le k hk
      have hne := r_ne_of_checkRead (p := p) (by rw [hres, hc])
      rw [hk] at hne
      have : k ≠ p.checkRead.2.queue.beginPos := fun e => hne (by rw [e])
      simp only [YQueue.pop]
      omega

end YPipe.Represents

end Zmq
