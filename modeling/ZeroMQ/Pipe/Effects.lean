import ZeroMQ.Pipe.Model

/-!
# What an operation of a pipe end does

Every operation is described once, for links whose two lock-free pipes at the near end are alive:
the results below list all outcomes of an operation with the conditions they occur under, and the
invariants of the later files are read off them instead of off the definitions.
-/

namespace Zmq

namespace Link

variable {s : Link}

/-! ### The small operations -/

@[simp] lemma swap_swap (s : Link) : s.swap.swap = s := rfl

@[simp] lemma swap_near (s : Link) : s.swap.near = s.far := rfl

@[simp] lemma swap_far (s : Link) : s.swap.far = s.near := rfl

@[simp] lemma swap_upipes (s : Link) : s.swap.upipes = s.upipes := rfl

@[simp] lemma swap_fresh (s : Link) : s.swap.fresh = s.fresh := rfl

@[simp] lemma modifyPipe_near (s : Link) (g : Pipe → Pipe) :
    (s.modifyPipe g).near = { s.near with pipe := g s.near.pipe } := rfl

@[simp] lemma modifyPipe_far (s : Link) (g : Pipe → Pipe) : (s.modifyPipe g).far = s.far := rfl

@[simp] lemma modifyPipe_upipes (s : Link) (g : Pipe → Pipe) : (s.modifyPipe g).upipes = s.upipes := rfl

@[simp] lemma modifyPipe_fresh (s : Link) (g : Pipe → Pipe) : (s.modifyPipe g).fresh = s.fresh := rfl

@[simp] lemma send_near (s : Link) (c : Command) : (s.send c).near = s.near := rfl

@[simp] lemma send_far (s : Link) (c : Command) :
    (s.send c).far = { s.far with inbox := s.far.inbox ++ [c] } := rfl

@[simp] lemma send_upipes (s : Link) (c : Command) : (s.send c).upipes = s.upipes := rfl

@[simp] lemma send_fresh (s : Link) (c : Command) : (s.send c).fresh = s.fresh := rfl

@[simp] lemma store_near (s : Link) (i : ℕ) (u : Upipe Msg) : (s.store i u).near = s.near := rfl

@[simp] lemma store_far (s : Link) (i : ℕ) (u : Upipe Msg) : (s.store i u).far = s.far := rfl

@[simp] lemma store_fresh (s : Link) (i : ℕ) (u : Upipe Msg) : (s.store i u).fresh = s.fresh := rfl

@[simp] lemma free_near (s : Link) (i : ℕ) : (s.free i).near = s.near := rfl

@[simp] lemma free_far (s : Link) (i : ℕ) : (s.free i).far = s.far := rfl

@[simp] lemma free_fresh (s : Link) (i : ℕ) : (s.free i).fresh = s.fresh := rfl

@[simp] lemma store_queue_self (s : Link) (i : ℕ) (u : Upipe Msg) : ((s.store i u).upipes i).queue = u := by
  simp [store]

lemma store_queue_of_ne (s : Link) {i j : ℕ} (h : j ≠ i) (u : Upipe Msg) :
    (s.store i u).upipes j = s.upipes j := by
  simp [store, Function.update_of_ne h]

@[simp] lemma store_frees (s : Link) (i j : ℕ) (u : Upipe Msg) :
    ((s.store i u).upipes j).frees = (s.upipes j).frees := by
  by_cases h : j = i
  · subst h; simp [store]
  · rw [store_queue_of_ne s h]

lemma free_frees (s : Link) (i j : ℕ) :
    ((s.free i).upipes j).frees = (s.upipes j).frees + if j = i then 1 else 0 := by
  by_cases h : j = i
  · subst h; simp [free]
  · simp [free, h]

@[simp] lemma free_queue (s : Link) (i j : ℕ) : ((s.free i).upipes j).queue = (s.upipes j).queue := by
  by_cases h : j = i
  · subst h; simp [free]
  · simp [free, Function.update_of_ne h]

lemma load_of_live {i : ℕ} (h : (s.upipes i).frees = 0) : s.load i = .ok (s.upipes i).queue := if_pos h

/-! ### Calls of the owner -/

lemma checkRead_cases (hlive : (s.upipes s.near.pipe.inpipe).frees = 0) :
    let i := s.near.pipe.inpipe
    let u := (s.upipes i).queue
    (canRead s.near.pipe = false ∧ s.checkRead = .ok (false, s)) ∨
    (canRead s.near.pipe = true ∧ u.flushed = [] ∧
      s.checkRead = .ok (false, (s.store i { u with flushed := [], asleep := true }).deactivateIn)) ∨
    (canRead s.near.pipe = true ∧ ∃ m ms, u.flushed = m :: ms ∧ m.isDelimiter = true ∧
      s.checkRead = ((s.store i { u with flushed := ms }).processDelimiter).map (false, ·)) ∨
    (canRead s.near.pipe = true ∧ ∃ m ms, u.flushed = m :: ms ∧ m.isDelimiter = false ∧
      s.checkRead = .ok (true, s.store i u)) := by
  intro i u
  cases hcan : canRead s.near.pipe with
  | false =>
    refine .inl ⟨rfl, ?_⟩
    simp only [checkRead, hcan, Bool.not_false, ↓reduceIte]
    rfl
  | true =>
    refine .inr ?_
    cases hfl : u.flushed with
    | nil =>
      refine .inl ⟨rfl, rfl, ?_⟩
      have h1 : (s.upipes s.near.pipe.inpipe).queue.checkRead = _ := Upipe.checkRead_of_nil hfl
      have h3 : (s.upipes s.near.pipe.inpipe).queue.flushed = [] := hfl
      simp only [checkRead, hcan, load_of_live hlive, bind, Except.bind, h1, h3]
      rfl
    | cons m ms =>
      refine .inr ?_
      have h1 : (s.upipes s.near.pipe.inpipe).queue.checkRead = _ := Upipe.checkRead_of_cons hfl
      have h2 : (s.upipes s.near.pipe.inpipe).queue.read = _ := Upipe.read_of_cons hfl
      have h3 : (s.upipes s.near.pipe.inpipe).queue.flushed = m :: ms := hfl
      cases hd : m.isDelimiter with
      | true =>
        refine .inl ⟨rfl, m, ms, rfl, hd, ?_⟩
        simp only [checkRead, hcan, load_of_live hlive, bind, Except.bind, h1, h2, h3,
          List.head?_cons, hd, ↓reduceIte]
        cases processDelimiter _ <;> rfl
      | false =>
        refine .inr ⟨rfl, m, ms, rfl, hd, ?_⟩
        simp only [checkRead, hcan, load_of_live hlive, bind, Except.bind, h1, h3, List.head?_cons, hd]
        rfl

/-- What `read` can do: nothing, find the pipe empty behind the credentials, meet the delimiter, or
return a frame. -/
lemma read_cases (hlive : (s.upipes s.near.pipe.inpipe).frees = 0) :
    let i := s.near.pipe.inpipe
    let u := (s.upipes i).queue
    let k := skipCredentials s.near.pipe.credential u.flushed
    let t := s.modifyPipe fun p => { p with credential := k.1 }
    (canRead s.near.pipe = false ∧ s.read = .ok (none, s)) ∨
    (canRead s.near.pipe = true ∧ k.2 = [] ∧
      s.read = .ok (none, (t.store i { u with flushed := [], asleep := true }).deactivateIn)) ∨
    (canRead s.near.pipe = true ∧ ∃ m ms, k.2 = m :: ms ∧ m.isDelimiter = true ∧
      s.read = ((t.store i { u with flushed := ms }).processDelimiter).map (none, ·)) ∨
    (canRead s.near.pipe = true ∧ ∃ m ms, k.2 = m :: ms ∧ m.isDelimiter = false ∧
      s.read = .ok (some m, (t.store i { u with flushed := ms }).countRead m)) := by
  intro i u k t
  cases hcan : canRead s.near.pipe with
  | false =>
    refine .inl ⟨rfl, ?_⟩
    simp only [read, hcan, Bool.not_false, ↓reduceIte]
    rfl
  | true =>
    refine .inr ?_
    cases hk : k.2 with
    | nil =>
      refine .inl ⟨rfl, rfl, ?_⟩
      simp only [read, hcan, load_of_live hlive, bind, Except.bind]
      simp only [k, u, i] at hk
      simp only [hk, Upipe.read]
      rfl
    | cons m ms =>
      refine .inr ?_
      cases hd : m.isDelimiter with
      | true =>
        refine .inl ⟨rfl, m, ms, rfl, hd, ?_⟩
        simp only [read, hcan, load_of_live hlive, bind, Except.bind]
        simp only [k, u, i] at hk
        simp only [hk, Upipe.read, hd]
        cases processDelimiter _ <;> rfl
      | false =>
        refine .inr ⟨rfl, m, ms, rfl, hd, ?_⟩
        simp only [read, hcan, load_of_live hlive, bind, Except.bind]
        simp only [k, u, i] at hk
        simp only [hk, Upipe.read, hd]
        rfl

lemma checkWrite_cases (s : Link) :
    ((s.near.pipe.outActive = false ∨ s.near.pipe.state ≠ .active) ∧ s.checkWrite = (false, s)) ∨
    (s.near.pipe.outActive = true ∧ s.near.pipe.state = .active ∧ full s.near.pipe = true ∧
      s.checkWrite = (false, s.modifyPipe fun p => { p with outActive := false })) ∨
    (s.near.pipe.outActive = true ∧ s.near.pipe.state = .active ∧ full s.near.pipe = false ∧
      s.checkWrite = (true, s)) := by
  unfold checkWrite
  cases ho : s.near.pipe.outActive with
  | false => exact .inl ⟨.inl rfl, by simp⟩
  | true =>
    by_cases hst : s.near.pipe.state = .active
    · cases hf : full s.near.pipe with
      | true => exact .inr (.inl ⟨rfl, hst, rfl, by simp [hst]⟩)
      | false => exact .inr (.inr ⟨rfl, hst, rfl, by simp [hst]⟩)
    · exact .inl ⟨.inr hst, by simp [hst]⟩

/-- The counter a written frame moves. -/
def countWrite (s : Link) (m : Msg) : Link :=
  if !m.more && !m.isIdentity then s.modifyPipe fun p => { p with msgsWritten := p.msgsWritten + 1 }
  else s

/-- What a frame adds to the counters `msgs_read` and `msgs_written`. -/
def counted (m : Msg) : ℕ := if !m.more && !m.isIdentity then 1 else 0

lemma countWrite_eq (s : Link) (m : Msg) : s.countWrite m =
    s.modifyPipe fun p => { p with msgsWritten := p.msgsWritten + counted m } := by
  unfold countWrite counted
  split <;> rfl

lemma countRead_eq (s : Link) (m : Msg) : s.countRead m =
    let n := s.near.pipe.msgsRead + counted m
    let t := s.modifyPipe fun p => { p with msgsRead := n }
    if s.near.pipe.lwm > 0 ∧ n % s.near.pipe.lwm.toNat = 0 then t.send (.activateWrite n)
    else t := by
  unfold countRead counted
  split <;> rfl

lemma write_of_checkWrite {i : ℕ} (m : Msg) (hcheck : s.checkWrite = (true, s))
    (hout : s.near.pipe.outpipe = some i) (hlive : (s.upipes i).frees = 0) :
    s.write m = .ok (true, (s.store i ((s.upipes i).queue.write m m.more)).countWrite m) := by
  simp only [write, hcheck, hout, load_of_live hlive, bind, Except.bind, countWrite]
  split <;> rfl

lemma write_of_not_checkWrite {t : Link} (m : Msg) (hcheck : s.checkWrite = (false, t)) :
    s.write m = .ok (false, t) := by
  simp only [write, hcheck]

lemma flush_of_live {i : ℕ} (hst : s.near.pipe.state ≠ .termAckSent)
    (hout : s.near.pipe.outpipe = some i) (hlive : (s.upipes i).frees = 0) :
    s.flush = .ok (if (s.upipes i).queue.flush.1 then s.store i (s.upipes i).queue.flush.2
      else (s.store i (s.upipes i).queue.flush.2).send .activateRead) := by
  simp only [flush, if_neg hst, hout, load_of_live hlive, bind, Except.bind]
  split <;> rfl

lemma flush_of_none (hout : s.near.pipe.outpipe = none) : s.flush = .ok s := by
  unfold flush
  split
  · rfl
  · rw [hout]

lemma rollback_of_live {i : ℕ} (hout : s.near.pipe.outpipe = some i)
    (hlive : (s.upipes i).frees = 0) (hmore : (s.upipes i).queue.incomplete.all Msg.more = true) :
    s.rollback = .ok (s.store i { (s.upipes i).queue with incomplete := [] }) := by
  simp only [rollback, hout, load_of_live hlive, bind, Except.bind, hmore, ↓reduceIte]
  rfl

lemma rollback_of_none (hout : s.near.pipe.outpipe = none) : s.rollback = .ok s := by
  rw [rollback, hout]

/-- The pipe after the delimiter was written behind its complete items and everything flushed. -/
def closeOutbound (u : Upipe Msg) : Upipe Msg :=
  { flushed := u.flushed ++ u.complete ++ [Msg.initDelimiter], complete := [], incomplete := [],
    asleep := false }

lemma stopOutbound_of_live {i : ℕ} (hst : s.near.pipe.state ≠ .termAckSent)
    (hout : s.near.pipe.outpipe = some i) (hlive : (s.upipes i).frees = 0)
    (hmore : (s.upipes i).queue.incomplete.all Msg.more = true) :
    let t := (s.store i (closeOutbound (s.upipes i).queue)).modifyPipe fun p => { p with outActive := false }
    s.stopOutbound = .ok (if (s.upipes i).queue.asleep then t.send .activateRead else t) := by
  intro t
  have h1 : (s.modifyPipe fun p => { p with outActive := false }).rollback = _ :=
    rollback_of_live (i := i) hout hlive hmore
  have hcomp : ({ (s.upipes i).queue with incomplete := [] } : Upipe Msg).write
      Msg.initDelimiter false = ⟨(s.upipes i).queue.flushed,
        (s.upipes i).queue.complete ++ [Msg.initDelimiter], [], (s.upipes i).queue.asleep⟩ := by
    simp [Upipe.write]
  simp only [stopOutbound, modifyPipe_near, hout, h1, bind, Except.bind]
  rw [load_of_live (by simpa using hlive)]
  simp only [store_queue_self, modifyPipe_upipes, hcomp]
  rw [flush_of_live (i := i) (by simpa using hst) (by simpa using hout) (by simpa using hlive)]
  simp only [store_queue_self, Upipe.flush_of_ne_nil (u := ⟨_, _ ++ [Msg.initDelimiter], _, _⟩) (by simp)]
  have hst2 : ∀ u v w : Upipe Msg, ((((s.modifyPipe fun p => { p with outActive := false }).store i
      u).store i v).store i w) =
      (s.store i w).modifyPipe fun p => { p with outActive := false } := by
    intro u v w
    simp [store, modifyPipe]
  simp only [hst2]
  have hclose : (⟨(s.upipes i).queue.flushed ++ ((s.upipes i).queue.complete ++
      [Msg.initDelimiter]), [], [], false⟩ : Upipe Msg) = closeOutbound (s.upipes i).queue := by
    simp [closeOutbound]
  rw [hclose]
  cases (s.upipes i).queue.asleep <;> rfl

lemma stopOutbound_of_none (hout : s.near.pipe.outpipe = none) :
    s.stopOutbound = .ok (s.modifyPipe fun p => { p with outActive := false }) := by
  simp only [stopOutbound, modifyPipe_near, hout]
  rfl

end Link

end Zmq
