import ZeroMQ.Codec.Wire

/-!
# Encoding messages

`encoder_base_t` writes a message in two steps, the header from `tmpbuf` and the body from the message
itself. A call of `encode` fills a buffer, the caller's or its own; when it would fill its own buffer
from one place it hands out that place instead of copying.

`Encoder.pending` is what is still to be written of the message in progress. Every call takes its
output from the front of it.
-/

namespace Zmq

open List Except Bool Option

/-- The actions of the encoders. -/
inductive EncoderStep
  | messageReady
  | sizeReady
  deriving DecidableEq, Repr

/-- What can go wrong in an encoder. -/
inductive EncodeFault
  | assertFailed
  | nullPointer
  deriving DecidableEq, Repr

/-- `encoder_base_t`: the bytes from `write_pos` on, `next`, `new_msg_flag` and `in_progress`. -/
structure Encoder where
  toWrite : List UInt8
  next : EncoderStep
  newMsgFlag : Bool
  inProgress : Option Msg
  deriving DecidableEq, Repr

namespace Encoder

/-- The constructor of the encoders. -/
def init : Encoder := ⟨[], .messageReady, true, none⟩

/-- `message_ready` and `size_ready`, called through `next`. A delimiter has neither data nor a
size. -/
def runNext (v : Version) (e : Encoder) : Except EncodeFault Encoder :=
  match e.inProgress with
  | none => .error .nullPointer
  | some m =>
    if m.isDelimiter then .error .assertFailed
    else match e.next with
      | .messageReady =>
        .ok { e with toWrite := header v m, next := .sizeReady, newMsgFlag := false }
      | .sizeReady =>
        .ok { e with toWrite := m.body, next := .messageReady, newMsgFlag := true }

/-- `encoder_base_t::load_msg`. -/
def loadMsg (v : Version) (m : Msg) (e : Encoder) : Except EncodeFault Encoder :=
  if e.inProgress.isSome then .error .assertFailed
  else runNext v { e with inProgress := some m }

variable {e e' : Encoder}

lemma runNext_progress {v : Version} (h : runNext v e = .ok e') :
    e'.toWrite ≠ [] ∨ (e'.newMsgFlag = true ∧ e.next = .sizeReady) := by
  unfold runNext at h
  split at h
  · cases h
  split at h
  · cases h
  · split at h
    · cases h
      exact .inl (header_ne_nil v _)
    next hnext =>
      cases h
      exact .inr ⟨rfl, hnext⟩

/-- The rest of a round of the loop of `encode`, when there may be something to write: hand out the
place, or copy. `out` is the buffer so far. -/
inductive Round
  | done (out : List UInt8) (e : Encoder)
  | again (out : List UInt8) (e : Encoder)

/-- Zero-copy, or a copy to the buffer. -/
def write (own : Bool) (buffersize : ℕ) (out : List UInt8) (e : Encoder) : Round :=
  if out = [] ∧ own ∧ e.toWrite.length ≥ buffersize then .done e.toWrite { e with toWrite := [] }
  else
    let toCopy := min e.toWrite.length (buffersize - out.length)
    .again (out ++ e.toWrite.take toCopy) { e with toWrite := e.toWrite.drop toCopy }

/-- One round of the loop of `encode`. -/
def round (v : Version) (own : Bool) (buffersize : ℕ) (out : List UInt8) (e : Encoder) :
    Except EncodeFault Round :=
  if e.toWrite = [] then
    if e.newMsgFlag then .ok (.done out { e with inProgress := none })
    else
      match runNext v e with
      | .error f => .error f
      | .ok e => .ok (write own buffersize out e)
  else .ok (write own buffersize out e)

/-- How many rounds there can be. -/
def rounds (buffersize : ℕ) (out : List UInt8) (e : Encoder) : ℕ :=
  2 * (buffersize - out.length) + if e.newMsgFlag then 0 else 1

lemma length_of_write {own : Bool} {buffersize : ℕ} {out out' : List UInt8}
    (h : write own buffersize out e = .again out' e') :
    out'.length = out.length + min e.toWrite.length (buffersize - out.length) ∧
      e'.newMsgFlag = e.newMsgFlag := by
  unfold write at h
  split at h
  · cases h
  cases h
  refine ⟨?_, rfl⟩
  rw [length_append, length_take]
  omega

lemma rounds_lt {v : Version} {own : Bool} {buffersize : ℕ} {out out' : List UInt8} (hpos : out.length < buffersize)
    (h : round v own buffersize out e = .ok (.again out' e')) :
    rounds buffersize out' e' < rounds buffersize out e := by
  unfold round at h
  split at h
  · split at h
    · cases h
    next hflag =>
      split at h
      · cases h
      next e1 hrun =>
        obtain ⟨hlen, hflag'⟩ := length_of_write (ok.inj h)
        rcases runNext_progress hrun with hne | ⟨hnew, -⟩
        · have := length_pos_iff.mpr hne
          simp only [rounds, hflag, false_eq_true, ↓reduceIte]
          split <;> omega
        · simp only [rounds, hflag', hnew, hflag, ↓reduceIte, false_eq_true]
          omega
  next hne =>
    obtain ⟨hlen, hflag⟩ := length_of_write (ok.inj h)
    have := length_pos_iff.mpr hne
    simp only [rounds, hflag]
    omega

/-- The loop of `encode`. -/
def encodeLoop (v : Version) (own : Bool) (buffersize : ℕ) (out : List UInt8) (e : Encoder) :
    Except EncodeFault (List UInt8 × Encoder) :=
  if _hpos : out.length < buffersize then
    match _h : round v own buffersize out e with
    | .error f => .error f
    | .ok (.done out e) => .ok (out, e)
    | .ok (.again out e) => encodeLoop v own buffersize out e
  else .ok (out, e)
termination_by rounds buffersize out e
decreasing_by exact rounds_lt _hpos _h

/-- `encoder_base_t::encode`: the bytes that are handed out. `data` is the size of the caller's buffer,
or nothing if the encoder is to provide one. -/
def encode (v : Version) (bufsize : ℕ) (e : Encoder) (data : Option ℕ) :
    Except EncodeFault (List UInt8 × Encoder) :=
  if e.inProgress.isNone then .ok ([], e)
  else encodeLoop v data.isNone (data.getD bufsize) [] e

/-- The engine loads the next message of its queue when the encoder has none. -/
def pull (v : Version) (e : Encoder) (msgs : List Msg) : Except EncodeFault (Encoder × List Msg) :=
  match e.inProgress, msgs with
  | none, m :: msgs => do
    let e ← loadMsg v m e
    return (e, msgs)
  | _, msgs => return (e, msgs)

/-- The calls of an engine that sends the messages of its queue. -/
def transmit (v : Version) (bufsize : ℕ) :
    Encoder → List Msg → List (Option ℕ) → Except EncodeFault (List UInt8 × Encoder × List Msg)
  | e, msgs, [] => return ([], e, msgs)
  | e, msgs, data :: calls => do
    let (e, msgs) ← pull v e msgs
    let (out, e) ← encode v bufsize e data
    let (rest, e, msgs) ← transmit v bufsize e msgs calls
    return (out ++ rest, e, msgs)

/-! ### What is written -/

/-- What is still to be written of the message in progress. -/
def pending (e : Encoder) : List UInt8 :=
  match e.inProgress with
  | none => []
  | some m => e.toWrite ++ if e.newMsgFlag then [] else m.body

/-- The encoder has a message that has a body, and its fields fit together; or it has none. -/
structure WF (e : Encoder) : Prop where
  next_eq : e.next = if e.newMsgFlag then .messageReady else .sizeReady
  idle : e.inProgress = none → e.newMsgFlag = true
  body : ∀ m, e.inProgress = some m → m.isDelimiter = false

/-- The bytes to be written, and one for closing the message. -/
def work (e : Encoder) : ℕ := e.pending.length + if e.inProgress.isSome then 1 else 0

lemma WF.init : WF init := ⟨rfl, fun _ => rfl, fun _ h => by cases h⟩

variable {m : Msg}

lemma WF.loadMsg (h : WF e) (hidle : e.inProgress = none)
    (hm : m.isDelimiter = false) (v : Version) :
    ∃ e', Encoder.loadMsg v m e = .ok e' ∧ WF e' ∧ e'.inProgress = some m ∧
      e'.pending = wire v m := by
  have hnext := h.next_eq
  rw [h.idle hidle, if_pos rfl] at hnext
  refine ⟨⟨header v m, .sizeReady, false, some m⟩, ?_, ⟨rfl, by simp, ?_⟩, rfl, rfl⟩
  · simp only [Encoder.loadMsg, hidle, isSome_none, false_eq_true, ↓reduceIte, runNext,
      hm, hnext]
  · rintro _ ⟨⟩
    exact hm

lemma WF.write (h : WF e) (hbusy : e.inProgress = some m) (own : Bool)
    {buffersize : ℕ} {out : List UInt8} (hpos : out.length < buffersize) :
    ∃ w e', WF e' ∧ w ++ e'.pending = e.pending ∧ e'.inProgress = some m ∧
      (Encoder.write own buffersize out e = .done (out ++ w) e' ∧ w ≠ [] ∨
        Encoder.write own buffersize out e = .again (out ++ w) e') := by
  unfold Encoder.write
  split
  next hzero =>
    refine ⟨e.toWrite, { e with toWrite := [] }, { h with }, ?_, hbusy, .inl ⟨?_, ?_⟩⟩
    · simp only [pending, hbusy, nil_append]
    · rw [hzero.1, nil_append]
    · exact ne_nil_of_length_pos (by omega)
  · obtain ⟨toCopy, htoCopy⟩ : ∃ n, n = min e.toWrite.length (buffersize - out.length) := ⟨_, rfl⟩
    rw [← htoCopy]
    refine ⟨e.toWrite.take toCopy, { e with toWrite := e.toWrite.drop toCopy },
      { h with }, ?_, hbusy, .inr rfl⟩
    simp only [pending, hbusy]
    rw [← append_assoc, take_append_drop]

lemma work_of_pending {w : List UInt8} (hbusy : e.inProgress = some m)
    (hbusy' : e'.inProgress = some m) (h : w ++ e'.pending = e.pending) :
    e'.work + w.length = e.work := by
  have := congrArg List.length h
  rw [length_append] at this
  simp only [work, hbusy, hbusy']
  omega

lemma WF.round (h : WF e) (hbusy : e.inProgress = some m) (v : Version)
    (own : Bool) {buffersize : ℕ} {out : List UInt8} (hpos : out.length < buffersize) :
    ∃ w e', WF e' ∧ w ++ e'.pending = e.pending ∧
      (Encoder.round v own buffersize out e = .ok (.done (out ++ w) e') ∧ e'.work < e.work ∨
        Encoder.round v own buffersize out e = .ok (.again (out ++ w) e') ∧
          e'.inProgress = some m ∧ e'.work + w.length = e.work) := by
  -- writing, from an encoder that has the same bytes pending
  have hwrite : ∀ e1 : Encoder, WF e1 → e1.inProgress = some m → e1.pending = e.pending →
      ∃ w e', WF e' ∧ w ++ e'.pending = e.pending ∧
        (Encoder.write own buffersize out e1 = .done (out ++ w) e' ∧ e'.work < e.work ∨
          Encoder.write own buffersize out e1 = .again (out ++ w) e' ∧ e'.inProgress = some m ∧
            e'.work + w.length = e.work) := by
    intro e1 h1 hbusy1 hpending
    obtain ⟨w, e', hwf, hout, hbusy', hres⟩ := h1.write hbusy1 own hpos
    have hwork := work_of_pending hbusy hbusy' (hout.trans hpending)
    refine ⟨w, e', hwf, hout.trans hpending, hres.imp (fun hdone => ⟨hdone.1, ?_⟩) fun hagain =>
      ⟨hagain, hbusy', hwork⟩⟩
    have := length_pos_iff.mpr hdone.2
    omega
  unfold Encoder.round
  by_cases hempty : e.toWrite = []
  · rw [if_pos hempty]
    cases hflag : e.newMsgFlag with
    | true =>
      -- the message is closed
      refine ⟨[], { e with inProgress := none }, ⟨h.next_eq, fun _ => hflag, by simp⟩, ?_, .inl ⟨?_, ?_⟩⟩
      · simp [pending, hbusy, hempty, hflag]
      · simp [hflag]
      · simp [work, pending, hbusy, hempty, hflag]
    | false =>
      have hnext : e.next = .sizeReady := by rw [h.next_eq, hflag]; rfl
      have hrun : runNext v e =
          .ok { e with toWrite := m.body, next := .messageReady, newMsgFlag := true } := by
        simp only [runNext, hbusy, h.body m hbusy, false_eq_true, ↓reduceIte, hnext]
      obtain ⟨w, e', hwf, hout, hres⟩ := hwrite
        { e with toWrite := m.body, next := .messageReady, newMsgFlag := true }
        ⟨rfl, fun _ => rfl, h.body⟩ hbusy (by simp [pending, hbusy, hempty, hflag])
      refine ⟨w, e', hwf, hout, ?_⟩
      simp only [false_eq_true, ↓reduceIte, hrun, ok.injEq]
      exact hres
  · rw [if_neg hempty]
    obtain ⟨w, e', hwf, hout, hres⟩ := hwrite e h hbusy rfl
    refine ⟨w, e', hwf, hout, ?_⟩
    simp only [ok.injEq]
    exact hres

lemma WF.encodeLoop (h : WF e) (hbusy : e.inProgress = some m)
    (v : Version) (own : Bool) (buffersize : ℕ) (out : List UInt8) :
    ∃ w e', Encoder.encodeLoop v own buffersize out e = .ok (out ++ w, e') ∧ WF e' ∧
      w ++ e'.pending = e.pending ∧ e'.work ≤ e.work ∧
      (out.length < buffersize → e'.work < e.work) := by
  induction hn : rounds buffersize out e using Nat.strongRecOn generalizing out e with
  | ind n ih =>
    rw [Encoder.encodeLoop]
    by_cases hpos : out.length < buffersize
    swap
    · refine ⟨[], e, ?_, h, rfl, le_refl _, fun hlt => absurd hlt hpos⟩
      rw [dif_neg hpos, append_nil]
    rw [dif_pos hpos]
    obtain ⟨w, e', hwf, hout, ⟨hdone, hlt⟩ | ⟨hagain, hbusy', hwork⟩⟩ := h.round hbusy v own hpos
    · refine ⟨w, e', ?_, hwf, hout, hlt.le, fun _ => hlt⟩
      split <;> simp_all
    have hdec := rounds_lt hpos hagain
    obtain ⟨w', e'', hok, hwf', hout', hle, hlt⟩ :=
      ih _ (hn ▸ hdec) hwf hbusy' (out ++ w) rfl
    refine ⟨w ++ w', e'', ?_, hwf', ?_, by omega, fun _ => ?_⟩
    · rw [← append_assoc, ← hok]
      split <;> simp_all
    · rw [append_assoc, hout', hout]
    · by_cases hw : w = []
      · have := hlt (by rw [hw, append_nil]; exact hpos)
        omega
      · have := length_pos_iff.mpr hw
        omega

lemma WF.encode (h : WF e) (v : Version) (bufsize : ℕ) (data : Option ℕ) :
    ∃ w e', Encoder.encode v bufsize e data = .ok (w, e') ∧ WF e' ∧
      w ++ e'.pending = e.pending ∧ e'.work ≤ e.work ∧
      (0 < data.getD bufsize → e.inProgress.isSome = true → e'.work < e.work) := by
  unfold Encoder.encode
  cases hbusy : e.inProgress with
  | none => exact ⟨[], e, rfl, h, rfl, le_refl _, fun _ hsome => by simp at hsome⟩
  | some m =>
    obtain ⟨w, e', hok, hwf, hout, hle, hlt⟩ :=
      h.encodeLoop hbusy v data.isNone (data.getD bufsize) []
    exact ⟨w, e', hok, hwf, hout, hle, fun hpos _ => hlt hpos⟩

lemma encode_toWrite (v : Version) (bufsize : ℕ) (hne : e.toWrite ≠ [])
    (hbusy : e.inProgress.isSome = true) :
    Encoder.encode v bufsize e (some e.toWrite.length) = .ok (e.toWrite, { e with toWrite := [] }) := by
  have hpos := length_pos_iff.2 hne
  have hround : Encoder.round v false e.toWrite.length [] e =
      .ok (.again e.toWrite { e with toWrite := [] }) := by
    rw [Encoder.round, if_neg hne, Encoder.write]
    simp
  have hidle : e.inProgress.isNone = false := by rw [← not_isSome, hbusy]; rfl
  have hend : Encoder.encodeLoop v false e.toWrite.length e.toWrite { e with toWrite := [] } =
      .ok (e.toWrite, { e with toWrite := [] }) := by
    rw [Encoder.encodeLoop, dif_neg (lt_irrefl _)]
  rw [Encoder.encode, hidle, isNone_some, getD_some, Encoder.encodeLoop,
    length_nil, dif_pos hpos]
  simp only [false_eq_true, ↓reduceIte]
  split <;> simp_all

/-! ### A queue of messages -/

/-- The messages of a queue on the wire. -/
def wires (v : Version) (msgs : List Msg) : List UInt8 := msgs.flatMap (wire v)

/-- The work with the message in progress and the queue. -/
def totalWork (v : Version) (e : Encoder) (msgs : List Msg) : ℕ :=
  e.work + (wires v msgs).length + msgs.length

/-- The calls with room for a byte. -/
def roomy (bufsize : ℕ) (calls : List (Option ℕ)) : ℕ := calls.countP fun data => 0 < data.getD bufsize

lemma work_of_idle (h : e.inProgress = none) : e.work = 0 := by
  simp [work, pending, h]

lemma WF.pull (h : WF e) (v : Version) {msgs : List Msg}
    (hmsgs : ∀ m ∈ msgs, m.isDelimiter = false) :
    ∃ e' rest, Encoder.pull v e msgs = .ok (e', rest) ∧ WF e' ∧
      (∀ m ∈ rest, m.isDelimiter = false) ∧
      e'.pending ++ wires v rest = e.pending ++ wires v msgs ∧
      totalWork v e' rest = totalWork v e msgs ∧ (e'.inProgress = none → rest = []) := by
  cases hbusy : e.inProgress with
  | some m =>
    refine ⟨e, msgs, ?_, h, hmsgs, rfl, rfl, fun hnone => ?_⟩
    · simp only [Encoder.pull, hbusy]
      rfl
    · rw [hbusy] at hnone
      cases hnone
  | none =>
    cases msgs with
    | nil =>
      refine ⟨e, [], ?_, h, hmsgs, rfl, rfl, fun _ => rfl⟩
      simp only [Encoder.pull, hbusy]
      rfl
    | cons m msgs =>
      obtain ⟨e', hok, hwf, hbusy', hpending⟩ := h.loadMsg hbusy (hmsgs m mem_cons_self) v
      refine ⟨e', msgs, ?_, hwf, fun m' hm' => hmsgs m' (mem_cons_of_mem m hm'), ?_, ?_,
        fun hnone => ?_⟩
      · simp only [Encoder.pull, hbusy, hok, bind, bind]
        rfl
      · rw [hpending]
        simp [pending, hbusy, wires]
      · have hwork' : e'.work = (wire v m).length + 1 := by simp [work, hpending, hbusy']
        simp only [totalWork, hwork', work_of_idle hbusy, wires, flatMap_cons,
          length_append, length_cons]
        omega
      · rw [hbusy'] at hnone
        cases hnone

/-- **Sending a queue.** No call fails, the output is taken from the front of what is pending, and
every call with room for a byte gets something done until nothing is left. -/
theorem WF.transmit (h : WF e) (v : Version) (bufsize : ℕ) {msgs : List Msg}
    (hmsgs : ∀ m ∈ msgs, m.isDelimiter = false) (calls : List (Option ℕ)) :
    ∃ out e' rest, Encoder.transmit v bufsize e msgs calls = .ok (out, e', rest) ∧ WF e' ∧
      out ++ (e'.pending ++ wires v rest) = e.pending ++ wires v msgs ∧
      (totalWork v e' rest = 0 ∨
        totalWork v e' rest + roomy bufsize calls ≤ totalWork v e msgs) := by
  induction calls generalizing e msgs with
  | nil => exact ⟨[], e, msgs, rfl, h, rfl, .inr (by simp [roomy])⟩
  | cons data calls ih =>
    obtain ⟨e1, msgs1, hpull, hwf1, hmsgs1, hout1, hwork1, hidle⟩ := h.pull v hmsgs
    obtain ⟨w, e2, henc, hwf2, hout2, hle, hlt⟩ := hwf1.encode v bufsize data
    obtain ⟨out, e', rest, hrun, hwf', hout, hwork⟩ := ih hwf2 hmsgs1
    refine ⟨w ++ out, e', rest, ?_, hwf', ?_, ?_⟩
    · simp only [Encoder.transmit, hpull, henc, hrun, bind, Except.bind]
      rfl
    · rw [append_assoc, hout, ← append_assoc, hout2, hout1]
    · rw [← hwork1]
      have hroomy : roomy bufsize (data :: calls) ≤ roomy bufsize calls + 1 := by
        rw [roomy, countP_cons]
        split <;> simp [roomy]
      cases hbusy : e1.inProgress with
      | none =>
        -- there is nothing left to do
        have hzero := work_of_idle hbusy
        simp only [totalWork, hidle hbusy, wires, flatMap_nil, length_nil] at hwork ⊢
        omega
      | some m =>
        refine hwork.imp_right fun hwork => ?_
        rw [hbusy] at hlt
        by_cases hpos : 0 < data.getD bufsize
        · have := hlt hpos rfl
          simp only [totalWork] at hwork ⊢
          omega
        · have : roomy bufsize (data :: calls) = roomy bufsize calls := by
            simp [roomy, hpos]
          simp only [totalWork] at hwork ⊢
          omega

end Encoder

end Zmq
