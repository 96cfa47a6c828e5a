import ZeroMQ.Foundation.Stream
import ZeroMQ.Msg

/-!
# Decoding in stages

`decoder_base_t` reads a stream in stages of known length. When the bytes of a stage are there, an
action of the derived class looks at them and says how many bytes come next; an action may also finish
a message or report an error. `decode` has two loops: one copies the bytes of a chunk to where they
belong, the other is for bytes that the caller has received right there.

`Stages` are the actions of a derived class together with the reason why the loop
`while (to_read == 0)` ends. The reading of a stream byte by byte, `Stages.feed`, is what both loops
are compared with.
-/

namespace Zmq

/-- What `decode` reports. -/
inductive DecodeFault
  /-- Invalid framing. -/
  | eproto
  /-- The message is too long. -/
  | emsgsize
  /-- There is no memory for the message. -/
  | enomem
  /-- `zmq_assert` fails. -/
  | assertFailed
  /-- A message is written past the memory that was allocated for it. -/
  | outOfBounds
  deriving DecidableEq, Repr

/-- The actions of a class derived from `decoder_base_t`, over its own fields and `next`. An action
sees the bytes stored since the last `next_step`; its result is a message if it returns 1, and the
arguments of `next_step`. -/
structure Stages (σ : Type) where
  act : σ → List UInt8 → Except DecodeFault (Option Msg × ℕ × σ)
  /-- How many actions can follow without a byte being read. -/
  rank : σ → ℕ
  rank_lt : ∀ {s filled s'}, act s filled = .ok (none, 0, s') → rank s' < rank s
  /-- After a message at least one byte is to be read. -/
  pos_of_msg : ∀ {s filled m n s'}, act s filled = .ok (some m, n, s') → 0 < n

/-- `decoder_base_t`: the fields of the derived class, the bytes stored since the last `next_step` and
`to_read`. Between two calls there is something to read. -/
structure Decoder (σ : Type) where
  state : σ
  filled : List UInt8
  toRead : ℕ
  pos : 0 < toRead

/-- A chunk of the stream, received where the decoder wants it or elsewhere. -/
structure Chunk where
  direct : Bool
  bytes : List UInt8

namespace Stages

open Foundation List Nat

variable {σ : Type} (S : Stages σ)

/-- The loop `while (to_read == 0)`. -/
def settle (state : σ) (filled : List UInt8) : Except DecodeFault (Option Msg × Decoder σ) :=
  match h : S.act state filled with
  | .error e => .error e
  | .ok (some m, n, s) => .ok (some m, ⟨s, [], n, S.pos_of_msg h⟩)
  | .ok (none, 0, s) => settle s []
  | .ok (none, n + 1, s) => .ok (none, ⟨s, [], n + 1, Nat.succ_pos n⟩)
termination_by S.rank state
decreasing_by exact S.rank_lt h

/-- `decoder_base_t::get_buffer`: whether the caller is to fill the message directly, and how many
bytes at most. -/
def getBuffer (bufsize : ℕ) (d : Decoder σ) : Bool × ℕ :=
  if d.toRead ≥ bufsize then (true, d.toRead) else (false, bufsize)

/-- The bytes are stored and, if none is left to read, the state machine runs. -/
def absorb (d : Decoder σ) (bytes : List UInt8) : Except DecodeFault (Option Msg × Decoder σ) :=
  if h : d.toRead - bytes.length = 0 then S.settle d.state (d.filled ++ bytes)
  else .ok (none,
    ⟨d.state, d.filled ++ bytes, d.toRead - bytes.length, Nat.pos_of_ne_zero h⟩)

/-- `decoder_base_t::decode` for data that were received in place: a message if one is complete, the
number of bytes used and the decoder. -/
def decodeDirect (d : Decoder σ) (data : List UInt8) :
    Except DecodeFault (Option Msg × ℕ × Decoder σ) :=
  if data.length > d.toRead then .error .assertFailed
  else
    match S.absorb d data with
    | .error e => .error e
    | .ok (m, d') => .ok (m, data.length, d')

/-- `decoder_base_t::decode` for other data. -/
def decodeCopied (d : Decoder σ) (data : List UInt8) :
    Except DecodeFault (Option Msg × ℕ × Decoder σ) :=
  if _hdata : data = [] then .ok (none, 0, d)
  else
    let toCopy := min d.toRead data.length
    match S.absorb d (data.take toCopy) with
    | .error e => .error e
    | .ok (some m, d') => .ok (some m, toCopy, d')
    | .ok (none, d') =>
      match decodeCopied d' (data.drop toCopy) with
      | .error e => .error e
      | .ok (m, used, d'') => .ok (m, toCopy + used, d'')
termination_by data.length
decreasing_by
  have := d.pos
  have := List.length_pos_iff.mpr _hdata
  rw [List.length_drop]
  omega

variable {used bufsize n : ℕ}

lemma used_pos {d d' : Decoder σ} {data : List UInt8} {m : Option Msg}
    (h : S.decodeCopied d data = .ok (m, used, d')) (hdata : data ≠ []) : 0 < used := by
  have hpos := d.pos
  have hlen := length_pos_iff.mpr hdata
  rw [decodeCopied, dif_neg hdata] at h
  dsimp only at h
  split at h
  · cases h
  · cases h
    omega
  · split at h
    · cases h
    · cases h
      omega

/-- The loop of `stream_engine_t::in_event` over the data in its buffer, with the messages that it
passes on. -/
def processInput (d : Decoder σ) (data : List UInt8) : Outcome Msg DecodeFault (Decoder σ) :=
  if _hdata : data = [] then ([], .ok d)
  else
    match _h : S.decodeCopied d data with
    | .error e => ([], .error e)
    | .ok (none, _, d') => ([], .ok d')
    | .ok (some m, used, d') =>
      (m :: (processInput d' (data.drop used)).1, (processInput d' (data.drop used)).2)
termination_by data.length
decreasing_by
  all_goals
    have := S.used_pos _h _hdata
    have := List.length_pos_iff.mpr _hdata
    rw [List.length_drop]
    omega

/-- A chunk is received and decoded. One that was received in place is used up by one call. -/
def receiveChunk (d : Decoder σ) (c : Chunk) : Outcome Msg DecodeFault (Decoder σ) :=
  if c.direct then
    match S.decodeDirect d c.bytes with
    | .error e => ([], .error e)
    | .ok (m, _, d') => (m.toList, .ok d')
  else S.processInput d c.bytes

/-- A chunk that is received in place is not longer than `get_buffer` says. -/
def Fits (d : Decoder σ) (c : Chunk) : Prop := c.direct = true → c.bytes.length ≤ d.toRead

/-! ### Byte by byte -/

/-- Read one byte. -/
def feed (d : Decoder σ) (b : UInt8) : Except DecodeFault (Option Msg × Decoder σ) := S.absorb d [b]

variable {S}

lemma absorb_of_lt {d : Decoder σ} {bytes : List UInt8} (h : bytes.length < d.toRead) :
    S.absorb d bytes = .ok (none, ⟨d.state, d.filled ++ bytes, d.toRead - bytes.length,
      Nat.sub_pos_of_lt h⟩) := by
  rw [absorb, dif_neg (by omega)]

lemma absorb_of_eq {d : Decoder σ} {bytes : List UInt8} (h : bytes.length = d.toRead) :
    S.absorb d bytes = S.settle d.state (d.filled ++ bytes) := by
  rw [absorb, dif_pos (by omega)]

lemma feedAll_eq_absorb {d : Decoder σ} {bytes : List UInt8} (hne : bytes ≠ [])
    (hle : bytes.length ≤ d.toRead) :
    feedAll S.feed d bytes = Outcome.ofStep (S.absorb d bytes) := by
  induction bytes generalizing d with
  | nil => exact absurd rfl hne
  | cons b bytes ih =>
    by_cases hnil : bytes = []
    · subst hnil
      change feedAll S.feed d [b] = Outcome.ofStep (S.feed d b)
      cases hb : S.feed d b with
      | error e => rw [feedAll_cons_error hb, Outcome.ofStep]
      | ok r =>
        obtain ⟨m, d'⟩ := r
        rw [feedAll_cons_ok hb, Outcome.ofStep]
        simp
    · -- the first byte does not complete the stage
      have hlen := length_pos_iff.mpr hnil
      rw [length_cons] at hle
      have hb : S.feed d b = .ok (none, ⟨d.state, d.filled ++ [b], d.toRead - 1, by omega⟩) :=
        absorb_of_lt (show [b].length < d.toRead by simp; omega)
      rw [feedAll_cons_ok hb, ih hnil (by dsimp only; omega)]
      have hsame : S.absorb ⟨d.state, d.filled ++ [b], d.toRead - 1, by omega⟩ bytes =
          S.absorb d (b :: bytes) := by
        simp only [absorb, length_cons, append_assoc, cons_append, nil_append,
          show d.toRead - 1 - bytes.length = d.toRead - (bytes.length + 1) by omega]
      rw [hsame]
      rfl

lemma used_eq_length {d d' : Decoder σ} {data : List UInt8}
    (h : S.decodeCopied d data = .ok (none, used, d')) : used = data.length := by
  induction hn : data.length using Nat.strongRecOn generalizing d data used with
  | ind n ih =>
    by_cases hdata : data = []
    · rw [decodeCopied, dif_pos hdata] at h
      cases h
      rw [← hn, hdata]
      rfl
    · have hpos := d.pos
      have hlen := length_pos_iff.mpr hdata
      rw [decodeCopied, dif_neg hdata] at h
      dsimp only at h
      split at h
      · cases h
      · cases h
      · split at h
        · cases h
        next hrest =>
          cases h
          have := ih _ (by rw [length_drop]; omega) hrest rfl
          rw [length_drop] at this
          omega

lemma feedAll_eq_decodeCopied (d : Decoder σ) (data : List UInt8) :
    feedAll S.feed d data = match S.decodeCopied d data with
      | .error e => ([], .error e)
      | .ok (m, used, d') => Outcome.andThen (m.toList, .ok d') fun d' =>
          feedAll S.feed d' (data.drop used) := by
  induction hn : data.length using Nat.strongRecOn generalizing d data with
  | ind n ih =>
    by_cases hdata : data = []
    · rw [decodeCopied, dif_pos hdata, hdata]
      rfl
    have hpos := d.pos
    have hlen := length_pos_iff.mpr hdata
    obtain ⟨toCopy, htoCopy⟩ : ∃ toCopy, toCopy = min d.toRead data.length := ⟨_, rfl⟩
    have htake : (data.take toCopy).length = toCopy := by
      rw [length_take]
      omega
    have hne : data.take toCopy ≠ [] := ne_nil_of_length_pos (by omega)
    have hcut : feedAll S.feed d data = Outcome.andThen
        (Outcome.ofStep (S.absorb d (data.take toCopy))) fun d =>
          feedAll S.feed d (data.drop toCopy) := by
      rw [← feedAll_eq_absorb hne (by omega), ← feedAll_append, take_append_drop]
    rw [hcut, decodeCopied, dif_neg hdata, ← htoCopy]
    dsimp only
    cases S.absorb d (data.take toCopy) with
    | error e => rfl
    | ok r =>
      obtain ⟨m | m, d'⟩ := r
      · have hrest := ih _ (by rw [length_drop]; omega) d' (data.drop toCopy) rfl
        rw [Outcome.ofStep, Outcome.andThen_ok, hrest]
        dsimp only
        cases S.decodeCopied d' (data.drop toCopy) with
        | error e => rfl
        | ok r' =>
          obtain ⟨m', used, d''⟩ := r'
          simp only [Outcome.andThen_ok, drop_drop]
          rfl
      · rfl

lemma processInput_eq_feedAll (d : Decoder σ) (data : List UInt8) :
    S.processInput d data = feedAll S.feed d data := by
  induction hn : data.length using Nat.strongRecOn generalizing d data with
  | ind n ih =>
    by_cases hdata : data = []
    · rw [processInput, dif_pos hdata, hdata]
      rfl
    have hlen := length_pos_iff.mpr hdata
    rw [processInput, dif_neg hdata, feedAll_eq_decodeCopied]
    split
    next h => rw [h]
    next d' h =>
      rw [h, used_eq_length h]
      simp
    next m used d' h =>
      have hused := S.used_pos h hdata
      rw [h, ih _ (by rw [length_drop]; omega) d' (data.drop used) rfl]
      rfl

/-- **Both loops read byte by byte.** -/
theorem receiveChunk_eq_feedAll (d : Decoder σ) (c : Chunk) (hfits : Fits d c) :
    S.receiveChunk d c = feedAll S.feed d c.bytes := by
  obtain ⟨direct, bytes⟩ := c
  cases direct with
  | false => exact processInput_eq_feedAll d bytes
  | true =>
    have hle : bytes.length ≤ d.toRead := hfits rfl
    have hnot : ¬bytes.length > d.toRead := by omega
    simp only [receiveChunk, decodeDirect, hnot, ↓reduceIte]
    by_cases hnil : bytes = []
    · subst hnil
      rw [absorb_of_lt (by simpa using d.pos)]
      simp
    · rw [feedAll_eq_absorb hnil hle]
      cases S.absorb d bytes with
      | error e | ok r => rfl

lemma runChunks_eq {d : Decoder σ} {cs : List Chunk}
    (hcs : ChunksMeet S.receiveChunk Fits d cs) :
    runChunks S.receiveChunk d cs = feedAll S.feed d (cs.flatMap Chunk.bytes) :=
  runChunks_eq_feedAll receiveChunk_eq_feedAll hcs

/-! ### Following the stages -/

variable {s s' s'' : σ} {filled body : List UInt8}

lemma settle_of_pos
    (h : S.act s filled = .ok (none, n, s')) (hn : 0 < n) :
    S.settle s filled = .ok (none, ⟨s', [], n, hn⟩) := by
  cases n with
  | zero => exact absurd hn (Nat.lt_irrefl 0)
  | succ n =>
    rw [settle]
    split <;> simp_all

lemma settle_of_zero (h : S.act s filled = .ok (none, 0, s')) :
    S.settle s filled = S.settle s' [] := by
  rw [settle]
  split
  next hres =>
    rw [h] at hres
    cases hres
  next hres =>
    rw [h] at hres
    cases hres
  next hres =>
    rw [h] at hres
    cases hres
    rfl
  next hres =>
    rw [h] at hres
    cases hres

lemma settle_of_msg {m : Msg}
    (h : S.act s filled = .ok (some m, n, s')) :
    S.settle s filled = .ok (some m, ⟨s', [], n, S.pos_of_msg h⟩) := by
  rw [settle]
  split
  next hres =>
    rw [h] at hres
    cases hres
  next hres =>
    rw [h] at hres
    cases hres
    rfl
  next hres =>
    rw [h] at hres
    cases hres
  next hres =>
    rw [h] at hres
    cases hres

/-- An action that asks for no bytes is followed by one that makes a message, so the loop fails where its
first action does. -/
lemma settle_error_iff (hnext : ∀ {s filled s'}, S.act s filled = .ok (none, 0, s') →
    ∃ m n s'', S.act s' [] = .ok (some m, n, s'')) {e : DecodeFault} :
    S.settle s filled = .error e ↔ S.act s filled = .error e := by
  cases hact : S.act s filled with
  | error e' =>
    rw [settle]
    split <;> simp_all
  | ok res =>
    refine iff_of_false (fun h => ?_) fun h => (by cases h)
    obtain ⟨m | m, n, s'⟩ := res
    · cases n with
      | zero =>
        obtain ⟨m, n, s'', hmsg⟩ := hnext hact
        rw [settle_of_zero hact, settle_of_msg hmsg] at h
        cases h
      | succ n =>
        rw [settle_of_pos hact n.succ_pos] at h
        cases h
    · rw [settle_of_msg hact] at h
      cases h

lemma feed_error_iff (hnext : ∀ {s filled s'}, S.act s filled = .ok (none, 0, s') →
    ∃ m n s'', S.act s' [] = .ok (some m, n, s'')) {d : Decoder σ} {b : UInt8} {e : DecodeFault} :
    S.feed d b = .error e ↔ d.toRead = 1 ∧ S.act d.state (d.filled ++ [b]) = .error e := by
  by_cases hlast : [b].length = d.toRead
  · rw [feed, absorb_of_eq hlast, settle_error_iff hnext]
    exact (and_iff_right hlast.symm).symm
  · have hpos := d.pos
    have hlt : [b].length < d.toRead := by
      simp only [length_cons, length_nil] at hlast ⊢
      omega
    rw [feed, absorb_of_lt hlt]
    exact iff_of_false (fun h => (by cases h)) fun h => hlast h.1.symm

lemma feedAll_stage (d : Decoder σ) (bytes rest : List UInt8) (h : bytes.length = d.toRead) :
    feedAll S.feed d (bytes ++ rest) =
      (Outcome.ofStep (S.settle d.state (d.filled ++ bytes))).andThen
        fun d => feedAll S.feed d rest := by
  have hpos := d.pos
  have hne : bytes ≠ [] := ne_nil_of_length_pos (by omega)
  rw [feedAll_append, feedAll_eq_absorb hne (by omega), absorb_of_eq h]

lemma feedAll_stage_ok (d : Decoder σ) (bytes rest : List UInt8) (h : bytes.length = d.toRead)
    {d' : Decoder σ} (hd : S.settle d.state (d.filled ++ bytes) = .ok (none, d')) :
    feedAll S.feed d (bytes ++ rest) = feedAll S.feed d' rest := by
  rw [feedAll_stage d bytes rest h, hd]
  rfl

lemma feedAll_body {m : Msg}
    (hlength : S.act s filled = .ok (none, body.length, s'))
    (hbody : S.act s' body = .ok (some m, n, s'')) :
    (Outcome.ofStep (S.settle s filled)).andThen (fun d => feedAll S.feed d body) =
      ([m], .ok ⟨s'', [], n, S.pos_of_msg hbody⟩) := by
  by_cases hnil : body = []
  · subst hnil
    rw [settle_of_zero hlength, settle_of_msg hbody]
    rfl
  · have hpos := length_pos_iff.mpr hnil
    rw [settle_of_pos hlength hpos, Outcome.ofStep, Outcome.andThen_ok]
    have hstage := feedAll_stage (S := S) ⟨s', [], body.length, hpos⟩ body [] rfl
    rw [append_nil, nil_append, settle_of_msg hbody] at hstage
    rw [hstage]
    rfl

lemma feedAll_msgs {J : σ → ℕ → Prop} {Q : Msg → Prop}
    (hact : ∀ {s filled r n s'}, J s filled.length → S.act s filled = .ok (r, n, s') →
      J s' n ∧ ∀ m ∈ r, Q m)
    {d : Decoder σ} (hd : J d.state (d.filled.length + d.toRead)) (bytes : List UInt8) :
    ∀ m ∈ (feedAll S.feed d bytes).1, Q m := by
  have hsettle : ∀ {s filled r d'}, J s filled.length → S.settle s filled = .ok (r, d') →
      J d'.state (d'.filled.length + d'.toRead) ∧ ∀ m ∈ r, Q m := by
    intro s filled r d' hJ h
    induction hrank : S.rank s using Nat.strongRecOn generalizing s filled with
    | ind k ih =>
      cases hres : S.act s filled with
      | error e =>
        rw [settle] at h
        split at h <;> simp_all
      | ok res =>
        obtain ⟨m | m, n, s'⟩ := res
        · obtain ⟨hJ', -⟩ := hact hJ hres
          cases n with
          | zero =>
            rw [settle_of_zero hres] at h
            exact ih _ (hrank ▸ S.rank_lt hres) hJ' h rfl
          | succ n =>
            rw [settle_of_pos hres n.succ_pos] at h
            cases h
            simpa using hJ'
        · obtain ⟨hJ', hQ⟩ := hact hJ hres
          rw [settle_of_msg hres] at h
          cases h
          exact ⟨by simpa using hJ', hQ⟩
  refine feedAll_items (I := fun d : Decoder σ => J d.state (d.filled.length + d.toRead)) ?_ hd bytes
  intro d b r d' hJ h
  have hpos := d.pos
  by_cases hlast : [b].length = d.toRead
  · rw [feed, absorb_of_eq hlast] at h
    refine hsettle ?_ h
    rw [length_append, hlast]
    exact hJ
  · have hlt : [b].length < d.toRead := by
      simp only [length_cons, length_nil] at hlast ⊢
      omega
    rw [feed, absorb_of_lt hlt] at h
    cases h
    simp only [length_append] at hlt ⊢
    refine ⟨?_, by simp⟩
    have hsum : d.filled.length + [b].length + (d.toRead - [b].length) =
        d.filled.length + d.toRead := by omega
    rw [hsum]
    exact hJ

end Stages

end Zmq
