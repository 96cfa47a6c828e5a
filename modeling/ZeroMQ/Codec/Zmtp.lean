import ZeroMQ.Codec.Decoder
import ZeroMQ.Codec.Encoder

/-!
# The decoders of the two framings

`v1_decoder_t` and `v2_decoder_t` are classes derived from `decoder_base_t`; their actions are given
here as stages. They depend on the limit for messages, on the width of `size_t` and on `malloc`.
-/

namespace Zmq

open Foundation

/-- What the decoders depend on. -/
structure DecoderConfig where
  /-- The option `ZMQ_MAXMSGSIZE`; a negative number is no limit. -/
  maxmsgsize : ℤ
  /-- The largest number of type `size_t`. -/
  sizeMax : ℕ
  /-- Bodies up to this size are stored in the message itself. -/
  maxVsmSize : ℕ
  /-- What is in front of a body that is stored elsewhere, `sizeof (content_t)`. -/
  sizeofContent : ℕ
  /-- Whether a call of `malloc` succeeds, by its number and the number of bytes. -/
  malloc : ℕ → ℕ → Bool

/-- There is memory for a body. -/
def DecoderConfig.HasMemory (cfg : DecoderConfig) (mallocs size : ℕ) : Prop :=
  cfg.sizeofContent + size ≤ cfg.sizeMax ∧ cfg.malloc mallocs (cfg.sizeofContent + size) = true

/-- `malloc` is asked for less than the size of the buffer, because the sum has wrapped around, and succeeds. -/
def DecoderConfig.WrapsAround (cfg : DecoderConfig) (mallocs size : ℕ) : Prop :=
  cfg.maxVsmSize < size ∧ cfg.sizeMax < cfg.sizeofContent + size ∧
    cfg.malloc mallocs ((cfg.sizeofContent + size) % (cfg.sizeMax + 1)) = true

/-- The message `in_progress` before its body is there, and the number of calls of `malloc` so far. -/
structure Incoming where
  size : ℕ
  flags : MsgFlags
  mallocs : ℕ
  deriving DecidableEq, Repr

namespace Incoming

/-- `msg_t::init`. -/
def init : Incoming := ⟨0, MsgFlags.none, 0⟩

/-- `msg_t::init_size`; it may fail for lack of memory. The size of the buffer is a sum of type `size_t`; when
it wraps around, the memory is too short for what is written into it. -/
def initSize (cfg : DecoderConfig) (size : ℕ) (p : Incoming) : Except DecodeFault Incoming :=
  if size ≤ cfg.maxVsmSize then .ok ⟨size, MsgFlags.none, p.mallocs⟩
  else if cfg.malloc p.mallocs ((cfg.sizeofContent + size) % (cfg.sizeMax + 1)) then
    if cfg.sizeMax < cfg.sizeofContent + size then .error .outOfBounds
    else .ok ⟨size, MsgFlags.none, p.mallocs + 1⟩
  else .error .enomem

/-- The message when its body is there. -/
def msg (p : Incoming) (body : List UInt8) : Msg := ⟨.data, p.flags, body⟩

lemma size_of_initSize {cfg : DecoderConfig} {size : ℕ} {p p' : Incoming}
    (h : p.initSize cfg size = .ok p') : p'.size = size := by
  unfold initSize at h
  split_ifs at h <;> cases h <;> rfl

lemma initSize_error_iff {cfg : DecoderConfig} {size : ℕ} {p : Incoming} :
    p.initSize cfg size = .error .outOfBounds ↔ cfg.WrapsAround p.mallocs size := by
  unfold initSize DecoderConfig.WrapsAround
  split_ifs <;> simp_all

end Incoming

/-- The message is longer than the limit. -/
def DecoderConfig.exceeds (cfg : DecoderConfig) (size : ℕ) : Bool :=
  cfg.maxmsgsize ≥ 0 ∧ (size : ℤ) > cfg.maxmsgsize

/-! ### Version 1 -/

/-- The actions of `v1_decoder_t`. -/
inductive V1Next
  | oneByteSizeReady
  | eightByteSizeReady
  | flagsReady
  | messageReady
  deriving DecidableEq, Repr

/-- `v1_decoder_t`. -/
structure V1State where
  next : V1Next
  inProgress : Incoming
  deriving DecidableEq, Repr

namespace V1State

/-- Make room for a body and go on with the flags. -/
def initSize (cfg : DecoderConfig) (size : ℕ) (s : V1State) :
    Except DecodeFault (Option Msg × ℕ × V1State) :=
  match s.inProgress.initSize cfg size with
  | .error e => .error e
  | .ok p => .ok (none, 1, ⟨.flagsReady, p⟩)

/-- The actions of `v1_decoder_t`. -/
def act (cfg : DecoderConfig) (s : V1State) (tmpbuf : List UInt8) :
    Except DecodeFault (Option Msg × ℕ × V1State) :=
  match s.next with
  | .oneByteSizeReady =>
    let size := (tmpbuf.getD 0 0).toNat
    if size = 0xff then .ok (none, 8, ⟨.eightByteSizeReady, s.inProgress⟩)
    -- there has to be at least one byte, the flags
    else if size = 0 then .error .eproto
    else if cfg.exceeds (size - 1) then .error .emsgsize
    else s.initSize cfg (size - 1)
  | .eightByteSizeReady =>
    let payloadLength := getUint64 tmpbuf
    if payloadLength = 0 then .error .eproto
    else if cfg.exceeds (payloadLength - 1) then .error .emsgsize
    else if payloadLength - 1 > cfg.sizeMax then .error .emsgsize
    else s.initSize cfg (payloadLength - 1)
  | .flagsReady =>
    let p := { s.inProgress with
      flags := { s.inProgress.flags with
        more := s.inProgress.flags.more || (tmpbuf.getD 0 0 &&& 1) ≠ 0 } }
    .ok (none, p.size, ⟨.messageReady, p⟩)
  | .messageReady =>
    .ok (some (s.inProgress.msg tmpbuf), 1, ⟨.oneByteSizeReady, s.inProgress⟩)

/-- What an action can do. -/
inductive Moves (cfg : DecoderConfig) (s : V1State) (tmpbuf : List UInt8) :
    Option Msg → ℕ → V1State → Prop
  | longSize : Moves cfg s tmpbuf none 8 ⟨.eightByteSizeReady, s.inProgress⟩
  | size (p : Incoming) (hp : cfg.exceeds p.size = false) : Moves cfg s tmpbuf none 1 ⟨.flagsReady, p⟩
  | flags (hnext : s.next = .flagsReady) (flags : MsgFlags) :
    Moves cfg s tmpbuf none s.inProgress.size ⟨.messageReady, { s.inProgress with flags := flags }⟩
  | message (hnext : s.next = .messageReady) :
    Moves cfg s tmpbuf (some (s.inProgress.msg tmpbuf)) 1 ⟨.oneByteSizeReady, s.inProgress⟩

variable {cfg : DecoderConfig} {tmpbuf : List UInt8}

lemma moves_of_initSize {s s' : V1State} {size n : ℕ}
    {r : Option Msg} (hsize : cfg.exceeds size = false) (h : s.initSize cfg size = .ok (r, n, s')) :
    Moves cfg s tmpbuf r n s' := by
  unfold initSize at h
  split at h
  · cases h
  next p hp =>
    cases h
    exact .size p (by rwa [Incoming.size_of_initSize hp])

lemma moves_of_act {s s' : V1State} {n : ℕ}
    {r : Option Msg} (h : act cfg s tmpbuf = .ok (r, n, s')) : Moves cfg s tmpbuf r n s' := by
  unfold act at h
  cases hnext : s.next with
  | oneByteSizeReady =>
    simp only [hnext] at h
    split at h
    · cases h
      exact .longSize
    split at h
    · cases h
    split at h
    · cases h
    next hsize => exact moves_of_initSize (by simpa using hsize) h
  | eightByteSizeReady =>
    simp only [hnext] at h
    split at h
    · cases h
    split at h
    · cases h
    next hsize =>
      split at h
      · cases h
      · exact moves_of_initSize (by simpa using hsize) h
  | flagsReady =>
    simp only [hnext] at h
    cases h
    exact .flags hnext _
  | messageReady =>
    simp only [hnext] at h
    cases h
    exact .message hnext

lemma Moves.of_zero {s s' : V1State} {n : ℕ}
    (h : Moves cfg s tmpbuf none n s') (hn : n = 0) :
    s.next = .flagsReady ∧ s'.next = .messageReady := by
  cases h with
  | longSize | size => cases hn
  | flags hnext => exact ⟨hnext, rfl⟩

/-- The bytes of a length are there and announce a body. -/
def Announces (cfg : DecoderConfig) (s : V1State) (tmpbuf : List UInt8) (size : ℕ) : Prop :=
  s.next = .oneByteSizeReady ∧ (tmpbuf.getD 0 0).toNat = size + 1 ∧ size + 1 ≠ 0xff ∨
    s.next = .eightByteSizeReady ∧ getUint64 tmpbuf = size + 1 ∧ size ≤ cfg.sizeMax

/-- The body that is announced is in the limit, and the size of its buffer wraps around. -/
def Wraps (cfg : DecoderConfig) (s : V1State) (tmpbuf : List UInt8) : Prop :=
  ∃ size, s.Announces cfg tmpbuf size ∧ cfg.exceeds size = false ∧ cfg.WrapsAround s.inProgress.mallocs size

lemma initSize_error_iff {s : V1State} {size : ℕ} :
    s.initSize cfg size = .error .outOfBounds ↔ cfg.WrapsAround s.inProgress.mallocs size := by
  rw [← Incoming.initSize_error_iff, initSize]
  cases s.inProgress.initSize cfg size with
  | error e => exact ⟨fun h => by rw [Except.error.inj h], fun h => by rw [Except.error.inj h]⟩
  | ok p => exact ⟨fun h => (by cases h), fun h => (by cases h)⟩

/-- The decoder leaves the bounds of a buffer exactly where the announced size wraps around. -/
lemma act_error_iff {s : V1State} : act cfg s tmpbuf = .error .outOfBounds ↔ s.Wraps cfg tmpbuf := by
  unfold act Wraps Announces
  cases hnext : s.next with
  | oneByteSizeReady =>
    simp only [reduceCtorEq, false_and, or_false, true_and, and_assoc]
    cases (tmpbuf.getD 0 0).toNat with
    | zero => simp
    | succ size =>
      simp only [Nat.succ_ne_zero, if_false, Nat.add_sub_cancel, Nat.add_right_cancel_iff, exists_eq_left']
      split_ifs <;> simp_all [initSize_error_iff]
  | eightByteSizeReady =>
    simp only [reduceCtorEq, false_and, false_or, true_and, and_assoc]
    cases getUint64 tmpbuf with
    | zero => simp
    | succ size =>
      simp only [Nat.succ_ne_zero, if_false, Nat.add_sub_cancel, Nat.add_right_cancel_iff, exists_eq_left']
      split_ifs <;> simp_all [initSize_error_iff]
  | flagsReady | messageReady => simp

/-- The stages of version 1. -/
def stages (cfg : DecoderConfig) : Stages V1State where
  act := act cfg
  rank s := if s.next = .flagsReady then 1 else 0
  rank_lt := by
    intro s filled s' h
    obtain ⟨hnext, hnext'⟩ := (moves_of_act h).of_zero rfl
    simp [hnext, hnext']
  pos_of_msg := by
    intro s filled m n s' h
    cases moves_of_act h with
    | message => exact Nat.one_pos

/-- A decoder before its first byte. -/
def start : Decoder V1State := ⟨⟨.oneByteSizeReady, Incoming.init⟩, [], 1, Nat.one_pos⟩

end V1State

/-! ### Version 2 -/

/-- The actions of `v2_decoder_t`. -/
inductive V2Next
  | flagsReady
  | oneByteSizeReady
  | eightByteSizeReady
  | messageReady
  deriving DecidableEq, Repr

/-- `v2_decoder_t`. -/
structure V2State where
  next : V2Next
  msgFlags : MsgFlags
  inProgress : Incoming
  deriving DecidableEq, Repr

namespace V2State

/-- Make room for a body, set the flags and go on with the body. -/
def initSize (cfg : DecoderConfig) (size : ℕ) (s : V2State) :
    Except DecodeFault (Option Msg × ℕ × V2State) :=
  match s.inProgress.initSize cfg size with
  | .error e => .error e
  | .ok p => .ok (none, p.size, { s with
      next := .messageReady, inProgress := { p with flags := s.msgFlags } })

/-- The actions of `v2_decoder_t`. -/
def act (cfg : DecoderConfig) (s : V2State) (tmpbuf : List UInt8) :
    Except DecodeFault (Option Msg × ℕ × V2State) :=
  match s.next with
  | .flagsReady =>
    let flags := tmpbuf.getD 0 0
    let s := { s with
      msgFlags := { MsgFlags.none with more := flags &&& 1 ≠ 0, command := flags &&& 4 ≠ 0 } }
    if flags &&& 2 ≠ 0 then .ok (none, 8, { s with next := .eightByteSizeReady })
    else .ok (none, 1, { s with next := .oneByteSizeReady })
  | .oneByteSizeReady =>
    let size := (tmpbuf.getD 0 0).toNat
    if cfg.exceeds size then .error .emsgsize
    else s.initSize cfg size
  | .eightByteSizeReady =>
    let msgSize := getUint64 tmpbuf
    if cfg.exceeds msgSize then .error .emsgsize
    else if msgSize ≠ msgSize % (cfg.sizeMax + 1) then .error .emsgsize
    else s.initSize cfg msgSize
  | .messageReady =>
    .ok (some (s.inProgress.msg tmpbuf), 1, { s with next := .flagsReady })

/-- What an action can do. -/
inductive Moves (cfg : DecoderConfig) (s : V2State) (tmpbuf : List UInt8) :
    Option Msg → ℕ → V2State → Prop
  | flags (n : ℕ) (hn : 0 < n) (next : V2Next) (hnext : next ≠ .messageReady) (flags : MsgFlags) :
    Moves cfg s tmpbuf none n ⟨next, flags, s.inProgress⟩
  | size (hnext : s.next ≠ .messageReady) (p : Incoming) (hp : cfg.exceeds p.size = false) :
    Moves cfg s tmpbuf none p.size ⟨.messageReady, s.msgFlags, p⟩
  | message (hnext : s.next = .messageReady) :
    Moves cfg s tmpbuf (some (s.inProgress.msg tmpbuf)) 1 { s with next := .flagsReady }

variable {cfg : DecoderConfig} {tmpbuf : List UInt8}

lemma moves_of_initSize {s s' : V2State} {size n : ℕ}
    {r : Option Msg} (hnext : s.next ≠ .messageReady) (hsize : cfg.exceeds size = false)
    (h : s.initSize cfg size = .ok (r, n, s')) : Moves cfg s tmpbuf r n s' := by
  unfold initSize at h
  split at h
  · cases h
  next p hp =>
    cases h
    exact .size hnext { p with flags := s.msgFlags } (by rwa [Incoming.size_of_initSize hp])

lemma moves_of_act {s s' : V2State} {n : ℕ}
    {r : Option Msg} (h : act cfg s tmpbuf = .ok (r, n, s')) : Moves cfg s tmpbuf r n s' := by
  unfold act at h
  cases hnext : s.next with
  | flagsReady =>
    simp only [hnext] at h
    split at h
    · cases h
      exact .flags 8 (by decide) _ (by decide) _
    · cases h
      exact .flags 1 (by decide) _ (by decide) _
  | oneByteSizeReady =>
    simp only [hnext] at h
    split at h
    · cases h
    next hsize => exact moves_of_initSize (by simp [hnext]) (by simpa using hsize) h
  | eightByteSizeReady =>
    simp only [hnext] at h
    split at h
    · cases h
    next hsize =>
      split at h
      · cases h
      · exact moves_of_initSize (by simp [hnext]) (by simpa using hsize) h
  | messageReady =>
    simp only [hnext] at h
    cases h
    exact .message hnext

lemma Moves.of_zero {s s' : V2State} {n : ℕ}
    (h : Moves cfg s tmpbuf none n s') (hn : n = 0) :
    s.next ≠ .messageReady ∧ s'.next = .messageReady := by
  cases h with
  | flags n hpos => omega
  | size hnext => exact ⟨hnext, rfl⟩

/-- The bytes of a length are there and announce a body. -/
def Announces (cfg : DecoderConfig) (s : V2State) (tmpbuf : List UInt8) (size : ℕ) : Prop :=
  s.next = .oneByteSizeReady ∧ (tmpbuf.getD 0 0).toNat = size ∨
    s.next = .eightByteSizeReady ∧ getUint64 tmpbuf = size ∧ size ≤ cfg.sizeMax

/-- The body that is announced is in the limit, and the size of its buffer wraps around. -/
def Wraps (cfg : DecoderConfig) (s : V2State) (tmpbuf : List UInt8) : Prop :=
  ∃ size, s.Announces cfg tmpbuf size ∧ cfg.exceeds size = false ∧ cfg.WrapsAround s.inProgress.mallocs size

lemma initSize_error_iff {s : V2State} {size : ℕ} :
    s.initSize cfg size = .error .outOfBounds ↔ cfg.WrapsAround s.inProgress.mallocs size := by
  rw [← Incoming.initSize_error_iff, initSize]
  cases s.inProgress.initSize cfg size with
  | error e => exact ⟨fun h => by rw [Except.error.inj h], fun h => by rw [Except.error.inj h]⟩
  | ok p => exact ⟨fun h => (by cases h), fun h => (by cases h)⟩

/-- The decoder leaves the bounds of a buffer exactly where the announced size wraps around. -/
lemma act_error_iff {s : V2State} : act cfg s tmpbuf = .error .outOfBounds ↔ s.Wraps cfg tmpbuf := by
  unfold act Wraps Announces
  cases hnext : s.next with
  | flagsReady =>
    dsimp only
    split <;> simp
  | oneByteSizeReady =>
    simp only [reduceCtorEq, false_and, or_false, true_and, exists_eq_left']
    split_ifs <;> simp_all [initSize_error_iff]
  | eightByteSizeReady =>
    have hfits (n : ℕ) : n = n % (cfg.sizeMax + 1) ↔ n ≤ cfg.sizeMax :=
      ⟨fun h => Nat.le_of_lt_succ (h ▸ Nat.mod_lt n cfg.sizeMax.succ_pos), fun h =>
        (Nat.mod_eq_of_lt (Nat.lt_succ_of_le h)).symm⟩
    simp only [reduceCtorEq, false_and, false_or, true_and, and_assoc, exists_eq_left', ne_eq, hfits]
    split_ifs <;> simp_all [initSize_error_iff]
  | messageReady => simp

/-- The stages of version 2. -/
def stages (cfg : DecoderConfig) : Stages V2State where
  act := act cfg
  rank s := if s.next = .messageReady then 0 else 1
  rank_lt := by
    intro s filled s' h
    obtain ⟨hnext, hnext'⟩ := (moves_of_act h).of_zero rfl
    simp [hnext, hnext']
  pos_of_msg := by
    intro s filled m n s' h
    cases moves_of_act h with
    | message => exact Nat.one_pos

/-- A decoder before its first byte. -/
def start : Decoder V2State := ⟨⟨.flagsReady, MsgFlags.none, Incoming.init⟩, [], 1, Nat.one_pos⟩

end V2State

/-! ### Both versions -/

/-- The fields of the decoder of a version. -/
def DecoderState : Version → Type
  | .v1 => V1State
  | .v2 => V2State

/-- The stages of a version. -/
def stages (cfg : DecoderConfig) : (v : Version) → Stages (DecoderState v)
  | .v1 => V1State.stages cfg
  | .v2 => V2State.stages cfg

/-- A new decoder. -/
def newDecoder : (v : Version) → Decoder (DecoderState v)
  | .v1 => V1State.start
  | .v2 => V2State.start

/-- The messages and the end of the reading of a stream that arrives in chunks. -/
def receive (cfg : DecoderConfig) (v : Version) (cs : List Chunk) :
    Outcome Msg DecodeFault (Decoder (DecoderState v)) :=
  runChunks (stages cfg v).receiveChunk (newDecoder v) cs

/-- The chunks can be received in this way. -/
def Receivable (cfg : DecoderConfig) (v : Version) (cs : List Chunk) : Prop :=
  ChunksMeet (stages cfg v).receiveChunk Stages.Fits (newDecoder v) cs

lemma receive_eq_feedAll {cfg : DecoderConfig} {v : Version} {cs : List Chunk}
    (hcs : Receivable cfg v cs) :
    receive cfg v cs = feedAll (stages cfg v).feed (newDecoder v) (cs.flatMap Chunk.bytes) :=
  Stages.runChunks_eq hcs

lemma V1State.msgs_bounded (cfg : DecoderConfig) (bytes : List UInt8) :
    ∀ m ∈ (feedAll (V1State.stages cfg).feed V1State.start bytes).1,
      cfg.exceeds m.body.length = false := by
  refine Stages.feedAll_msgs (J := fun s n =>
    (s.next = .flagsReady → cfg.exceeds s.inProgress.size = false) ∧
      (s.next = .messageReady → cfg.exceeds n = false)) ?_ ⟨by simp [start], by simp [start]⟩ bytes
  intro s filled r n s' hJ h
  cases moves_of_act h with
  | longSize => simp
  | size p hp => simpa using hp
  | flags hnext flags => simpa using hJ.1 hnext
  | message hnext => simpa [Incoming.msg] using hJ.2 hnext

lemma V2State.msgs_bounded (cfg : DecoderConfig) (bytes : List UInt8) :
    ∀ m ∈ (feedAll (V2State.stages cfg).feed V2State.start bytes).1,
      cfg.exceeds m.body.length = false := by
  refine Stages.feedAll_msgs (J := fun s n => s.next = .messageReady → cfg.exceeds n = false) ?_
    (by simp [start]) bytes
  intro s filled r n s' hJ h
  cases moves_of_act h with
  | flags n hn next hnext flags => simp [hnext]
  | size hnext p hp => simpa using hp
  | message hnext => simpa [Incoming.msg] using hJ hnext

/-- A length whose buffer wraps around is complete with the next byte. -/
def Overruns (cfg : DecoderConfig) : (v : Version) → Decoder (DecoderState v) → UInt8 → Prop
  | .v1, d, b => d.toRead = 1 ∧ V1State.Wraps cfg d.state (d.filled ++ [b])
  | .v2, d, b => d.toRead = 1 ∧ V2State.Wraps cfg d.state (d.filled ++ [b])

lemma feed_overruns_iff {cfg : DecoderConfig} {v : Version} {d : Decoder (DecoderState v)} {b : UInt8} :
    (stages cfg v).feed d b = .error .outOfBounds ↔ Overruns cfg v d b := by
  -- A body of no bytes is followed by its message.
  cases v with
  | v1 =>
    refine (Stages.feed_error_iff (S := V1State.stages cfg) fun h => ?_).trans
      (and_congr_right fun _ => V1State.act_error_iff)
    obtain ⟨-, hnext⟩ := (V1State.moves_of_act h).of_zero rfl
    exact ⟨_, _, _, by simp only [V1State.stages, V1State.act, hnext]; rfl⟩
  | v2 =>
    refine (Stages.feed_error_iff (S := V2State.stages cfg) fun h => ?_).trans
      (and_congr_right fun _ => V2State.act_error_iff)
    obtain ⟨-, hnext⟩ := (V2State.moves_of_act h).of_zero rfl
    exact ⟨_, _, _, by simp only [V2State.stages, V2State.act, hnext]; rfl⟩

/-- No length in a stream is one whose buffer wraps around. -/
def InBounds (cfg : DecoderConfig) (v : Version) (bytes : List UInt8) : Prop :=
  ∀ before b after ms d, bytes = before ++ b :: after →
    feedAll (stages cfg v).feed (newDecoder v) before = (ms, .ok d) → ¬Overruns cfg v d b

/-- Where the limit for messages leaves room for the content, every stream is in bounds. -/
lemma inBounds_of_limit {cfg : DecoderConfig} (v : Version) (bytes : List UInt8) (hlimit : 0 ≤ cfg.maxmsgsize)
    (hroom : cfg.maxmsgsize + cfg.sizeofContent ≤ cfg.sizeMax) : InBounds cfg v bytes := by
  have hfits {mallocs size : ℕ} (hexceeds : cfg.exceeds size = false) : ¬cfg.WrapsAround mallocs size := by
    simp only [DecoderConfig.exceeds, ge_iff_le, gt_iff_lt, decide_eq_false_iff_not, not_and, not_lt] at hexceeds
    have hle := hexceeds hlimit
    exact fun h => absurd h.2.1 (by omega)
  intro before b after ms d _ _ hover
  cases v with
  | v1 =>
    obtain ⟨-, size, -, hexceeds, hwraps⟩ := hover
    exact hfits hexceeds hwraps
  | v2 =>
    obtain ⟨-, size, -, hexceeds, hwraps⟩ := hover
    exact hfits hexceeds hwraps

/-- Two ways of cutting a stream give the same: the same messages and then the same error or the same state,
without leaving the bounds of a buffer, and no message is longer than the limit, if there is one. -/
structure CutsAgree (cfg : DecoderConfig) (v : Version) (cs cs' : List Chunk) : Prop where
  same : receive cfg v cs = receive cfg v cs'
  inBounds : (receive cfg v cs).2 ≠ .error .outOfBounds
  limit : 0 ≤ cfg.maxmsgsize → ∀ m ∈ (receive cfg v cs).1, (m.body.length : ℤ) ≤ cfg.maxmsgsize

lemma inBounds_iff {cfg : DecoderConfig} {v : Version} {cs : List Chunk} (hcs : Receivable cfg v cs) :
    (receive cfg v cs).2 ≠ .error .outOfBounds ↔ InBounds cfg v (cs.flatMap Chunk.bytes) := by
  rw [receive_eq_feedAll hcs, ne_eq, feedAll_error_iff]
  constructor
  · intro hno before b after ms d hbytes hbefore hover
    exact hno ⟨before, b, after, ms, d, hbytes, hbefore, feed_overruns_iff.mpr hover⟩
  · rintro hin ⟨before, b, after, ms, d, hbytes, hbefore, herror⟩
    exact hin before b after ms d hbytes hbefore (feed_overruns_iff.mp herror)

/-- **Chunks do not matter.** For every byte stream, however it is cut and whichever chunks are received in
place, both decoders give the same, exactly if no length in it is one whose buffer wraps around. -/
theorem decode_chunk_independent (cfg : DecoderConfig) (v : Version) {cs cs' : List Chunk}
    (hcs : Receivable cfg v cs) (hcs' : Receivable cfg v cs')
    (hsame : cs.flatMap Chunk.bytes = cs'.flatMap Chunk.bytes) :
    CutsAgree cfg v cs cs' ↔ InBounds cfg v (cs.flatMap Chunk.bytes) := by
  refine ⟨fun h => (inBounds_iff hcs).mp h.inBounds, fun h => ⟨?_, (inBounds_iff hcs).mpr h, ?_⟩⟩
  · rw [receive_eq_feedAll hcs, receive_eq_feedAll hcs', hsame]
  · intro hlimit m hm
    rw [receive_eq_feedAll hcs] at hm
    have hbound : cfg.exceeds m.body.length = false := by
      cases v with
      | v1 => exact V1State.msgs_bounded cfg _ m hm
      | v2 => exact V2State.msgs_bounded cfg _ m hm
    simp only [DecoderConfig.exceeds, ge_iff_le, gt_iff_lt, decide_eq_false_iff_not, not_and,
      not_lt] at hbound
    exact hbound hlimit

/-- A frame with a body of two bytes: in one chunk, or with the body received in place. -/
theorem decode_chunk_independent_direct :
    let cfg : DecoderConfig := ⟨10, 2 ^ 64 - 1, 29, 40, fun _ _ => true⟩
    CutsAgree cfg .v2 [⟨false, [0, 2, 7, 8]⟩] [⟨false, [0, 2]⟩, ⟨true, [7, 8]⟩] := by
  intro cfg
  have hinPlace : Receivable cfg .v2 [⟨false, [0, 2]⟩, ⟨true, [7, 8]⟩] := by
    refine ⟨fun h => (by cases h), fun d hd => ⟨fun _ => ?_, fun _ _ => trivial⟩⟩
    -- the flags and the length have been read
    have hflags : (V2State.stages cfg).settle ⟨.flagsReady, MsgFlags.none, Incoming.init⟩ [0] =
        .ok (none, ⟨⟨.oneByteSizeReady, MsgFlags.none, Incoming.init⟩, [], 1, by decide⟩) :=
      Stages.settle_of_pos rfl _
    have hsize : (V2State.stages cfg).settle ⟨.oneByteSizeReady, MsgFlags.none, Incoming.init⟩ [2] =
        .ok (none, ⟨⟨.messageReady, MsgFlags.none, ⟨2, MsgFlags.none, 0⟩⟩, [], 2, by decide⟩) :=
      Stages.settle_of_pos rfl _
    have hread : feedAll (V2State.stages cfg).feed V2State.start ([0] ++ ([2] ++ [])) =
        ([], .ok ⟨⟨.messageReady, MsgFlags.none, ⟨2, MsgFlags.none, 0⟩⟩, [], 2, by decide⟩) := by
      rw [Stages.feedAll_stage_ok V2State.start [0] _ rfl hflags,
        Stages.feedAll_stage_ok _ [2] _ rfl hsize, feedAll_nil]
    rw [Stages.receiveChunk_eq_feedAll _ _ fun h => by cases h] at hd
    have hd' := (congrArg Prod.snd hread).symm.trans hd
    cases hd'
    exact le_refl 2
  have hcopied : Receivable cfg .v2 [⟨false, [0, 2, 7, 8]⟩] := ⟨fun h => (by cases h), fun _ _ => trivial⟩
  exact (decode_chunk_independent cfg .v2 hcopied hinPlace rfl).mpr
    (inBounds_of_limit .v2 _ (by decide) (by decide))

/-- There is no limit, and a frame has the longest length of all: its body is written into 39 bytes. -/
theorem decode_overruns :
    ¬∀ (cfg : DecoderConfig) (v : Version) (cs cs' : List Chunk), Receivable cfg v cs → Receivable cfg v cs' →
      cs.flatMap Chunk.bytes = cs'.flatMap Chunk.bytes → CutsAgree cfg v cs cs' := by
  intro hall
  let cfg : DecoderConfig := ⟨-1, 2 ^ 64 - 1, 29, 40, fun _ _ => true⟩
  have hreceivable : Receivable cfg .v2 [⟨false, 2 :: List.replicate 8 255⟩] :=
    ⟨fun h => (by cases h), fun _ _ => trivial⟩
  have hin := (inBounds_iff hreceivable).mp (hall cfg .v2 _ _ hreceivable hreceivable rfl).inBounds
  -- The last byte of the length is the one that completes it.
  have hflags : (V2State.stages cfg).settle ⟨.flagsReady, MsgFlags.none, Incoming.init⟩ [2] =
      .ok (none, ⟨⟨.eightByteSizeReady, MsgFlags.none, Incoming.init⟩, [], 8, by decide⟩) :=
    Stages.settle_of_pos rfl _
  have hread : feedAll (V2State.stages cfg).feed V2State.start ([2] ++ (List.replicate 7 255 ++ [])) =
      ([], .ok ⟨⟨.eightByteSizeReady, MsgFlags.none, Incoming.init⟩, List.replicate 7 255, 1, by decide⟩) := by
    rw [Stages.feedAll_stage_ok V2State.start [2] _ rfl hflags, List.append_nil,
      Stages.feedAll_eq_absorb (by decide) (by decide), Stages.absorb_of_lt (by decide)]
    rfl
  refine hin _ 255 [] _ _ rfl hread ⟨rfl, 2 ^ 64 - 1, .inr ⟨rfl, by decide +kernel, le_refl _⟩, by decide, ?_⟩
  exact ⟨by decide, by decide, rfl⟩

end Zmq
