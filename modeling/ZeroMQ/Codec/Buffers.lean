import ZeroMQ.Codec.Zmtp

/-!
# Buffers for bodies

When the length of a message is there, the decoders make room for the body. Here their arithmetic is that of the
machine: lengths are 64 bits wide, the limit for messages is signed, and the size of a buffer is a sum modulo `2^64`.
The sum may wrap around, and then the body does not fit into the buffer.
-/

namespace Zmq

/-! ### Messages -/

/-- `sizeof (content_t)`: four words, and a counter that is padded to another one. -/
def sizeofContent : UInt64 := 40

/-- `max_vsm_size`: what 48 bytes leave besides a pointer, 8 bytes and 3 bytes. -/
def maxVsmSize : UInt64 := 29

/-- Where the body of a message goes. -/
inductive MsgBuffer
  /-- Into the message itself. -/
  | vsm (size : UInt64)
  /-- Behind the `content_t` in memory that has been allocated. -/
  | lmsg (size allocated : UInt64)
  deriving DecidableEq, Repr

namespace MsgBuffer

/-- There is room for the body. -/
def Holds : MsgBuffer → Prop
  | vsm size => size ≤ maxVsmSize
  | lmsg size allocated => sizeofContent.toNat + size.toNat ≤ allocated.toNat

instance : DecidablePred Holds := fun buffer =>
  match buffer with
  | vsm size => inferInstanceAs (Decidable (size ≤ maxVsmSize))
  | lmsg size allocated => inferInstanceAs (Decidable (sizeofContent.toNat + size.toNat ≤ allocated.toNat))

/-- `msg_t::init_size`. -/
def initSize (malloc : UInt64 → Bool) (size : UInt64) : Option MsgBuffer :=
  if size ≤ maxVsmSize then some (vsm size)
  else if malloc (sizeofContent + size) then some (lmsg size (sizeofContent + size))
  else none

end MsgBuffer

/-! ### Lengths -/

/-- What the arithmetic of a decoder depends on: the option `ZMQ_MAXMSGSIZE`, and which calls of `malloc` succeed. -/
structure DecoderLimits where
  maxmsgsize : Int64
  malloc : UInt64 → Bool

/-- The field of a message that says how long it is. -/
inductive LengthField
  | oneByte (length : UInt8)
  | eightByte (length : UInt64)
  deriving DecidableEq, Repr

/-- How long the body is that a field announces; version 1 counts the flags, too. -/
def LengthField.bodyLength : Version → LengthField → ℕ
  | .v1, oneByte length => length.toNat - 1
  | .v1, eightByte length => length.toNat - 1
  | .v2, oneByte length => length.toNat
  | .v2, eightByte length => length.toNat

namespace DecoderLimits

/-- Make room for a body. -/
def initSize (l : DecoderLimits) (size : UInt64) : Except DecodeFault (Option MsgBuffer) :=
  match MsgBuffer.initSize l.malloc size with
  | none => .error .enomem
  | some buffer => .ok (some buffer)

/-- `v1_decoder_t::one_byte_size_ready`; the result is the buffer if the length is there. -/
def v1OneByteSizeReady (l : DecoderLimits) (length : UInt8) : Except DecodeFault (Option MsgBuffer) :=
  if length = 0xff then .ok none
  else if length = 0 then .error .eproto
  else if l.maxmsgsize ≥ 0 ∧ (length - 1).toUInt64.toInt64 > l.maxmsgsize then .error .emsgsize
  else l.initSize (length - 1).toUInt64

/-- `v1_decoder_t::eight_byte_size_ready`. -/
def v1EightByteSizeReady (l : DecoderLimits) (payloadLength : UInt64) : Except DecodeFault (Option MsgBuffer) :=
  if payloadLength = 0 then .error .eproto
  else if l.maxmsgsize ≥ 0 ∧ payloadLength - 1 > l.maxmsgsize.toUInt64 then .error .emsgsize
  else if payloadLength - 1 > UInt64.ofNat (2 ^ 64 - 1) then .error .emsgsize
  else l.initSize (payloadLength - 1)

/-- `v2_decoder_t::one_byte_size_ready`. -/
def v2OneByteSizeReady (l : DecoderLimits) (length : UInt8) : Except DecodeFault (Option MsgBuffer) :=
  if l.maxmsgsize ≥ 0 ∧ length.toUInt64 > l.maxmsgsize.toUInt64 then .error .emsgsize
  else l.initSize length.toUInt64

/-- `v2_decoder_t::eight_byte_size_ready`; `size_t` has 64 bits. -/
def v2EightByteSizeReady (l : DecoderLimits) (msgSize : UInt64) : Except DecodeFault (Option MsgBuffer) :=
  if l.maxmsgsize ≥ 0 ∧ msgSize > l.maxmsgsize.toUInt64 then .error .emsgsize
  else l.initSize msgSize

/-- The decoders when a length is there. -/
def sizeReady (l : DecoderLimits) : Version → LengthField → Except DecodeFault (Option MsgBuffer)
  | .v1, .oneByte length => l.v1OneByteSizeReady length
  | .v1, .eightByte length => l.v1EightByteSizeReady length
  | .v2, .oneByte length => l.v2OneByteSizeReady length
  | .v2, .eightByte length => l.v2EightByteSizeReady length

end DecoderLimits

/-! ### Room -/

/-- If a decoder goes on to read a body, there is room for it. -/
def RoomForBody (r : Except DecodeFault (Option MsgBuffer)) : Prop :=
  ∀ buffer, r = .ok (some buffer) → buffer.Holds

lemma RoomForBody.error (e : DecodeFault) : RoomForBody (.error e) := fun _ h => (by cases h)

lemma roomForBody_initSize_iff (maxmsgsize : Int64) (size : UInt64) :
    (∀ malloc, RoomForBody (DecoderLimits.initSize ⟨maxmsgsize, malloc⟩ size)) ↔
      size.toNat + sizeofContent.toNat < 2 ^ 64 := by
  have hsize := size.toNat_lt
  have hsum : (sizeofContent + size).toNat = (sizeofContent.toNat + size.toNat) % 2 ^ 64 := UInt64.toNat_add _ _
  have hcontent : sizeofContent.toNat = 40 := rfl
  have hvsm : maxVsmSize.toNat = 29 := rfl
  by_cases hsmall : size ≤ maxVsmSize
  · have hle : size.toNat ≤ 29 := UInt64.le_iff_toNat_le.mp hsmall
    refine iff_of_true (fun malloc buffer hbuffer => ?_) (by omega)
    rw [DecoderLimits.initSize, MsgBuffer.initSize, if_pos hsmall] at hbuffer
    obtain rfl : MsgBuffer.vsm size = buffer := Option.some.inj (Except.ok.inj hbuffer)
    exact hsmall
  · constructor
    · intro h
      have hholds := h (fun _ => true) (.lmsg size (sizeofContent + size)) (by
        rw [DecoderLimits.initSize, MsgBuffer.initSize, if_neg hsmall, if_pos rfl])
      have hle : sizeofContent.toNat + size.toNat ≤ (sizeofContent + size).toNat := hholds
      omega
    · intro hlt malloc buffer hbuffer
      rw [DecoderLimits.initSize, MsgBuffer.initSize, if_neg hsmall] at hbuffer
      split at hbuffer
      · cases hbuffer
      next buffer' hmalloc =>
      split at hmalloc
      · obtain rfl := Option.some.inj (Except.ok.inj hbuffer)
        obtain rfl := Option.some.inj hmalloc
        exact (by omega : sizeofContent.toNat + size.toNat ≤ (sizeofContent + size).toNat)
      · cases hmalloc

lemma lt_of_le_maxmsgsize {maxmsgsize : Int64} (hmax : maxmsgsize ≥ 0) {size : UInt64}
    (hsize : ¬size > maxmsgsize.toUInt64) : size.toNat + sizeofContent.toNat < 2 ^ 64 := by
  have hle : size.toNat ≤ maxmsgsize.toUInt64.toNat := Nat.le_of_not_lt hsize
  have hlt : maxmsgsize.toUInt64.toNat < 2 ^ 63 := by
    rw [Int64.toNat_toUInt64_of_le hmax]
    have := maxmsgsize.toInt_lt
    rw [Int64.toNatClampNeg]
    omega
  have hcontent : sizeofContent.toNat = 40 := rfl
  omega

lemma roomForBody_limited_iff (maxmsgsize : Int64) (size : UInt64) :
    (∀ malloc, RoomForBody (if maxmsgsize ≥ 0 ∧ size > maxmsgsize.toUInt64 then .error .emsgsize
      else DecoderLimits.initSize ⟨maxmsgsize, malloc⟩ size)) ↔
      maxmsgsize ≥ 0 ∨ size.toNat + sizeofContent.toNat < 2 ^ 64 := by
  by_cases hlong : maxmsgsize ≥ 0 ∧ size > maxmsgsize.toUInt64
  · refine iff_of_true (fun malloc => ?_) (.inl hlong.1)
    rw [if_pos hlong]
    exact RoomForBody.error _
  · simp only [if_neg hlong]
    rw [roomForBody_initSize_iff]
    constructor
    · exact .inr
    · rintro (hmax | hlt)
      · exact lt_of_le_maxmsgsize hmax fun hsize => hlong ⟨hmax, hsize⟩
      · exact hlt

lemma roomForBody_oneByte (l : DecoderLimits) (length : UInt8) : RoomForBody (l.initSize length.toUInt64) := by
  have hlength := length.toNat_lt
  have hcontent : sizeofContent.toNat = 40 := rfl
  refine (roomForBody_initSize_iff l.maxmsgsize length.toUInt64).mpr ?_ l.malloc
  rw [UInt8.toNat_toUInt64]
  omega

/-- **Room for bodies.** Whatever memory there is, a decoder that goes on to read a body has room for it, unless there
is no limit for messages and the length is so large that the size of the buffer wraps around. -/
theorem buffers_hold_bodies_iff (v : Version) (maxmsgsize : Int64) (field : LengthField) :
    (∀ malloc, RoomForBody (DecoderLimits.sizeReady ⟨maxmsgsize, malloc⟩ v field)) ↔
      maxmsgsize ≥ 0 ∨ field.bodyLength v + sizeofContent.toNat < 2 ^ 64 := by
  have hcontent : sizeofContent.toNat = 40 := rfl
  cases field with
  | oneByte length =>
    have hlength := length.toNat_lt
    have hshort : (LengthField.oneByte length).bodyLength v + sizeofContent.toNat < 2 ^ 64 := by
      cases v <;> simp only [LengthField.bodyLength] <;> omega
    refine iff_of_true (fun malloc => ?_) (.inr hshort)
    cases v with
    | v1 =>
      simp only [DecoderLimits.sizeReady, DecoderLimits.v1OneByteSizeReady]
      split_ifs
      · exact fun buffer h => (by cases h)
      · exact RoomForBody.error _
      · exact RoomForBody.error _
      · exact roomForBody_oneByte _ _
    | v2 =>
      simp only [DecoderLimits.sizeReady, DecoderLimits.v2OneByteSizeReady]
      split_ifs
      · exact RoomForBody.error _
      · exact roomForBody_oneByte _ _
  | eightByte length =>
    cases v with
    | v1 =>
      by_cases hzero : length = 0
      · refine iff_of_true (fun malloc => ?_) (.inr ?_)
        · rw [DecoderLimits.sizeReady, DecoderLimits.v1EightByteSizeReady, if_pos hzero]
          exact RoomForBody.error _
        · rw [hzero]
          decide
      · have hpos : length.toNat ≠ 0 := fun h => hzero (UInt64.toNat_inj.mp h)
        have hbody : (length - 1).toNat = length.toNat - 1 :=
          UInt64.toNat_sub_of_le length 1 (UInt64.le_iff_toNat_le.mpr (Nat.pos_of_ne_zero hpos))
        have hfits : ¬length - 1 > UInt64.ofNat (2 ^ 64 - 1) := by
          have hlt := (length - 1).toNat_lt
          have hmax : (UInt64.ofNat (2 ^ 64 - 1)).toNat = 2 ^ 64 - 1 := rfl
          rw [gt_iff_lt, UInt64.lt_iff_toNat_lt]
          omega
        have hlimited := roomForBody_limited_iff maxmsgsize (length - 1)
        rw [hbody] at hlimited
        simp only [DecoderLimits.sizeReady, DecoderLimits.v1EightByteSizeReady, if_neg hzero, if_neg hfits]
        exact hlimited
    | v2 => exact roomForBody_limited_iff maxmsgsize length

/-- The longest length of all gets 39 bytes, when there is no limit. -/
theorem buffer_wraps_around :
    ¬RoomForBody (DecoderLimits.sizeReady ⟨-1, fun _ => true⟩ .v2 (.eightByte 0xffffffffffffffff)) := by
  intro h
  have hholds := h (.lmsg 0xffffffffffffffff 39) (by decide +kernel)
  exact absurd hholds (by decide +kernel)

/-! ### The decoders -/

/-- The decoders' parameters for the arithmetic of the machine. -/
def DecoderLimits.config (l : DecoderLimits) : DecoderConfig :=
  ⟨l.maxmsgsize.toInt, 2 ^ 64 - 1, 29, 40, fun _ size => l.malloc (UInt64.ofNat size)⟩

/-- What an action of a decoder does with a length is what the arithmetic says: it fails with the same error, and
leaves the bounds of the buffer exactly if there is no room for the body. -/
structure ActsAs {σ : Type} (act : Except DecodeFault (Option Msg × ℕ × σ))
    (r : Except DecodeFault (Option MsgBuffer)) : Prop where
  error_iff : ∀ e, e ≠ .outOfBounds → (act = .error e ↔ r = .error e)
  outOfBounds_iff : act = .error .outOfBounds ↔ ¬RoomForBody r

lemma ActsAs.error {σ : Type} {e : DecodeFault} (he : e ≠ .outOfBounds) :
    ActsAs (σ := σ) (.error e) (.error e) where
  error_iff _ _ := ⟨fun h => by rw [Except.error.inj h], fun h => by rw [Except.error.inj h]⟩
  outOfBounds_iff := iff_of_false (fun h => he (Except.error.inj h)) fun h => h (RoomForBody.error e)

section Acts

variable (l : DecoderLimits) {tmpbuf : List UInt8}

lemma exceeds_config_iff (size : UInt64) :
    l.config.exceeds size.toNat = true ↔ l.maxmsgsize ≥ 0 ∧ size > l.maxmsgsize.toUInt64 := by
  have hnonneg : l.maxmsgsize ≥ 0 ↔ 0 ≤ l.maxmsgsize.toInt := Int64.le_iff_toInt_le
  rw [DecoderConfig.exceeds, decide_eq_true_eq, hnonneg]
  refine and_congr_right fun hmax => ?_
  have hmax : 0 ≤ l.maxmsgsize.toInt := hmax
  have hnat : (l.maxmsgsize.toUInt64.toNat : ℤ) = l.maxmsgsize.toInt := by
    rw [Int64.toNat_toUInt64_of_le (hnonneg.mpr hmax), Int64.toNatClampNeg]
    omega
  rw [gt_iff_lt, gt_iff_lt, UInt64.lt_iff_toNat_lt]
  change l.maxmsgsize.toInt < _ ↔ _
  omega

/-- `init_size` with a sum of natural numbers that wraps around, and with the sum of the machine. -/
lemma actsAs_initSize (size : UInt64) (p : Incoming) {σ : Type} (f : Incoming → Option Msg × ℕ × σ) :
    ActsAs ((p.initSize l.config size.toNat).map f) (l.initSize size) := by
  have hsize := size.toNat_lt
  have hcontent : sizeofContent.toNat = 40 := rfl
  have hsum : (sizeofContent + size).toNat = (40 + size.toNat) % 2 ^ 64 := UInt64.toNat_add _ _
  have hsmall : size.toNat ≤ 29 ↔ size ≤ maxVsmSize := by
    rw [UInt64.le_iff_toNat_le]
    rfl
  have harg : UInt64.ofNat ((40 + size.toNat) % (2 ^ 64 - 1 + 1)) = sizeofContent + size := by
    refine UInt64.toNat_inj.mp ?_
    rw [hsum, UInt64.toNat_ofNat']
    omega
  have hinit : p.initSize l.config size.toNat =
      if size ≤ maxVsmSize then .ok ⟨size.toNat, MsgFlags.none, p.mallocs⟩
      else if l.malloc (sizeofContent + size) then
        if 2 ^ 64 - 1 < 40 + size.toNat then .error .outOfBounds
        else .ok ⟨size.toNat, MsgFlags.none, p.mallocs + 1⟩
      else .error .enomem := by
    rw [← harg]
    simp only [← hsmall]
    rfl
  rw [hinit, DecoderLimits.initSize, MsgBuffer.initSize]
  by_cases hvsm : size ≤ maxVsmSize
  · rw [if_pos hvsm, if_pos hvsm]
    refine ⟨fun e _ => iff_of_false (fun h => (by cases h)) fun h => (by cases h),
      iff_of_false (fun h => (by cases h)) fun h => h fun buffer hbuffer => ?_⟩
    obtain rfl := Option.some.inj (Except.ok.inj hbuffer)
    exact hvsm
  rw [if_neg hvsm, if_neg hvsm]
  by_cases hmem : l.malloc (sizeofContent + size) = true
  · have hroom : RoomForBody (.ok (some (.lmsg size (sizeofContent + size)))) ↔ ¬2 ^ 64 - 1 < 40 + size.toNat := by
      constructor
      · intro h
        have hholds : sizeofContent.toNat + size.toNat ≤ (sizeofContent + size).toNat := h _ rfl
        omega
      · intro hle buffer hbuffer
        obtain rfl := Option.some.inj (Except.ok.inj hbuffer)
        exact (by omega : sizeofContent.toNat + size.toNat ≤ (sizeofContent + size).toNat)
    rw [if_pos hmem, if_pos hmem]
    by_cases hwrap : 2 ^ 64 - 1 < 40 + size.toNat
    · rw [if_pos hwrap]
      refine ⟨fun e he => iff_of_false (fun h => he (Except.error.inj h).symm) fun h => (by cases h), ?_⟩
      exact iff_of_true rfl fun h => hroom.mp h hwrap
    · rw [if_neg hwrap]
      refine ⟨fun e _ => iff_of_false (fun h => (by cases h)) fun h => (by cases h), ?_⟩
      exact iff_of_false (fun h => (by cases h)) fun h => h (hroom.mpr hwrap)
  · rw [if_neg hmem, if_neg hmem]
    exact ActsAs.error (by decide)

/-- Both compare the length with the limit before they make room. -/
lemma ActsAs.limited {σ : Type} {act : Except DecodeFault (Option Msg × ℕ × σ)}
    {r : Except DecodeFault (Option MsgBuffer)} (size : UInt64) (h : ActsAs act r) :
    ActsAs (if l.config.exceeds size.toNat then .error .emsgsize else act)
      (if l.maxmsgsize ≥ 0 ∧ size > l.maxmsgsize.toUInt64 then .error .emsgsize else r) := by
  by_cases hlong : l.maxmsgsize ≥ 0 ∧ size > l.maxmsgsize.toUInt64
  · rw [if_pos hlong, if_pos ((exceeds_config_iff l size).mpr hlong)]
    exact ActsAs.error (by decide)
  · rw [if_neg hlong, if_neg (mt (exceeds_config_iff l size).mp hlong)]
    exact h

lemma V1State.actsAs_initSize (s : V1State) (size : UInt64) :
    ActsAs (s.initSize l.config size.toNat) (l.initSize size) := by
  have h := Zmq.actsAs_initSize l size s.inProgress fun p => (none, 1, V1State.mk .flagsReady p)
  unfold V1State.initSize
  cases hp : s.inProgress.initSize l.config size.toNat <;> rw [hp] at h <;> exact h

lemma V2State.actsAs_initSize (s : V2State) (size : UInt64) :
    ActsAs (s.initSize l.config size.toNat) (l.initSize size) := by
  have h := Zmq.actsAs_initSize l size s.inProgress fun p => (none, p.size,
    { s with next := .messageReady, inProgress := { p with flags := s.msgFlags } })
  unfold V2State.initSize
  cases hp : s.inProgress.initSize l.config size.toNat <;> rw [hp] at h <;> exact h

/-- The comparison of a short length with the limit, as signed numbers. -/
lemma signed_gt_iff (size : UInt8) :
    (l.maxmsgsize ≥ 0 ∧ size.toUInt64.toInt64 > l.maxmsgsize) ↔
      l.maxmsgsize ≥ 0 ∧ size.toUInt64 > l.maxmsgsize.toUInt64 := by
  have hsize := size.toNat_lt
  have hint : size.toUInt64.toInt64.toInt = size.toNat := by
    have hwide : size.toUInt64 = UInt64.ofNat size.toNat := by
      rw [← UInt8.toNat_toUInt64, UInt64.ofNat_toNat]
    rw [hwide, UInt64.toInt64_ofNat', Int64.toInt_ofNat_of_lt (by omega)]
  rw [← exceeds_config_iff, DecoderConfig.exceeds, decide_eq_true_eq, UInt8.toNat_toUInt64, ge_iff_le, gt_iff_lt,
    Int64.le_iff_toInt_le, Int64.lt_iff_toInt_lt, hint]
  rfl

/-- **One arithmetic.** The actions of the decoder of version 1 on a length, with natural numbers, are those with
the numbers of the machine. -/
theorem V1State.act_size (s : V1State) :
    (∀ length : UInt8, s.next = .oneByteSizeReady →
      ActsAs (act l.config s [length]) (l.sizeReady .v1 (.oneByte length))) ∧
    ∀ length : UInt64, s.next = .eightByteSizeReady → getUint64 tmpbuf = length.toNat →
      ActsAs (act l.config s tmpbuf) (l.sizeReady .v1 (.eightByte length)) := by
  refine ⟨fun length hnext => ?_, fun length hnext hlength => ?_⟩
  · have hff : length.toNat = 0xff ↔ length = 0xff := UInt8.toNat_inj (b := 0xff)
    have hzero : length.toNat = 0 ↔ length = 0 := UInt8.toNat_inj (b := 0)
    rw [act, hnext]
    simp only [List.getD_cons_zero, hff, hzero, DecoderLimits.sizeReady, DecoderLimits.v1OneByteSizeReady,
      signed_gt_iff]
    by_cases hlong : length = 0xff
    · rw [if_pos hlong, if_pos hlong]
      exact ⟨fun e _ => iff_of_false (fun h => (by cases h)) fun h => (by cases h),
        iff_of_false (fun h => (by cases h)) fun h => h fun buffer hbuffer => (by cases hbuffer)⟩
    · rw [if_neg hlong, if_neg hlong]
      by_cases hnone : length = 0
      · rw [if_pos hnone, if_pos hnone]
        exact ActsAs.error (by decide)
      · have hbody : (length - 1).toUInt64.toNat = length.toNat - 1 := by
          rw [UInt8.toNat_toUInt64]
          exact UInt8.toNat_sub_of_le length 1
            (UInt8.le_iff_toNat_le.mpr (Nat.pos_of_ne_zero fun h => hnone (hzero.mp h)))
        rw [if_neg hnone, if_neg hnone, ← hbody]
        exact ActsAs.limited l _ (V1State.actsAs_initSize l s _)
  · have hzero : length.toNat = 0 ↔ length = 0 := UInt64.toNat_inj (b := 0)
    rw [act, hnext]
    simp only [hlength, hzero, DecoderLimits.sizeReady, DecoderLimits.v1EightByteSizeReady]
    by_cases hnone : length = 0
    · rw [if_pos hnone, if_pos hnone]
      exact ActsAs.error (by decide)
    · have hlt := length.toNat_lt
      have hbody : (length - 1).toNat = length.toNat - 1 :=
        UInt64.toNat_sub_of_le length 1
          (UInt64.le_iff_toNat_le.mpr (Nat.pos_of_ne_zero fun h => hnone (hzero.mp h)))
      have hmax : (UInt64.ofNat (2 ^ 64 - 1)).toNat = 2 ^ 64 - 1 := rfl
      have hfits : ¬length - 1 > UInt64.ofNat (2 ^ 64 - 1) := by
        rw [gt_iff_lt, UInt64.lt_iff_toNat_lt]
        omega
      have hfits' : ¬length.toNat - 1 > l.config.sizeMax := by
        change ¬_ > 2 ^ 64 - 1
        omega
      rw [if_neg hnone, if_neg hnone, if_neg hfits, if_neg hfits', ← hbody]
      exact ActsAs.limited l _ (V1State.actsAs_initSize l s _)

/-- So it is with the decoder of version 2. -/
theorem V2State.act_size (s : V2State) :
    (∀ length : UInt8, s.next = .oneByteSizeReady →
      ActsAs (act l.config s [length]) (l.sizeReady .v2 (.oneByte length))) ∧
    ∀ length : UInt64, s.next = .eightByteSizeReady → getUint64 tmpbuf = length.toNat →
      ActsAs (act l.config s tmpbuf) (l.sizeReady .v2 (.eightByte length)) := by
  refine ⟨fun length hnext => ?_, fun length hnext hlength => ?_⟩
  · have h := ActsAs.limited l length.toUInt64 (V2State.actsAs_initSize l s length.toUInt64)
    rw [UInt8.toNat_toUInt64] at h
    rw [act, hnext]
    exact h
  · have hfits : length.toNat = length.toNat % (l.config.sizeMax + 1) := by
      have hlt := length.toNat_lt
      change _ = _ % (2 ^ 64 - 1 + 1)
      omega
    rw [act, hnext]
    dsimp only
    rw [hlength, if_neg (not_not.mpr hfits)]
    exact ActsAs.limited l _ (V2State.actsAs_initSize l s length)

end Acts

end Zmq
