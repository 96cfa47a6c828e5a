import Mathlib.Algebra.Order.Ring.Nat
import Mathlib.Data.Nat.Bitwise
import ZeroMQ.Msg

/-!
# The wire format

Integers travel most significant byte first. In version 1 of the framing a message is its length,
including a byte of flags, that byte and the body; in version 2 it is a byte of flags, the length of
the body and the body. A length takes one byte, or eight if it does not fit: version 1 marks this by
the byte `0xff`, version 2 by a flag.
-/

namespace Zmq

open Nat List UInt8

/-- `put_uint64`. -/
def putUint64 (value : ℕ) : List UInt8 :=
  [UInt8.ofNat ((value >>> 56) &&& 0xff), UInt8.ofNat ((value >>> 48) &&& 0xff),
    UInt8.ofNat ((value >>> 40) &&& 0xff), UInt8.ofNat ((value >>> 32) &&& 0xff),
    UInt8.ofNat ((value >>> 24) &&& 0xff), UInt8.ofNat ((value >>> 16) &&& 0xff),
    UInt8.ofNat ((value >>> 8) &&& 0xff), UInt8.ofNat (value &&& 0xff)]

/-- `get_uint64`. -/
def getUint64 (buffer : List UInt8) : ℕ :=
  let byte (i : ℕ) := (buffer.getD i 0).toNat
  (byte 0 <<< 56) ||| (byte 1 <<< 48) ||| (byte 2 <<< 40) ||| (byte 3 <<< 32) |||
    (byte 4 <<< 24) ||| (byte 5 <<< 16) ||| (byte 6 <<< 8) ||| byte 7

/-- `put_uint32`. -/
def putUint32 (value : ℕ) : List UInt8 :=
  [UInt8.ofNat ((value >>> 24) &&& 0xff), UInt8.ofNat ((value >>> 16) &&& 0xff),
    UInt8.ofNat ((value >>> 8) &&& 0xff), UInt8.ofNat (value &&& 0xff)]

/-- `get_uint32`. -/
def getUint32 (buffer : List UInt8) : ℕ :=
  let byte (i : ℕ) := (buffer.getD i 0).toNat
  (byte 0 <<< 24) ||| (byte 1 <<< 16) ||| (byte 2 <<< 8) ||| byte 3

/-- The characters of a string constant. -/
def ascii (text : String) : List UInt8 := text.toList.map fun c => UInt8.ofNat c.toNat

lemma length_putUint64 (value : ℕ) : (putUint64 value).length = 8 := rfl

lemma toNat_byte (value k : ℕ) : (ofNat ((value >>> k) &&& 0xff)).toNat = value / 2 ^ k % 256 := by
  rw [toNat_ofNat', shiftRight_eq_div_pow, show 0xff = 2 ^ 8 - 1 from rfl, and_two_pow_sub_one_eq_mod]
  omega

lemma shiftLeft_lor {a b k : ℕ} (h : b < 2 ^ k) : (a <<< k) ||| b = a * 2 ^ k + b := by
  rw [← shiftLeft_add_eq_or_of_lt h, shiftLeft_eq]

lemma getUint64_putUint64 {value : ℕ} (h : value < 2 ^ 64) : getUint64 (putUint64 value) = value := by
  have hbyte := toNat_byte value
  have hlast : (ofNat (value &&& 0xff)).toNat = value % 256 := by
    have := hbyte 0
    rwa [Nat.shiftRight_zero, Nat.pow_zero, Nat.div_one] at this
  simp only [getUint64, putUint64, getD_cons_zero, getD_cons_succ, hbyte, hlast, Nat.lor_assoc]
  rw [shiftLeft_lor (k := 8) (by omega), shiftLeft_lor (k := 16) (by omega),
    shiftLeft_lor (k := 24) (by omega), shiftLeft_lor (k := 32) (by omega),
    shiftLeft_lor (k := 40) (by omega), shiftLeft_lor (k := 48) (by omega),
    shiftLeft_lor (k := 56) (by omega)]
  omega

lemma length_putUint32 (value : ℕ) : (putUint32 value).length = 4 := rfl

lemma getUint32_cons (a b c d : UInt8) :
    getUint32 [a, b, c, d] = a.toNat * 2 ^ 24 + (b.toNat * 2 ^ 16 + (c.toNat * 2 ^ 8 + d.toNat)) := by
  have ha := a.toNat_lt
  have hb := b.toNat_lt
  have hc := c.toNat_lt
  have hd := d.toNat_lt
  simp only [getUint32, getD_cons_zero, getD_cons_succ, lor_assoc]
  rw [shiftLeft_lor (k := 8) (by omega), shiftLeft_lor (k := 16) (by omega), shiftLeft_lor (k := 24) (by omega)]

lemma getUint32_putUint32 {value : ℕ} (h : value < 2 ^ 32) : getUint32 (putUint32 value) = value := by
  have hbyte := toNat_byte value
  have hlast : (ofNat (value &&& 0xff)).toNat = value % 256 := by
    have := hbyte 0
    rwa [Nat.shiftRight_zero, Nat.pow_zero, Nat.div_one] at this
  rw [putUint32, getUint32_cons, hbyte, hbyte, hbyte, hlast]
  omega

lemma putUint32_getUint32 {buffer : List UInt8} (h : buffer.length = 4) :
    putUint32 (getUint32 buffer) = buffer ∧ getUint32 buffer < 2 ^ 32 := by
  obtain ⟨a, b, c, d, rfl⟩ : ∃ a b c d, buffer = [a, b, c, d] := length_eq_four.mp h
  have ha := a.toNat_lt
  have hb := b.toNat_lt
  have hc := c.toNat_lt
  have hd := d.toNat_lt
  have hbyte := toNat_byte (getUint32 [a, b, c, d])
  have hlast : (UInt8.ofNat (getUint32 [a, b, c, d] &&& 0xff)).toNat = getUint32 [a, b, c, d] % 256 := by
    have := hbyte 0
    rwa [Nat.shiftRight_zero, Nat.pow_zero, Nat.div_one] at this
  rw [getUint32_cons] at hbyte hlast ⊢
  refine ⟨?_, by omega⟩
  simp only [putUint32, cons.injEq, ← UInt8.toNat_inj, hbyte, hlast, and_true]
  refine ⟨?_, ?_, ?_, ?_⟩ <;> omega

/-- The two framings. -/
inductive Version
  | v1
  | v2
  deriving DecidableEq, Repr

/-- `v2_protocol_t`: the flags of version 2. -/
def v2Flags (more large command : Bool) : UInt8 :=
  (if more then 1 else 0) ||| (if large then 2 else 0) ||| (if command then 4 else 0)

/-- What `message_ready` of the two encoders puts in `tmpbuf`. -/
def header : Version → Msg → List UInt8
  | .v1, m =>
    -- the flags are counted, too
    let size := (m.body.length + 1) % 2 ^ 64
    let flags : UInt8 := if m.more then 1 else 0
    if size < 255 then [UInt8.ofNat size, flags] else 0xff :: putUint64 size ++ [flags]
  | .v2, m =>
    let size := m.body.length
    let flags := v2Flags m.more (size > 255) m.flags.command
    if size > 255 then flags :: putUint64 size else [flags, UInt8.ofNat size]

/-- A message on the wire. -/
def wire (v : Version) (m : Msg) : List UInt8 := header v m ++ m.body

lemma header_ne_nil (v : Version) (m : Msg) : header v m ≠ [] := by
  cases v <;> simp only [header] <;> split <;> simp

end Zmq
