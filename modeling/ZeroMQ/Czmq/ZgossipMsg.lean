import ZeroMQ.Codec.Wire
import ZeroMQ.Czmq.Zhash

/-!
# The messages of the gossip protocol

A message is one frame: a signature, the number of the message, a version, and for `PUBLISH` a key with a length of
one byte, a value with a length of four bytes, and a time to live, which no node reads.

The functions that set the key and the value of a message take a format, and the nodes give them the key and the
value themselves. `Sendable` says of a tuple that it is received as it is.
-/

namespace Czmq

open Zmq List Option

/-- A key with its value. -/
abbrev Tuple := (_ : CString) × CString

/-- What goes wrong at a node. -/
inductive GossipFault
  /-- An argument of a format is read that there is not. -/
  | undefined
  deriving DecidableEq, Repr

/-! ### Formats -/

/-- The character `%`. -/
def percent : UInt8 := 37

/-- What a format without arguments prints: only `%%` can be in it. -/
def expand : List UInt8 → Option (List UInt8)
  | [] => some []
  | [c] => if c = percent then none else some [c]
  | c :: c' :: rest =>
    if c = percent then if c' = percent then (expand rest).map (percent :: ·) else none
    else (expand (c' :: rest)).map (c :: ·)

lemma expand_eq_self {bytes : List UInt8} (h : percent ∉ bytes) : expand bytes = some bytes := by
  fun_induction expand bytes with
  | case1 => rfl
  | case2 => exact absurd mem_cons_self h
  | case3 => rfl
  | case4 | case5 => exact absurd mem_cons_self h
  | case6 c c' rest _ ih =>
    rw [ih fun hmem => h (mem_cons_of_mem c hmem)]
    rfl

lemma mem_of_expand {bytes printed : List UInt8} (h : expand bytes = some printed) {c : UInt8} (hc : c ∈ printed) :
    c ∈ bytes := by
  fun_induction expand bytes generalizing printed with
  | case1 =>
    cases h
    exact hc
  | case2 => cases h
  | case3 =>
    cases h
    exact hc
  | case4 rest ih =>
    obtain ⟨tail, htail, rfl⟩ := map_eq_some_iff.mp h
    rcases mem_cons.mp hc with rfl | hc
    · exact mem_cons_self
    · exact mem_cons_of_mem _ (mem_cons_of_mem _ (ih htail hc))
  | case5 => cases h
  | case6 c' _ rest _ ih =>
    obtain ⟨tail, htail, rfl⟩ := map_eq_some_iff.mp h
    rcases mem_cons.mp hc with rfl | hc
    · exact mem_cons_self
    · exact mem_cons_of_mem _ (ih htail hc)

/-- `zsys_vprintf` without arguments. -/
def zsysVprintf (format : CString) : Except GossipFault CString :=
  match h : expand format.bytes with
  | some bytes => .ok ⟨bytes, fun h0 => format.noZero (mem_of_expand h h0)⟩
  | none => .error .undefined

lemma zsysVprintf_eq_self {format : CString} (h : percent ∉ format.bytes) : zsysVprintf format = .ok format := by
  rw [zsysVprintf]
  split
  · rename_i bytes hbytes
    rw [expand_eq_self h] at hbytes
    cases hbytes
    rfl
  · rename_i hnone
    rw [expand_eq_self h] at hnone
    cases hnone

/-! ### Frames -/

/-- `zgossip_msg_t`. -/
inductive ZgossipMsg
  | hello
  | publish (key value : CString) (ttl : ℕ)
  | ping
  | pong
  | invalid
  deriving DecidableEq

/-- The tuple of a `PUBLISH`. -/
def ZgossipMsg.tuple : ZgossipMsg → Option Tuple
  | .publish key value _ => some ⟨key, value⟩
  | _ => none

/-- `PUT_STRING`. -/
def putString (string : CString) : List UInt8 := UInt8.ofNat string.bytes.length :: string.bytes

/-- `PUT_LONGSTR`. -/
def putLongstr (string : CString) : List UInt8 := putUint32 string.bytes.length ++ string.bytes

/-- `zgossip_msg_encode`. -/
def ZgossipMsg.encode : ZgossipMsg → List UInt8
  | .hello => [0xAA, 0xA0, 1, 1]
  | .publish key value ttl => [0xAA, 0xA0, 2, 1] ++ (putString key ++ (putLongstr value ++ putUint32 ttl))
  | .ping => [0xAA, 0xA0, 3, 1]
  | .pong => [0xAA, 0xA0, 4, 1]
  | .invalid => [0xAA, 0xA0, 5, 1]

/-- Bytes read as a string, which ends at the first zero. -/
def CString.read (bytes : List UInt8) : CString where
  bytes := bytes.takeWhile (· ≠ 0)
  noZero := zero_notMem_takeWhile bytes

/-- `GET_NUMBER1`. -/
def getNumber1 : List UInt8 → Option (ℕ × List UInt8)
  | [] => none
  | byte :: needle => some (byte.toNat, needle)

/-- `GET_NUMBER4`. -/
def getNumber4 (needle : List UInt8) : Option (ℕ × List UInt8) :=
  if needle.length < 4 then none else some (getUint32 (needle.take 4), needle.drop 4)

/-- The part of `GET_STRING` and `GET_LONGSTR` after the length. -/
def getString (size : ℕ) (needle : List UInt8) : Option (CString × List UInt8) :=
  if needle.length < size then none else some (CString.read (needle.take size), needle.drop size)

/-- The fields of `PUBLISH`. -/
def decodePublish (needle : List UInt8) : Option ZgossipMsg := do
  let (size, needle) ← getNumber1 needle
  let (key, needle) ← getString size needle
  let (size, needle) ← getNumber4 needle
  let (value, needle) ← getString size needle
  let (ttl, _) ← getNumber4 needle
  some (.publish key value ttl)

/-- `zgossip_msg_decode`. -/
def ZgossipMsg.decode : List UInt8 → Option ZgossipMsg
  | 0xAA :: 0xA0 :: 1 :: 1 :: _ => some .hello
  | 0xAA :: 0xA0 :: 2 :: 1 :: needle => decodePublish needle
  | 0xAA :: 0xA0 :: 3 :: 1 :: _ => some .ping
  | 0xAA :: 0xA0 :: 4 :: 1 :: _ => some .pong
  | 0xAA :: 0xA0 :: 5 :: 1 :: _ => some .invalid
  | _ => none

lemma CString.read_bytes (string : CString) : CString.read string.bytes = string := by
  have hwhile : string.bytes.takeWhile (· ≠ 0) = string.bytes := by
    rw [takeWhile_eq_self_iff]
    intro byte hbyte
    have hne : byte ≠ 0 := fun h => string.noZero (h ▸ hbyte)
    exact decide_eq_true hne
  cases string
  rw [CString.read]
  congr

lemma getString_append (string : CString) (after : List UInt8) :
    getString string.bytes.length (string.bytes ++ after) = some (string, after) := by
  rw [getString, if_neg (by rw [length_append]; omega), take_left' rfl, drop_left' rfl, CString.read_bytes]

lemma getNumber4_append {value : ℕ} (h : value < 2 ^ 32) (after : List UInt8) :
    getNumber4 (putUint32 value ++ after) = some (value, after) := by
  have hlength := length_putUint32 value
  rw [getNumber4, if_neg (by rw [length_append]; omega), take_left' hlength, drop_left' hlength,
    getUint32_putUint32 h]

lemma ZgossipMsg.decode_publish {key value : CString} {ttl : ℕ} (hkey : key.bytes.length < 2 ^ 8)
    (hvalue : value.bytes.length < 2 ^ 32) (httl : ttl < 2 ^ 32) :
    decode (encode (.publish key value ttl)) = some (.publish key value ttl) := by
  have hsize : (UInt8.ofNat key.bytes.length).toNat = key.bytes.length := by
    rw [UInt8.toNat_ofNat']
    exact Nat.mod_eq_of_lt hkey
  have httl' := getNumber4_append httl []
  rw [append_nil] at httl'
  change decodePublish (putString key ++ (putLongstr value ++ putUint32 ttl)) = _
  rw [decodePublish, putString, putLongstr, cons_append, append_assoc]
  simp only [getNumber1, hsize, getString_append, getNumber4_append hvalue, httl', bind_eq_bind,
    bind_some]

/-! ### Sending a tuple -/

/-- `zgossip_msg_set_key`, `zgossip_msg_set_value` and `zgossip_msg_send` of a `PUBLISH`. -/
def sendPublish (tuple : Tuple) : Except GossipFault (List UInt8) := do
  let key ← zsysVprintf tuple.1
  let value ← zsysVprintf tuple.2
  .ok (ZgossipMsg.encode (.publish key value 0))

/-- A tuple that is received as it is. -/
structure Sendable (tuple : Tuple) : Prop where
  plainKey : percent ∉ tuple.1.bytes
  plainValue : percent ∉ tuple.2.bytes
  shortKey : tuple.1.bytes.length < 2 ^ 8
  shortValue : tuple.2.bytes.length < 2 ^ 32

instance (tuple : Tuple) : Decidable (Sendable tuple) :=
  decidable_of_iff (percent ∉ tuple.1.bytes ∧ percent ∉ tuple.2.bytes ∧ tuple.1.bytes.length < 2 ^ 8 ∧
    tuple.2.bytes.length < 2 ^ 32) ⟨fun h => ⟨h.1, h.2.1, h.2.2.1, h.2.2.2⟩, fun h => ⟨h.1, h.2, h.3, h.4⟩⟩

/-- The frame for a tuple. -/
def Tuple.frame (tuple : Tuple) : List UInt8 := ZgossipMsg.encode (.publish tuple.1 tuple.2 0)

lemma Sendable.send {tuple : Tuple} (h : Sendable tuple) : sendPublish tuple = .ok tuple.frame := by
  rw [sendPublish, zsysVprintf_eq_self h.plainKey, zsysVprintf_eq_self h.plainValue]
  rfl

lemma Sendable.decode {tuple : Tuple} (h : Sendable tuple) :
    ZgossipMsg.decode tuple.frame = some (.publish tuple.1 tuple.2 0) :=
  ZgossipMsg.decode_publish h.shortKey h.shortValue (by decide)

lemma Sendable.frame_inj {t t' : Tuple} (h : Sendable t) (h' : Sendable t') (hframe : t.frame = t'.frame) :
    t = t' := by
  have hdecode := h.decode
  rw [hframe, h'.decode] at hdecode
  injection hdecode with hmsg
  injection hmsg with hkey hvalue
  exact Sigma.ext hkey.symm (heq_of_eq hvalue.symm)

end Czmq
