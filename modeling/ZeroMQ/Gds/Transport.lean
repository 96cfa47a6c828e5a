import Mathlib.Data.List.TakeWhile
import ZeroMQ.Gds.Zmsg

/-!
# The transport of the GDS broker

`zmsg` sends its parts as frames and makes parts of the frames it receives. A part is text: what is received is cut
at the first zero byte. A frame of seventeen bytes that begins with a zero is taken for the identity of a peer
without a name and is kept as thirty-three characters, `@` and its bytes in hexadecimal, and a part of so many
characters that begins with `@` is sent as an identity.

Here parts are strings of bytes. `Gds.recvPart` is what is received as a string of characters.
-/

namespace Gds

open List Except

namespace Transport

/-! ### Identities as text -/

/-- `hex_char`. -/
def hexChars : List UInt8 := [48, 49, 50, 51, 52, 53, 54, 55, 56, 57, 65, 66, 67, 68, 69, 70]

/-- `hex_char [digit]`. -/
def hexChar (digit : ℕ) : UInt8 := hexChars.getD digit 48

/-- The two characters of a byte. -/
def hexPair (b : UInt8) : List UInt8 := [hexChar (b.toNat / 16), hexChar (b.toNat % 16)]

/-- `zmsg::encode_uuid`. -/
def encodeUuid (data : List UInt8) : List UInt8 := 64 :: (data.drop 1).flatMap hexPair

/-- `hex_to_bin`, where `255` is -1. -/
def hexToBin : List UInt8 :=
  List.replicate 48 255 ++ [0, 1, 2, 3, 4, 5, 6, 7, 8, 9] ++ List.replicate 7 255 ++ [10, 11, 12, 13, 14, 15] ++
    List.replicate 26 255 ++ [10, 11, 12, 13, 14, 15] ++ List.replicate 25 255

/-- `hex_to_bin [c & 127]`. -/
def hexDigit (c : UInt8) : UInt8 := hexToBin.getD (c &&& 127).toNat 255

/-- The byte of two characters. -/
def hexByte (high low : UInt8) : UInt8 := (hexDigit high <<< 4) + hexDigit low

/-- The loop of `zmsg::decode_uuid`. -/
def decodePairs : List UInt8 → List UInt8
  | high :: low :: rest => hexByte high low :: decodePairs rest
  | _ => []

/-- `zmsg::decode_uuid`. -/
def decodeUuid (uuidstr : List UInt8) : Except BrokerFault (List UInt8) :=
  if (uuidstr.takeWhile (· ≠ 0)).length = 33 ∧ uuidstr.head? = some 64 then .ok (0 :: decodePairs uuidstr.tail)
  else .error .assertion

/-! ### Receiving and sending -/

/-- A frame that is taken for an identity. -/
def IsIdentity (data : List UInt8) : Prop := data.length = 17 ∧ data.head? = some 0

/-- A part that is taken for the text of an identity. -/
def IsAddress (data : List UInt8) : Prop := data.length = 33 ∧ data.head? = some 64

instance (data : List UInt8) : Decidable (IsIdentity data) := by unfold IsIdentity; infer_instance

instance (data : List UInt8) : Decidable (IsAddress data) := by unfold IsAddress; infer_instance

/-- `zmsg::recv` for one frame. -/
def recvPart (data : List UInt8) : List UInt8 :=
  if IsIdentity data then encodeUuid data else data.takeWhile (· ≠ 0)

/-- `zmsg::send` for one part. -/
def sendPart (data : List UInt8) : Except BrokerFault (List UInt8) :=
  if IsAddress data then decodeUuid data else .ok data

/-- `zmsg::recv`. -/
def recv (frames : List (List UInt8)) : List (List UInt8) := frames.map recvPart

/-- `zmsg::send`, with the frames that are sent. -/
def send (parts : List (List UInt8)) : Except BrokerFault (List (List UInt8)) := parts.mapM sendPart

/-! ### Text and identity -/

lemma hexPair_spec (b : UInt8) :
    (∀ c ∈ hexPair b, c ∈ hexChars) ∧ hexByte (hexChar (b.toNat / 16)) (hexChar (b.toNat % 16)) = b := by
  have hall : ∀ n : Fin 256, (hexPair (UInt8.ofNat n)).all (hexChars.contains ·) ∧
      hexByte (hexChar ((n : ℕ) / 16)) (hexChar ((n : ℕ) % 16)) = UInt8.ofNat n := by decide +kernel
  obtain ⟨hmem, hbyte⟩ := hall ⟨b.toNat, b.toNat_lt⟩
  rw [UInt8.ofNat_toNat] at hmem hbyte
  exact ⟨fun c hc => contains_iff_mem.mp (all_eq_true.mp hmem c hc), hbyte⟩

lemma hexPair_hexByte {high low : UInt8} (hhigh : high ∈ hexChars) (hlow : low ∈ hexChars) :
    hexPair (hexByte high low) = [high, low] := by
  have hall : hexChars.all fun high => hexChars.all fun low => hexPair (hexByte high low) = [high, low] := by
    decide +kernel
  have hrow := all_eq_true.mp hall high hhigh
  exact of_decide_eq_true (all_eq_true.mp hrow low hlow)

lemma decodePairs_flatMap (data : List UInt8) : decodePairs (data.flatMap hexPair) = data := by
  induction data with
  | nil => rfl
  | cons b data ih =>
    rw [flatMap_cons]
    change hexByte _ _ :: decodePairs (data.flatMap hexPair) = _
    rw [(hexPair_spec b).2, ih]

lemma length_flatMap_hexPair (data : List UInt8) : (data.flatMap hexPair).length = 2 * data.length := by
  induction data with
  | nil => rfl
  | cons b data ih =>
    rw [flatMap_cons, length_append, ih, length_cons, hexPair]
    simp only [length_cons, length_nil]
    omega

lemma mem_flatMap_hexPair {data : List UInt8} {c : UInt8} (hc : c ∈ data.flatMap hexPair) : c ∈ hexChars := by
  obtain ⟨b, -, hb⟩ := mem_flatMap.mp hc
  exact (hexPair_spec b).1 c hb

/-- A text of an even length that is not empty begins with two characters. -/
lemma exists_pair {n : ℕ} {text : List UInt8} (hlength : text.length = 2 * (n + 1)) :
    ∃ high low rest, text = high :: low :: rest ∧ rest.length = 2 * n := by
  match text, hlength with
  | high :: low :: rest, hlength => exact ⟨high, low, rest, rfl, by simp only [length_cons] at hlength; omega⟩

lemma flatMap_decodePairs (n : ℕ) {text : List UInt8} (hlength : text.length = 2 * n)
    (hdigits : ∀ c ∈ text, c ∈ hexChars) : (decodePairs text).flatMap hexPair = text := by
  induction n generalizing text with
  | zero =>
    obtain rfl := eq_nil_of_length_eq_zero hlength
    rfl
  | succ n ih =>
    obtain ⟨high, low, text, rfl, hrest⟩ := exists_pair hlength
    rw [decodePairs, flatMap_cons, hexPair_hexByte (hdigits high mem_cons_self)
      (hdigits low (mem_cons_of_mem _ mem_cons_self)),
      ih hrest fun c hc => hdigits c (mem_cons_of_mem _ (mem_cons_of_mem _ hc))]
    rfl

lemma length_decodePairs (n : ℕ) {text : List UInt8} (hlength : text.length = 2 * n) :
    (decodePairs text).length = n := by
  induction n generalizing text with
  | zero =>
    obtain rfl := eq_nil_of_length_eq_zero hlength
    rfl
  | succ n ih =>
    obtain ⟨high, low, text, rfl, hrest⟩ := exists_pair hlength
    rw [decodePairs, length_cons, ih hrest]

lemma takeWhile_ne_zero {data : List UInt8} : data.takeWhile (· ≠ 0) = data ↔ 0 ∉ data := by
  rw [takeWhile_eq_self_iff]
  constructor
  · intro h hmem
    exact absurd rfl (of_decide_eq_true (h 0 hmem))
  · intro h b hb
    exact decide_eq_true fun heq => h (heq ▸ hb)

lemma decodeUuid_of_address {data : List UInt8} (h : IsAddress data) (hzero : 0 ∉ data) :
    decodeUuid data = .ok (0 :: decodePairs data.tail) ∧ IsIdentity (0 :: decodePairs data.tail) := by
  have hlength : data.tail.length = 2 * 16 := by rw [length_tail, h.1]
  constructor
  · refine if_pos ⟨?_, h.2⟩
    rw [takeWhile_ne_zero.mpr hzero, h.1]
  · refine ⟨?_, rfl⟩
    rw [length_cons, length_decodePairs 16 hlength]

/-- **An identity** is kept as text that is sent as the identity. -/
theorem sendPart_encodeUuid {data : List UInt8} (h : IsIdentity data) : sendPart (encodeUuid data) = .ok data := by
  obtain ⟨rest, rfl⟩ : ∃ rest, data = 0 :: rest := by
    obtain ⟨b, rest, rfl⟩ := exists_cons_of_length_pos (l := data) (by rw [h.1]; decide)
    exact ⟨rest, by rw [Option.some.inj h.2]⟩
  have hrest : rest.length = 16 := Nat.succ.inj h.1
  have haddress : IsAddress (encodeUuid (0 :: rest)) :=
    ⟨by rw [encodeUuid, length_cons, drop_one, tail_cons, length_flatMap_hexPair, hrest], rfl⟩
  have hzero : 0 ∉ encodeUuid (0 :: rest) := by
    intro hmem
    rcases mem_cons.mp hmem with heq | hmem
    · exact absurd heq (by decide)
    · exact absurd (mem_flatMap_hexPair hmem) (by decide)
  rw [sendPart, if_pos haddress, (decodeUuid_of_address haddress hzero).1]
  change ok (0 :: decodePairs (rest.flatMap hexPair)) = _
  rw [decodePairs_flatMap]

/-! ### What survives -/

/-- A frame that is the same when it is received and sent. -/
def FrameSurvives (data : List UInt8) : Prop := IsIdentity data ∨ (0 ∉ data ∧ ¬ IsAddress data)

/-- A part that is the same when it is sent and received. -/
def PartSurvives (data : List UInt8) : Prop := 0 ∉ data ∧ (IsAddress data → ∀ c ∈ data.tail, c ∈ hexChars)

lemma sendPart_recvPart (data : List UInt8) : sendPart (recvPart data) = .ok data ↔ FrameSurvives data := by
  by_cases hidentity : IsIdentity data
  · rw [recvPart, if_pos hidentity, sendPart_encodeUuid hidentity]
    exact ⟨fun _ => .inl hidentity, fun _ => rfl⟩
  rw [recvPart, if_neg hidentity]
  have hzero : (0 : UInt8) ∉ data.takeWhile (· ≠ 0) := fun hmem => by
    simpa using mem_takeWhile_imp hmem
  by_cases haddress : IsAddress (data.takeWhile (· ≠ 0))
  · obtain ⟨hdecode, hdecoded⟩ := decodeUuid_of_address haddress hzero
    rw [sendPart, if_pos haddress, hdecode]
    constructor
    · intro heq
      exact absurd (ok.inj heq ▸ hdecoded) hidentity
    rintro (hid | ⟨hnot, haddr⟩)
    · exact absurd hid hidentity
    · rw [takeWhile_ne_zero.mpr hnot] at haddress
      exact absurd haddress haddr
  · rw [sendPart, if_neg haddress, ok.injEq, takeWhile_ne_zero]
    constructor
    · intro hnot
      rw [takeWhile_ne_zero.mpr hnot] at haddress
      exact .inr ⟨hnot, haddress⟩
    · exact fun h => (h.resolve_left hidentity).1

lemma recvPart_sendPart (data : List UInt8) : (sendPart data).map recvPart = .ok data ↔ PartSurvives data := by
  by_cases haddress : IsAddress data
  · rw [sendPart, if_pos haddress]
    by_cases hzero : 0 ∈ data
    · have hshort : (data.takeWhile (· ≠ 0)).length ≠ 33 := fun hlength => by
        have hsame : data.takeWhile (· ≠ 0) = data :=
          ( takeWhile_prefix _).eq_of_length (hlength.trans haddress.1.symm)
        exact takeWhile_ne_zero.mp hsame hzero
      rw [decodeUuid, if_neg fun h => hshort h.1]
      exact ⟨fun h => (by cases h), fun h => absurd hzero h.1⟩
    · obtain ⟨hdecode, hdecoded⟩ := decodeUuid_of_address haddress hzero
      obtain ⟨text, rfl⟩ : ∃ text, data = 64 :: text := by
        obtain ⟨b, text, rfl⟩ := exists_cons_of_length_pos (l := data) (by rw [haddress.1]; decide)
        exact ⟨text, by rw [Option.some.inj haddress.2]⟩
      have hlength : text.length = 2 * 16 := Nat.succ.inj haddress.1
      rw [hdecode, Except.map, ok.injEq, recvPart, if_pos hdecoded]
      change 64 :: (decodePairs text).flatMap hexPair = 64 :: text ↔ _
      rw [cons.injEq, eq_self_iff_true, true_and]
      constructor
      · intro heq
        exact ⟨hzero, fun _ c hc => mem_flatMap_hexPair (heq.symm ▸ hc)⟩
      · exact fun h => flatMap_decodePairs 16 hlength (h.2 haddress)
  · rw [sendPart, if_neg haddress, Except.map, ok.injEq, recvPart]
    have hgone : 0 ∈ data → data.takeWhile (· ≠ 0) ≠ data := fun hmem heq => takeWhile_ne_zero.mp heq hmem
    by_cases hidentity : IsIdentity data
    · rw [if_pos hidentity]
      constructor
      · intro heq
        have hlength := congrArg length heq
        rw [encodeUuid, length_cons, length_flatMap_hexPair, length_drop, hidentity.1] at hlength
        exact absurd hlength (by decide)
      · exact fun h => absurd (mem_of_mem_head? hidentity.2) h.1
    · rw [if_neg hidentity, takeWhile_ne_zero]
      exact ⟨fun hzero => ⟨hzero, fun h => absurd h haddress⟩, fun h => h.1⟩

lemma mapM_map_eq_ok {α ε : Type} (g : α → Except ε α) (f : α → α) (l : List α) :
    (l.mapM g).map (map f) = .ok l ↔ ∀ a ∈ l, (g a).map f = .ok a := by
  induction l with
  | nil => exact ⟨fun _ a ha => (by cases ha), fun _ => rfl⟩
  | cons a l ih =>
    rw [forall_mem_cons, ← ih, mapM_cons]
    cases ha : g a with
    | error e => exact ⟨fun h => (by cases h), fun h => (by cases h.1)⟩
    | ok b =>
      cases hl : l.mapM g with
      | error e => exact ⟨fun h => (by cases h), fun h => (by cases h.2)⟩
      | ok bs =>
        simp only [bind, Except.bind, pure, Except.pure, Except.map, ok.injEq, map_cons, cons.injEq]

/-- **The transport.** The frames of a message are received and sent as they are if and only if each of them is an
identity of seventeen bytes, or has no zero byte and is not taken for the text of an identity. The parts of a message
are sent and received as they are if and only if none of them has a zero byte, and those that are taken for the text
of an identity are such a text. -/
theorem transport_iff (frames parts : List (List UInt8)) :
    (send (recv frames) = .ok frames ↔ ∀ data ∈ frames, FrameSurvives data) ∧
      ((send parts).map recv = .ok parts ↔ ∀ data ∈ parts, PartSurvives data) := by
  constructor
  · have hsend : send (recv frames) = (frames.mapM fun data => sendPart (recvPart data)).map (map id) := by
      have hid : ∀ r : Except BrokerFault (List (List UInt8)), r.map (map id) = r := fun r => by
        cases r with
        | error e => rfl
        | ok l => exact congrArg ok (map_id l)
      rw [hid, send, recv, mapM_map]
      rfl
    rw [hsend, mapM_map_eq_ok]
    refine forall₂_congr fun data _ => ?_
    rw [← sendPart_recvPart]
    cases sendPart (recvPart data) with
    | error e | ok b => exact Iff.rfl
  · rw [send]
    change (parts.mapM sendPart).map (map recvPart) = _ ↔ _
    rw [mapM_map_eq_ok]
    exact forall₂_congr fun data _ => recvPart_sendPart data

/-- The identity a router gives a peer without a name has five bytes and begins with a zero. It is received as the
empty string, and a message sent back to it goes to nobody. -/
theorem transport_routing_identity :
    recv [[0, 107, 139, 69, 103], [72, 105]] = [[], [72, 105]] ∧
      send (recv [[0, 107, 139, 69, 103], [72, 105]]) = .ok [[], [72, 105]] ∧
      send (recv [[0, 107, 139, 69, 103], [72, 105]]) ≠ .ok [[0, 107, 139, 69, 103], [72, 105]] := by
  have hrecv : recv [[0, 107, 139, 69, 103], [72, 105]] = [[], [72, 105]] := by decide
  have hsend : send [[], [72, 105]] = .ok [[], [72, 105]] := rfl
  refine ⟨hrecv, by rw [hrecv, hsend], ?_⟩
  rw [hrecv, hsend]
  intro heq
  exact absurd (ok.inj heq) (by decide)

end Transport

end Gds
