import ZeroMQ.Engine.Mechanism
import ZeroMQ.Foundation.Bits

/-!
# Masks of addresses

A filter for TCP connections is an address and the number of its first bits that count. `match_address` compares the
whole bytes among them at once, and what is left of the next byte under a mask.
-/

namespace Zmq

open Foundation List

/-! ### Addresses -/

/-- `AF_INET` and `AF_INET6`. -/
inductive SaFamily
  | inet
  | inet6
  deriving DecidableEq, Repr

namespace SaFamily

/-- `sizeof (struct in_addr)` and `sizeof (struct in6_addr)`. -/
def addrSize : SaFamily → ℕ
  | inet => 4
  | inet6 => 16

/-- `sizeof (struct sockaddr_in)` and `sizeof (struct sockaddr_in6)`. -/
def sockaddrSize : SaFamily → ℕ
  | inet => 16
  | inet6 => 28

/-- The number of bits of an address. -/
def bits (f : SaFamily) : ℕ := f.addrSize * 8

end SaFamily

/-- `sizeof (struct sockaddr)`. -/
def sizeofSockaddr : ℕ := 16

/-- What is compared of a `struct sockaddr`: the family and the bytes of the address, as many as the family says. -/
structure SockAddr where
  family : SaFamily
  bytes : List UInt8
  length_eq : bytes.length = family.addrSize

/-! ### `tcp_address_mask_t` -/

/-- The fields of `tcp_address_mask_t`. -/
structure TcpAddressMask where
  address : SockAddr
  /-- The number of bits that count, or -1 before an address has been resolved. -/
  addressMask : Int

/-- The only thing that must not happen: an assertion fails. -/
inductive AddressFault
  | assertFailed
  deriving DecidableEq, Repr

/-- The characters that `atoi` skips. -/
def isBlank (c : UInt8) : Bool := c = 32 || (9 ≤ c && c ≤ 13)

/-- The number that digits say, up to the first other character. -/
def digitsValue (text : List UInt8) : ℕ :=
  (text.takeWhile fun c => 48 ≤ c && c ≤ 57).foldl (fun v c => v * 10 + (c.toNat - 48)) 0

/-- `atoi`: the number that the text starts with as a `long`, cut off to an `int`. -/
def atoi (text : List UInt8) : Int :=
  let value : Int :=
    match text.dropWhile isBlank with
    | 45 :: digits => max (-(digitsValue digits)) (-2 ^ 63)
    | 43 :: digits => min (digitsValue digits) (2 ^ 63 - 1)
    | digits => min (digitsValue digits) (2 ^ 63 - 1)
  value.bmod (2 ^ 32)

namespace TcpAddressMask

/-- The number of bits that count for the text behind the slash. -/
def parseMask (family : SaFamily) (maskStr : List UInt8) : Except Errno Int :=
  if maskStr = [48] then .ok 0
  else
    let mask := atoi maskStr
    if mask < 1 ∨ (family = .inet6 ∧ mask > 128) ∨ (family ≠ .inet6 ∧ mask > 32) then .error .einval
    else .ok mask

/-- `resolve`, given what `resolve_hostname` finds for a name. -/
def resolve (resolveHostname : List UInt8 → Bool → Except Errno SockAddr) (name : List UInt8) (ipv6 : Bool) :
    Except Errno TcpAddressMask :=
  let slash : UInt8 := 47
  if slash ∈ name then
    -- the last slash separates the address from the mask
    let maskStr := (name.reverse.takeWhile (· ≠ slash)).reverse
    let addrStr := name.take (name.length - maskStr.length - 1)
    if maskStr = [] then .error .einval
    else
      match resolveHostname addrStr ipv6 with
      | .error e => .error e
      | .ok address =>
        match parseMask address.family maskStr with
        | .error e => .error e
        | .ok mask => .ok ⟨address, mask⟩
  else
    match resolveHostname name ipv6 with
    | .error e => .error e
    | .ok address => .ok ⟨address, if address.family = .inet6 then 128 else 32⟩

/-- `0xffU << (8 - mask % 8)`, of which a `uint8_t` takes the last byte. -/
def lastByteBits (mask : ℕ) : UInt8 := ((0xFF : UInt32) <<< UInt32.ofNat (8 - mask % 8)).toUInt8

/-- `match_address`, for a peer whose address has a size. -/
def matchAddress (m : TcpAddressMask) (ss : SockAddr) (ssLen : ℕ) : Except AddressFault Bool :=
  if m.addressMask = -1 ∨ ssLen < sizeofSockaddr then .error .assertFailed
  else if ss.family ≠ m.address.family then .ok false
  else if m.addressMask > 0 then
    if ssLen ≠ ss.family.sockaddrSize then .error .assertFailed
    else
      let mask : ℕ := if m.addressMask < ss.family.bits then m.addressMask.toNat else ss.family.bits
      let fullBytes := mask / 8
      if m.address.bytes.take fullBytes ≠ ss.bytes.take fullBytes then .ok false
      else
        let bits := lastByteBits mask
        if bits ≠ 0 then
          match ss.bytes[fullBytes]?, m.address.bytes[fullBytes]? with
          | some theirs, some ours => .ok (theirs &&& bits = ours &&& bits)
          | _, _ => .error .assertFailed
        else .ok true
  else .ok true

variable {m : TcpAddressMask} {ss : SockAddr}

/-- The number of bits that count is one of the address. -/
structure Admissible (m : TcpAddressMask) : Prop where
  nonneg : 0 ≤ m.addressMask
  le_bits : m.addressMask ≤ m.address.family.bits

lemma parseMask_bounds {family : SaFamily} {maskStr : List UInt8} {mask : Int}
    (h : parseMask family maskStr = .ok mask) : 0 ≤ mask ∧ mask ≤ family.bits := by
  unfold parseMask at h
  dsimp only at h
  split_ifs at h with hzero hbad
  · cases h
    exact ⟨le_refl _, Int.natCast_nonneg _⟩
  cases h
  cases family with
  | inet =>
    have hbits : ((SaFamily.inet.bits : ℕ) : Int) = 32 := rfl
    simp only [reduceCtorEq, false_and, ne_eq, not_false_eq_true, true_and, false_or, not_or, not_lt, gt_iff_lt] at hbad
    omega
  | inet6 =>
    have hbits : ((SaFamily.inet6.bits : ℕ) : Int) = 128 := rfl
    simp only [true_and, ne_eq, not_true_eq_false, false_and, or_false, not_or, not_lt, gt_iff_lt] at hbad
    omega

lemma resolve_spec {resolveHostname : List UInt8 → Bool → Except Errno SockAddr} {name : List UInt8} {ipv6 : Bool}
    (h : resolve resolveHostname name ipv6 = .ok m) :
    m.Admissible ∧ (47 ∉ name → m.addressMask = m.address.family.bits) := by
  unfold resolve at h
  dsimp only at h
  split_ifs at h with hslash hempty
  · split at h
    · cases h
    next address _ =>
      split at h
      · cases h
      next mask hparse =>
        cases h
        obtain ⟨hnonneg, hle⟩ := parseMask_bounds hparse
        exact ⟨⟨hnonneg, hle⟩, fun hno => absurd hslash hno⟩
  · split at h
    · cases h
    next address _ =>
      cases h
      have hfull : (if address.family = .inet6 then 128 else 32 : Int) = address.family.bits := by
        cases address.family
        all_goals rfl
      exact ⟨⟨by rw [hfull]; exact Int.natCast_nonneg _, by rw [hfull]⟩, fun _ => hfull⟩

/-! ### Matching -/

lemma getMsbD_lastByteBits (mask : ℕ) {j : ℕ} (hj : j < 8) :
    (lastByteBits mask).toBitVec.getMsbD j = decide (j < mask % 8) := by
  have hall : ∀ r j : Fin 8, ((0xFF : UInt32) <<< UInt32.ofNat (8 - r.val)).toUInt8.toBitVec.getMsbD j.val =
      decide (j.val < r.val) := by decide +kernel
  exact hall ⟨mask % 8, Nat.mod_lt _ (by decide)⟩ ⟨j, hj⟩

lemma lastByteBits_eq_zero_iff (mask : ℕ) : lastByteBits mask = 0 ↔ mask % 8 = 0 := by
  have hall : ∀ r : Fin 8, ((0xFF : UInt32) <<< UInt32.ofNat (8 - r.val)).toUInt8 = 0 ↔ r.val = 0 := by decide +kernel
  exact hall ⟨mask % 8, Nat.mod_lt _ (by decide)⟩

lemma compare_spec {ours theirs : List UInt8} {mask size : ℕ} (hours : ours.length = size)
    (htheirs : theirs.length = size) (hmask : mask ≤ size * 8) :
    (if ours.take (mask / 8) ≠ theirs.take (mask / 8) then .ok false
      else if lastByteBits mask ≠ 0 then
        match theirs[mask / 8]?, ours[mask / 8]? with
        | some t, some o => .ok (decide (t &&& lastByteBits mask = o &&& lastByteBits mask))
        | _, _ => .error .assertFailed
      else .ok true : Except AddressFault Bool) = .ok (decide (SameBits mask ours theirs)) := by
  have hsplit : mask = 8 * (mask / 8) + mask % 8 := by omega
  have hr : mask % 8 ≤ 8 := by omega
  have hsame : SameBits mask ours theirs ↔ ours.take (mask / 8) = theirs.take (mask / 8) ∧
      ∀ j < mask % 8, (ours.getD (mask / 8) 0).toBitVec.getMsbD j = (theirs.getD (mask / 8) 0).toBitVec.getMsbD j := by
    conv_lhs => rw [hsplit]
    rw [sameBits_add hr, sameBits_bytes (by omega) (by omega)]
  by_cases htake : ours.take (mask / 8) = theirs.take (mask / 8)
  · rw [if_neg (not_not.mpr htake)]
    by_cases hzero : mask % 8 = 0
    · have hbits := (lastByteBits_eq_zero_iff mask).mpr hzero
      rw [if_neg (not_not.mpr hbits), decide_eq_true (hsame.mpr ⟨htake, fun j hj => by omega⟩)]
    have hbits := fun h => hzero ((lastByteBits_eq_zero_iff mask).mp h)
    have hlt : mask / 8 < size := by omega
    rw [if_pos hbits, getElem?_eq_getElem (by omega), getElem?_eq_getElem (by omega)]
    rw [getD_eq_getElem _ _ (by omega), getD_eq_getElem _ _ (by omega)] at hsame
    have hbyte := @and_mask_eq_iff (mask % 8) (lastByteBits mask) ours[mask / 8] theirs[mask / 8]
      (fun j hj => getMsbD_lastByteBits mask hj) hr
    refine congrArg Except.ok (decide_eq_decide.mpr ?_)
    rw [hsame, ← hbyte]
    exact ⟨fun h => ⟨htake, h.symm⟩, fun h => h.2.symm⟩
  · rw [if_pos htake, decide_eq_false fun h => htake (hsame.mp h).1]

/-- A peer matches when it has an address of the same family with the same first bits. -/
def Matches (m : TcpAddressMask) (ss : SockAddr) : Prop :=
  m.address.family = ss.family ∧ SameBits m.addressMask.toNat m.address.bytes ss.bytes

instance (m : TcpAddressMask) (ss : SockAddr) : Decidable (m.Matches ss) :=
  inferInstanceAs (Decidable (_ ∧ _))

lemma matchAddress_eq (h : m.Admissible) (ss : SockAddr) :
    m.matchAddress ss ss.family.sockaddrSize = .ok (decide (m.Matches ss)) := by
  have hresolved : ¬(m.addressMask = -1 ∨ ss.family.sockaddrSize < sizeofSockaddr) := by
    have hsize : sizeofSockaddr ≤ ss.family.sockaddrSize := by
      cases ss.family
      all_goals decide
    have hnonneg := h.nonneg
    omega
  rw [matchAddress, if_neg hresolved]
  by_cases hfamily : ss.family = m.address.family
  · rw [if_neg (not_not.mpr hfamily)]
    have hmatches : m.Matches ss ↔ SameBits m.addressMask.toNat m.address.bytes ss.bytes :=
      ⟨fun hm => hm.2, fun hm => ⟨hfamily.symm, hm⟩⟩
    by_cases hpos : m.addressMask > 0
    · have hle := h.le_bits
      rw [← hfamily] at hle
      have hmask : (if m.addressMask < ss.family.bits then m.addressMask.toNat else ss.family.bits) =
          m.addressMask.toNat := by
        split
        · rfl
        · omega
      rw [if_pos hpos, if_neg (not_not.mpr rfl)]
      rw [hmask]
      have hours : m.address.bytes.length = ss.family.addrSize := by rw [m.address.length_eq, hfamily]
      rw [compare_spec hours ss.length_eq (by
        change _ ≤ ss.family.bits
        omega)]
      exact congrArg Except.ok (decide_eq_decide.mpr hmatches.symm)
    · have hzero : m.addressMask.toNat = 0 := by omega
      rw [if_neg hpos, decide_eq_true (hmatches.mpr fun i hi => by omega)]
  · rw [if_pos hfamily, decide_eq_false fun hm => hfamily hm.1.symm]

/-- Whatever has been resolved matches the peers whose addresses have the same family and the same first bits, as many
as the mask says; and it says the full length when the name has no slash. -/
theorem matchAddress_resolved :
    (∀ (resolveHostname : List UInt8 → Bool → Except Errno SockAddr) (name : List UInt8) (ipv6 : Bool)
      (m : TcpAddressMask), resolve resolveHostname name ipv6 = .ok m →
        m.Admissible ∧ (47 ∉ name → m.addressMask = m.address.family.bits)) ∧
      ∀ (m : TcpAddressMask) (ss : SockAddr), m.Admissible →
        m.matchAddress ss ss.family.sockaddrSize = .ok (decide (m.Matches ss)) :=
  ⟨fun _ _ _ _ h => resolve_spec h, fun _ ss h => matchAddress_eq h ss⟩

/-- 20 bits of an address of version 4: two bytes, and half of the third one. -/
theorem matchAddress_resolved_twenty :
    matchAddress ⟨⟨.inet, [10, 1, 16, 0], rfl⟩, 20⟩ ⟨.inet, [10, 1, 31, 7], rfl⟩ 16 = .ok true :=
  (matchAddress_resolved.2 ⟨⟨.inet, [10, 1, 16, 0], rfl⟩, 20⟩ ⟨.inet, [10, 1, 31, 7], rfl⟩
    ⟨by decide, by decide⟩).trans (congrArg Except.ok (by decide +kernel))

end TcpAddressMask

end Zmq
