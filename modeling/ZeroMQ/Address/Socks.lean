import ZeroMQ.Foundation.Block
import ZeroMQ.Foundation.Run

/-!
# The response of a SOCKS5 proxy

The decoder first wants five bytes, which tell how long the response is, and then the rest of it. It wants the whole
rest at each read, also when it has got a part of it before: then it takes what comes behind the response, if this has
arrived. What it gives of a response is the code; the address and the port are not decoded.
-/

namespace Zmq

open Foundation List Nat Except

/-! ### Responses -/

/-- The three forms of an address. -/
inductive SocksAddress
  | ipv4 (bytes : List UInt8) (length_eq : bytes.length = 4)
  | domain (name : List UInt8) (length_le : name.length ≤ 255)
  | ipv6 (bytes : List UInt8) (length_eq : bytes.length = 16)

namespace SocksAddress

/-- The type of an address. -/
def atyp : SocksAddress → UInt8
  | ipv4 _ _ => 0x01
  | domain _ _ => 0x03
  | ipv6 _ _ => 0x04

/-- The bytes of an address; a name has its length in front. -/
def wire : SocksAddress → List UInt8
  | ipv4 bytes _ => bytes
  | domain name _ => UInt8.ofNat name.length :: name
  | ipv6 bytes _ => bytes

end SocksAddress

/-- A valid response. -/
structure SocksReply where
  code : UInt8
  address : SocksAddress
  port : UInt16
  code_le : code ≤ 0x08

/-- The bytes of a response. -/
def SocksReply.wire (r : SocksReply) : List UInt8 :=
  [0x05, r.code, 0x00, r.address.atyp] ++ r.address.wire ++ [(r.port >>> 8).toUInt8, r.port.toUInt8]

/-- `socks_response_t`. -/
structure SocksResponse where
  responseCode : UInt8
  address : List UInt8
  port : UInt16
  deriving DecidableEq, Repr

/-! ### `socks_response_decoder_t` -/

/-- What must not happen. -/
inductive SocksFault
  /-- An assertion fails. -/
  | assertFailed
  /-- More is read than the buffer has room for. -/
  | outOfBounds
  deriving DecidableEq, Repr

/-- The fields of `socks_response_decoder_t`. -/
structure SocksResponseDecoder where
  buf : Block UInt8 262
  bytesRead : ℕ

namespace SocksResponseDecoder

variable (d : SocksResponseDecoder)

/-- The number of bytes that `input` asks for. -/
def wanted : Except SocksFault ℕ :=
  if d.bytesRead < 5 then .ok (5 - d.bytesRead)
  else
    match d.buf.get 3 with
    | 0x01 => .ok (3 + 2)
    | 0x03 => .ok ((d.buf.get 4).toNat + 2)
    | 0x04 => .ok (15 + 2)
    | _ => .error .assertFailed

/-- What has been read may be the beginning of a response. -/
def isPlausible : Bool :=
  d.buf.get 0 = 0x05 && (d.bytesRead < 2 || d.buf.get 1 ≤ 0x08) && (d.bytesRead < 3 || d.buf.get 2 = 0x00) &&
    (d.bytesRead < 4 || d.buf.get 3 = 0x01 || d.buf.get 3 = 0x03 || d.buf.get 3 = 0x04)

/-- `input`, given the bytes that `tcp_read` puts into the buffer; nothing is put there when the connection has ended
(0) or there is an error (-1). -/
def input (data : List UInt8) (rc : Int) : Except SocksFault (Int × SocksResponseDecoder) :=
  if rc > 0 then
    match d.buf.store d.bytesRead data with
    | none => .error .outOfBounds
    | some buf =>
      let d : SocksResponseDecoder := ⟨buf, d.bytesRead + data.length⟩
      if d.isPlausible then .ok (rc, d) else .ok (-1, d)
  else .ok (rc, d)

/-- `message_ready`. -/
def messageReady : Except SocksFault Bool :=
  if d.bytesRead < 4 then .ok false
  else
    match d.buf.get 3 with
    | 0x01 => .ok (d.bytesRead = 10)
    | 0x03 => .ok (d.bytesRead > 4 && d.bytesRead = 4 + 1 + (d.buf.get 4).toNat + 2)
    | 0x04 => .ok (d.bytesRead = 22)
    | _ => .error .assertFailed

/-- `decode`. -/
def decode : Except SocksFault SocksResponse :=
  match d.messageReady with
  | .ok true => .ok ⟨d.buf.get 1, [], 0⟩
  | .ok false => .error .assertFailed
  | .error fault => .error fault

end SocksResponseDecoder

/-- What the connecter does while it waits for the response. -/
inductive SocksStatus
  | waitingForResponse
  /-- The response has been decoded. -/
  | responded (response : SocksResponse)
  /-- `error` has been called. -/
  | failed
  deriving DecidableEq, Repr

/-- The connecter: its decoder, its status, and what comes on the connection. -/
structure SocksConnecter where
  decoder : SocksResponseDecoder
  status : SocksStatus
  stream : List UInt8

namespace SocksConnecter

/-- `in_event` in the status `waiting_for_response`; the read gives at most `k` bytes. -/
def inEvent (c : SocksConnecter) (k : ℕ) : Except SocksFault SocksConnecter :=
  match c.status with
  | .waitingForResponse => do
    let n ← c.decoder.wanted
    let data := c.stream.take (min k n)
    let (rc, decoder) ← c.decoder.input data data.length
    let c : SocksConnecter := ⟨decoder, c.status, c.stream.drop (min k n)⟩
    if rc = 0 ∨ rc = -1 then return { c with status := .failed }
    if ← decoder.messageReady then
      let response ← decoder.decode
      return { c with status := .responded response }
    return c
  | _ => .ok c

/-- The connecter has sent its request, and the response and other bytes are coming. -/
def start (buf : Block UInt8 262) (r : SocksReply) (rest : List UInt8) : SocksConnecter :=
  ⟨⟨buf, 0⟩, .waitingForResponse, r.wire ++ rest⟩

end SocksConnecter

/-! ### What is in the buffer -/

namespace SocksReply

variable (r : SocksReply)

lemma getElem?_wire {i : ℕ} (hi : i < 4) : r.wire[i]? = [0x05, r.code, 0x00, r.address.atyp][i]? := by
  rw [wire, append_assoc, getElem?_append_left hi]

lemma length_wire : r.wire.length = r.address.wire.length + 6 := by
  simp only [wire, length_append, length_cons, length_nil]
  omega

lemma length_wire_bounds : 5 < r.wire.length ∧ r.wire.length ≤ 262 := by
  rw [length_wire]
  cases r.address with
  | ipv4 bytes h | ipv6 bytes h => exact ⟨by rw [SocksAddress.wire, h]; decide, by rw [SocksAddress.wire, h]; decide⟩
  | domain name h =>
    rw [SocksAddress.wire, length_cons]
    omega

lemma getElem?_wire_name {name : List UInt8} {h : name.length ≤ 255} (haddress : r.address = .domain name h) :
    r.wire[4]? = some (UInt8.ofNat name.length) := by
  rw [wire, haddress]
  rfl

end SocksReply

namespace SocksResponseDecoder

variable {d : SocksResponseDecoder} {r : SocksReply}

/-- The buffer holds the first bytes of the response. -/
structure Holds (d : SocksResponseDecoder) (r : SocksReply) : Prop where
  cells : r.wire.take d.bytesRead <+: d.buf.cells
  le : d.bytesRead ≤ r.wire.length

lemma Holds.get (h : d.Holds r) {i : Fin 262} {b : UInt8} (hi : i.val < d.bytesRead) (hb : r.wire[i.val]? = some b) :
    d.buf.get i = b := by
  have hlen : i.val < (r.wire.take d.bytesRead).length := by
    rw [length_take_of_le h.le]
    exact hi
  have hget := Block.get_of_isPrefix h.cells hlen
  rw [getElem?_take_of_lt hi, hb] at hget
  exact (Option.some.inj hget).symm

lemma Holds.isPlausible (h : d.Holds r) (hpos : 0 < d.bytesRead) : d.isPlausible = true := by
  have h0 := h.get (show (0 : Fin 262).val < d.bytesRead from hpos) (r.getElem?_wire (by decide))
  have h1 : d.bytesRead < 2 ∨ d.buf.get 1 ≤ 0x08 := by
    by_cases hlt : d.bytesRead < 2
    · exact .inl hlt
    · rw [h.get (show (1 : Fin 262).val < d.bytesRead from Nat.le_of_not_lt hlt) (r.getElem?_wire (by decide))]
      exact .inr r.code_le
  have h2 : d.bytesRead < 3 ∨ d.buf.get 2 = 0x00 := by
    by_cases hlt : d.bytesRead < 3
    · exact .inl hlt
    · exact .inr (h.get (show (2 : Fin 262).val < d.bytesRead from Nat.le_of_not_lt hlt) (r.getElem?_wire (by decide)))
  have h3 : d.bytesRead < 4 ∨ d.buf.get 3 = 0x01 ∨ d.buf.get 3 = 0x03 ∨ d.buf.get 3 = 0x04 := by
    by_cases hlt : d.bytesRead < 4
    · exact .inl hlt
    · rw [h.get (show (3 : Fin 262).val < d.bytesRead from Nat.le_of_not_lt hlt) (r.getElem?_wire (by decide))]
      cases r.address
      all_goals exact .inr (by simp only [SocksAddress.atyp]; decide)
  simp only [SocksResponseDecoder.isPlausible, h0, decide_true, Bool.true_and, Bool.and_eq_true, Bool.or_eq_true,
    decide_eq_true_eq]
  exact ⟨⟨h1, h2⟩, by rwa [or_assoc, or_assoc]⟩

lemma Holds.messageReady (h : d.Holds r) : d.messageReady = .ok (decide (d.bytesRead = r.wire.length)) := by
  have hbounds := r.length_wire_bounds
  by_cases hlt : d.bytesRead < 4
  · rw [SocksResponseDecoder.messageReady, if_pos hlt, decide_eq_false (by omega)]
  have hatyp := h.get (show (3 : Fin 262).val < d.bytesRead from Nat.le_of_not_lt hlt) (r.getElem?_wire (by decide))
  rw [SocksResponseDecoder.messageReady, if_neg hlt, hatyp, r.length_wire]
  cases haddress : r.address with
  | ipv4 bytes hbytes | ipv6 bytes hbytes =>
    rw [SocksAddress.wire, hbytes]
    rfl
  | domain name hname =>
    refine congrArg ok ?_
    rw [SocksAddress.wire, length_cons]
    by_cases hfour : 4 < d.bytesRead
    · rw [h.get (show (4 : Fin 262).val < d.bytesRead from hfour) (r.getElem?_wire_name haddress),
        UInt8.toNat_ofNat_of_lt' (Nat.lt_of_le_of_lt hname (by decide)), decide_eq_true hfour, Bool.true_and]
      exact decide_eq_decide.mpr (by omega)
    · rw [decide_eq_false hfour, Bool.false_and, decide_eq_false (by omega)]

lemma Holds.wanted (h : d.Holds r) :
    d.wanted = .ok (if d.bytesRead < 5 then 5 - d.bytesRead else r.wire.length - 5) := by
  by_cases hlt : d.bytesRead < 5
  · rw [SocksResponseDecoder.wanted, if_pos hlt, if_pos hlt]
  have hatyp := h.get (show (3 : Fin 262).val < d.bytesRead by change 3 < _; omega) (r.getElem?_wire (by decide))
  rw [SocksResponseDecoder.wanted, if_neg hlt, if_neg hlt, hatyp, r.length_wire]
  cases haddress : r.address with
  | ipv4 bytes hbytes | ipv6 bytes hbytes =>
    rw [SocksAddress.wire, hbytes]
    rfl
  | domain name hname =>
    have hfour := h.get (show (4 : Fin 262).val < d.bytesRead from Nat.le_of_not_lt hlt) (r.getElem?_wire_name haddress)
    refine congrArg ok ?_
    rw [SocksAddress.wire, length_cons, hfour, UInt8.toNat_ofNat_of_lt' (Nat.lt_of_le_of_lt hname (by decide))]
    omega

lemma Holds.input (h : d.Holds r) {m : ℕ} (hpos : 0 < m) (hle : d.bytesRead + m ≤ r.wire.length) :
    ∃ d', d.input ((r.wire.drop d.bytesRead).take m) m = .ok (m, d') ∧ d'.Holds r ∧ d'.bytesRead = d.bytesRead + m := by
  have hlen : ((r.wire.drop d.bytesRead).take m).length = m := length_take_of_le (by rw [length_drop]; omega)
  have htake : (r.wire.take d.bytesRead).length = d.bytesRead := length_take_of_le h.le
  have hbounds := r.length_wire_bounds
  obtain ⟨buf, hstore, hcells⟩ := Block.store_append h.cells ((r.wire.drop d.bytesRead).take m)
    (by rw [htake, hlen]; omega)
  rw [htake] at hstore
  have hholds : Holds ⟨buf, d.bytesRead + m⟩ r := by
    refine ⟨?_, hle⟩
    rwa [← take_add] at hcells
  refine ⟨⟨buf, d.bytesRead + m⟩, ?_, hholds, rfl⟩
  have hrc : (m : Int) > 0 := Int.natCast_pos.mpr hpos
  rw [SocksResponseDecoder.input, if_pos hrc, hstore]
  simp only [hlen, hholds.isPlausible (show 0 < d.bytesRead + m by omega), if_true]

lemma Holds.decode (h : d.Holds r) (hready : d.bytesRead = r.wire.length) : d.decode = .ok ⟨r.code, [], 0⟩ := by
  have hbounds := r.length_wire_bounds
  have hcode := h.get (show (1 : Fin 262).val < d.bytesRead by change 1 < _; omega) (r.getElem?_wire (by decide))
  rw [SocksResponseDecoder.decode, h.messageReady, decide_eq_true hready, hcode]

end SocksResponseDecoder

/-! ### Runs of the connecter -/

namespace SocksConnecter

variable {c : SocksConnecter} {r : SocksReply} {rest : List UInt8}

/-- The connecter has read some of the response and nothing else; it has decoded the code when it has read all of
it. -/
structure Reads (c : SocksConnecter) (r : SocksReply) (rest : List UInt8) : Prop where
  holds : c.decoder.Holds r
  stream : c.stream = r.wire.drop c.decoder.bytesRead ++ rest
  status : c.status =
    if c.decoder.bytesRead = r.wire.length then .responded ⟨r.code, [], 0⟩ else .waitingForResponse

lemma reads_start (buf : Block UInt8 262) (r : SocksReply) (rest : List UInt8) : (start buf r rest).Reads r rest where
  holds := ⟨ nil_prefix, zero_le _⟩
  stream := rfl
  status := (if_neg (by
    have hbounds := r.length_wire_bounds
    change ¬0 = _
    omega)).symm

/-- A read gives something, and when it begins behind the fifth byte it gives nothing from behind the response. -/
def WithinResponse (r : SocksReply) (c : SocksConnecter) (k : ℕ) : Prop :=
  0 < k ∧ (5 < c.decoder.bytesRead → c.decoder.bytesRead + k ≤ r.wire.length)

instance (r : SocksReply) (c : SocksConnecter) (k : ℕ) : Decidable (WithinResponse r c k) :=
  inferInstanceAs (Decidable (_ ∧ _))

lemma Reads.inEvent (h : c.Reads r rest) {k : ℕ} (hgood : WithinResponse r c k) :
    ∃ c', c.inEvent k = .ok c' ∧ c'.Reads r rest := by
  have hbounds := r.length_wire_bounds
  have hle := h.holds.le
  by_cases hready : c.decoder.bytesRead = r.wire.length
  · have hstatus := h.status
    rw [if_pos hready] at hstatus
    exact ⟨c, by rw [SocksConnecter.inEvent, hstatus], h⟩
  · have hstatus := h.status
    rw [if_neg hready] at hstatus
    generalize hn : (if c.decoder.bytesRead < 5 then 5 - c.decoder.bytesRead else r.wire.length - 5) = n
    have hwanted := h.holds.wanted
    rw [hn] at hwanted
    have hgood1 := hgood.1
    have hm : 0 < min k n ∧ c.decoder.bytesRead + min k n ≤ r.wire.length := by
      have hgood2 := hgood.2
      split at hn
      · omega
      · omega
    have hdata : c.stream.take (min k n) = (r.wire.drop c.decoder.bytesRead).take (min k n) := by
      rw [h.stream, take_append_of_le_length (by rw [length_drop]; omega)]
    have hlen : ((r.wire.drop c.decoder.bytesRead).take (min k n)).length = min k n :=
      length_take_of_le (by rw [length_drop]; omega)
    obtain ⟨d', hinput, hholds, hread⟩ := h.holds.input hm.1 hm.2
    have hrc : ¬(((min k n : ℕ) : Int) = 0 ∨ ((min k n : ℕ) : Int) = -1) := by omega
    have hstream : c.stream.drop (min k n) = r.wire.drop d'.bytesRead ++ rest := by
      rw [h.stream, drop_append_of_le_length (by rw [length_drop]; omega), drop_drop, hread]
    have hstep : c.inEvent k =
        (if decide (d'.bytesRead = r.wire.length) then do
            let response ← d'.decode
            return ⟨d', .responded response, c.stream.drop (min k n)⟩
          else .ok ⟨d', .waitingForResponse, c.stream.drop (min k n)⟩) := by
      rw [SocksConnecter.inEvent, hstatus, hwanted]
      simp only [bind, Except.bind, hdata, hlen, hinput, if_neg hrc, hholds.messageReady, pure, Except.pure]
    by_cases hdone : d'.bytesRead = r.wire.length
    · refine ⟨⟨d', .responded ⟨r.code, [], 0⟩, c.stream.drop (min k n)⟩, ?_, hholds, hstream, (if_pos hdone).symm⟩
      rw [hstep, decide_eq_true hdone, if_pos rfl, hholds.decode hdone]
      rfl
    · refine ⟨⟨d', .waitingForResponse, c.stream.drop (min k n)⟩, ?_, hholds, hstream, (if_neg hdone).symm⟩
      rw [hstep, decide_eq_false hdone, if_neg Bool.false_ne_true]

/-- The decoder has read nothing but the response, it says that the message is ready exactly when all of it has been
read, and then the connecter has what has been decoded. -/
structure Exact (c : SocksConnecter) (r : SocksReply) (rest : List UInt8) (decoded : SocksResponse) : Prop where
  inBuffer : c.decoder.bytesRead ≤ 262
  stream : r.wire.take c.decoder.bytesRead ++ c.stream = r.wire ++ rest
  length : c.decoder.bytesRead + c.stream.length = r.wire.length + rest.length
  left : rest.length ≤ c.stream.length
  ready : c.decoder.messageReady = .ok (decide (c.decoder.bytesRead = r.wire.length))
  waiting : c.decoder.bytesRead ≠ r.wire.length → c.status = .waitingForResponse
  responded : c.decoder.bytesRead = r.wire.length → c.status = .responded decoded

lemma Reads.exact (h : c.Reads r rest) : c.Exact r rest ⟨r.code, [], 0⟩ where
  inBuffer := Nat.le_trans h.holds.le r.length_wire_bounds.2
  stream := by rw [h.stream, ← append_assoc, take_append_drop]
  length := by
    have hle := h.holds.le
    rw [h.stream, length_append, length_drop]
    omega
  left := by
    rw [h.stream, length_append]
    exact Nat.le_add_left _ _
  ready := h.holds.messageReady
  waiting hne := by rw [h.status, if_neg hne]
  responded heq := by rw [h.status, if_pos heq]

/-- However the response arrives, the decoder reads exactly its bytes and gives its code, as long as no read that begins
behind the fifth byte gets a byte from behind the response. -/
theorem exact_of_withinResponse (buf : Block UInt8 262) (r : SocksReply) (rest : List UInt8) (ks : List ℕ)
    (h : StepsMeet inEvent (WithinResponse r) (start buf r rest) ks) :
    ∃ c, runSteps inEvent (start buf r rest) ks = .ok c ∧ c.Exact r rest ⟨r.code, [], 0⟩ := by
  have hstep : ∀ (c : SocksConnecter) (k : ℕ), c.Reads r rest → WithinResponse r c k →
      ∃ c', c.inEvent k = .ok c' ∧ c'.Reads r rest := fun _ _ hc hk => hc.inEvent hk
  obtain ⟨c, hrun, hc⟩ := runSteps_invariant hstep (reads_start buf r rest) h
  exact ⟨c, hrun, hc.exact⟩

/-- A proxy that is bound to an address of version 4, and its port. -/
def boundReply : SocksReply := ⟨0, .ipv4 [127, 0, 0, 1] rfl, 80, by decide⟩

/-- A buffer that holds zeros. -/
def zeroBuffer : Block UInt8 262 := ⟨List.replicate 262 0, List.length_replicate⟩

/-- The response comes in three parts, and then another byte. -/
theorem exact_of_withinResponse_three :
    ∃ c, runSteps inEvent (start zeroBuffer boundReply [0xFF]) [3, 2, 5] = .ok c ∧
      c.Exact boundReply [0xFF] ⟨0, [], 0⟩ :=
  exact_of_withinResponse zeroBuffer boundReply [0xFF] [3, 2, 5] (by decide +kernel)

/-- After six bytes of the response five others are wanted, and one of them is not from the response, so that the
message never gets ready. When nothing goes wrong, the port is lost. -/
theorem socks_overread :
    (okAnd (runSteps inEvent (start zeroBuffer boundReply [0xFF]) [5, 1, 5]) fun c =>
        c.stream = [] ∧ c.status = .waitingForResponse) ∧
      okAnd (runSteps inEvent (start zeroBuffer boundReply [0xFF]) [5, 5]) fun c =>
        ∀ response, c.status = .responded response → response.port ≠ boundReply.port := by
  refine ⟨by decide +kernel, ?_⟩
  obtain ⟨c, hrun, hstatus⟩ : ∃ c, runSteps inEvent (start zeroBuffer boundReply [0xFF]) [5, 5] = .ok c ∧
      c.status = .responded ⟨0, [], 0⟩ := okAnd.exists (by decide +kernel)
  rw [hrun]
  intro response hresponse
  rw [hstatus] at hresponse
  cases hresponse
  decide

end SocksConnecter

end Zmq
