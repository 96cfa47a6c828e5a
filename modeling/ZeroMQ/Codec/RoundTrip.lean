import ZeroMQ.Codec.Zmtp

/-!
# Round trip

What an encoder writes, in whatever pieces it is asked for, a decoder of the same version reads back,
in whatever chunks it arrives.
-/

namespace Zmq

open Foundation List Nat UInt8

/-- A message that the receiver admits: it has a body, the length of which is in the limit and in the
range of the receiver's `size_t`, and there is memory for it if it is not stored in the message itself. With
the flags, the length fits in 64 bits. -/
structure Allowed (cfg : DecoderConfig) (m : Msg) : Prop where
  body : m.isDelimiter = false
  limit : cfg.exceeds m.body.length = false
  sizeMax : m.body.length ≤ cfg.sizeMax
  memory : cfg.maxVsmSize < m.body.length → ∀ k, cfg.HasMemory k m.body.length
  fits : m.body.length + 1 < 2 ^ 64

/-- What of a message a version transmits. -/
def received (v : Version) (m : Msg) : Msg :=
  match v with
  | .v1 => ⟨.data, { MsgFlags.none with more := m.more }, m.body⟩
  | .v2 => ⟨.data, { MsgFlags.none with more := m.more, command := m.flags.command }, m.body⟩

/-- Between two messages. -/
def AtStart : (v : Version) → Decoder (DecoderState v) → Prop
  | .v1, d => d.state.next = .oneByteSizeReady ∧ d.filled = [] ∧ d.toRead = 1
  | .v2, d => d.state.next = .flagsReady ∧ d.filled = [] ∧ d.toRead = 1

lemma atStart_newDecoder (v : Version) : AtStart v (newDecoder v) := by
  cases v <;> exact ⟨rfl, rfl, rfl⟩

lemma Allowed.initSize {cfg : DecoderConfig} {m : Msg} (h : Allowed cfg m) (p : Incoming) :
    ∃ p', p.initSize cfg m.body.length = .ok p' ∧ p'.size = m.body.length ∧ p'.flags = MsgFlags.none := by
  unfold Incoming.initSize
  split
  · exact ⟨_, rfl, rfl, rfl⟩
  next hlong =>
    obtain ⟨hle, hmalloc⟩ := h.memory (not_le.mp hlong) p.mallocs
    rw [mod_eq_of_lt (lt_succ_of_le hle), if_pos hmalloc, if_neg (not_lt.mpr hle)]
    exact ⟨_, rfl, rfl, rfl⟩

namespace V1State

lemma feedAll_rest (cfg : DecoderConfig) {m : Msg} {p : Incoming}
    (hsize : p.size = m.body.length) (hflags : p.flags = MsgFlags.none) :
    ∃ d, feedAll (stages cfg).feed ⟨⟨.flagsReady, p⟩, [], 1, one_pos⟩
        ([if m.more then 1 else 0] ++ m.body) = ([received .v1 m], .ok d) ∧ AtStart .v1 d := by
  have hmore : decide (((if m.more then 1 else 0 : UInt8) &&& 1) ≠ 0) = m.more := by
    cases m.more <;> decide
  have hlength : (stages cfg).act ⟨.flagsReady, p⟩ [if m.more then 1 else 0] = .ok (none,
      m.body.length, ⟨.messageReady, { p with flags := { MsgFlags.none with more := m.more } }⟩) := by
    simp only [stages, act, getD_cons_zero, hflags, hmore, hsize]
    rfl
  have hstage := Stages.feedAll_stage (S := stages cfg) ⟨⟨.flagsReady, p⟩, [], 1, one_pos⟩
    [if m.more then 1 else 0] m.body rfl
  exact ⟨_, hstage.trans (Stages.feedAll_body hlength rfl), rfl, rfl, rfl⟩

lemma feedAll_of_size {cfg : DecoderConfig} {m : Msg} (hm : Allowed cfg m)
    (d : Decoder V1State) (bytes : List UInt8) (hlength : bytes.length = d.toRead)
    (hact : act cfg d.state (d.filled ++ bytes) = d.state.initSize cfg m.body.length) :
    ∃ d', feedAll (stages cfg).feed d (bytes ++ ([if m.more then 1 else 0] ++ m.body)) =
      ([received .v1 m], .ok d') ∧ AtStart .v1 d' := by
  obtain ⟨p, hp, hsize, hflags⟩ := hm.initSize d.state.inProgress
  have hsettle : (stages cfg).settle d.state (d.filled ++ bytes) =
      .ok (none, ⟨⟨.flagsReady, p⟩, [], 1, one_pos⟩) := by
    refine Stages.settle_of_pos (hact.trans ?_) one_pos
    simp only [initSize, hp]
  rw [Stages.feedAll_stage_ok d bytes _ hlength hsettle]
  exact feedAll_rest cfg hsize hflags

lemma feedAll_wire {cfg : DecoderConfig} {m : Msg} (hm : Allowed cfg m) (p : Incoming) :
    ∃ d, feedAll (stages cfg).feed ⟨⟨.oneByteSizeReady, p⟩, [], 1, Nat.one_pos⟩ (wire .v1 m) =
      ([received .v1 m], .ok d) ∧ AtStart .v1 d := by
  have hlimit := hm.limit
  have hmax := hm.sizeMax
  have hmod : (m.body.length + 1) % 2 ^ 64 = m.body.length + 1 := Nat.mod_eq_of_lt hm.fits
  simp only [wire, header, hmod]
  split
  next hshort =>
    -- one byte for the length
    have hbyte : (ofNat (m.body.length + 1)).toNat = m.body.length + 1 := by
      rw [toNat_ofNat']
      omega
    have hact : act cfg ⟨.oneByteSizeReady, p⟩ [ofNat (m.body.length + 1)] =
        initSize cfg m.body.length ⟨.oneByteSizeReady, p⟩ := by
      simp only [act, getD_cons_zero, hbyte]
      rw [if_neg (by omega), if_neg (by omega), Nat.add_sub_cancel, hlimit]
      rfl
    exact feedAll_of_size hm ⟨⟨.oneByteSizeReady, p⟩, [], 1, Nat.one_pos⟩ [_] rfl hact
  next hlong =>
    -- the mark and eight bytes
    have hmark : (stages cfg).settle ⟨.oneByteSizeReady, p⟩ [0xff] =
        .ok (none, ⟨⟨.eightByteSizeReady, p⟩, [], 8, by decide⟩) :=
      Stages.settle_of_pos rfl _
    have hact : act cfg ⟨.eightByteSizeReady, p⟩ (putUint64 (m.body.length + 1)) =
        initSize cfg m.body.length ⟨.eightByteSizeReady, p⟩ := by
      simp only [act, getUint64_putUint64 hm.fits]
      rw [if_neg (by omega), Nat.add_sub_cancel, hlimit, if_neg (by decide), if_neg (by omega)]
    obtain ⟨d, hrest, hd⟩ := feedAll_of_size hm ⟨⟨.eightByteSizeReady, p⟩, [], 8, by decide⟩ _
      (length_putUint64 _) hact
    refine ⟨d, ?_, hd⟩
    rw [← hrest, append_assoc]
    exact Stages.feedAll_stage_ok (S := stages cfg) ⟨⟨.oneByteSizeReady, p⟩, [], 1, Nat.one_pos⟩ [0xff] _ rfl hmark

end V1State

namespace V2State

lemma v2Flags_bits (more large command : Bool) :
    (v2Flags more large command &&& 1 ≠ 0 ↔ more = true) ∧
      (v2Flags more large command &&& 2 ≠ 0 ↔ large = true) ∧
      (v2Flags more large command &&& 4 ≠ 0 ↔ command = true) := by
  cases more <;> cases large <;> cases command <;> decide

lemma feedAll_of_size {cfg : DecoderConfig} {m : Msg} (hm : Allowed cfg m)
    (d : Decoder V2State) (bytes : List UInt8) (hlength : bytes.length = d.toRead)
    (hflags : d.state.msgFlags = { MsgFlags.none with more := m.more, command := m.flags.command })
    (hact : act cfg d.state (d.filled ++ bytes) = d.state.initSize cfg m.body.length) :
    ∃ d', feedAll (stages cfg).feed d (bytes ++ m.body) = ([received .v2 m], .ok d') ∧ AtStart .v2 d' := by
  obtain ⟨p, hp, hsize, -⟩ := hm.initSize d.state.inProgress
  have hlength' : (stages cfg).act d.state (d.filled ++ bytes) = .ok (none, m.body.length,
      { d.state with next := .messageReady, inProgress := { p with flags := d.state.msgFlags } }) := by
    refine hact.trans ?_
    simp only [initSize, hp, hsize]
  have hbody : (stages cfg).act { d.state with
      next := .messageReady, inProgress := { p with flags := d.state.msgFlags } } m.body =
      .ok (some (received .v2 m), 1, { d.state with
        next := .flagsReady, inProgress := { p with flags := d.state.msgFlags } }) := by
    simp only [stages, act, Incoming.msg, hflags]
    rfl
  rw [Stages.feedAll_stage d bytes m.body hlength, Stages.feedAll_body hlength' hbody]
  exact ⟨_, rfl, rfl, rfl, rfl⟩

lemma feedAll_wire {cfg : DecoderConfig} {m : Msg} (hm : Allowed cfg m) (fl : MsgFlags)
    (p : Incoming) :
    ∃ d, feedAll (stages cfg).feed ⟨⟨.flagsReady, fl, p⟩, [], 1, one_pos⟩ (wire .v2 m) =
      ([received .v2 m], .ok d) ∧ AtStart .v2 d := by
  have hlimit := hm.limit
  have hmax := hm.sizeMax
  obtain ⟨flags, hflags⟩ : ∃ flags, flags =
    ({ MsgFlags.none with more := m.more, command := m.flags.command } : MsgFlags) := ⟨_, rfl⟩
  have hact (large : Bool) : act cfg ⟨.flagsReady, fl, p⟩ [v2Flags m.more large m.flags.command] =
      if large then .ok (none, 8, ⟨.eightByteSizeReady, flags, p⟩)
      else .ok (none, 1, ⟨.oneByteSizeReady, flags, p⟩) := by
    obtain ⟨hmore, hlarge, hcommand⟩ := v2Flags_bits m.more large m.flags.command
    simp only [act, getD_cons_zero, hmore, hcommand, hlarge, hflags, Bool.decide_eq_true]
  simp only [wire, header]
  by_cases hlong : m.body.length > 255
  · have hfirst : (stages cfg).settle ⟨.flagsReady, fl, p⟩ [v2Flags m.more true m.flags.command] =
        .ok (none, ⟨⟨.eightByteSizeReady, flags, p⟩, [], 8, by decide⟩) :=
      Stages.settle_of_pos (hact true) _
    have hact' : act cfg ⟨.eightByteSizeReady, flags, p⟩ (putUint64 m.body.length) =
        initSize cfg m.body.length ⟨.eightByteSizeReady, flags, p⟩ := by
      have hmod : m.body.length % (cfg.sizeMax + 1) = m.body.length := mod_eq_of_lt (by omega)
      simp only [act, getUint64_putUint64 (lt_of_succ_lt hm.fits), hlimit, hmod,
        Bool.false_eq_true, ↓reduceIte, ne_eq, not_true_eq_false]
    obtain ⟨d, hrest, hd⟩ := feedAll_of_size hm
      ⟨⟨.eightByteSizeReady, flags, p⟩, [], 8, by decide⟩ _ (length_putUint64 _) hflags hact'
    refine ⟨d, ?_, hd⟩
    rw [← hrest, if_pos hlong, decide_eq_true hlong]
    exact Stages.feedAll_stage_ok (S := stages cfg) ⟨⟨.flagsReady, fl, p⟩, [], 1, one_pos⟩ [_] _ rfl hfirst
  · have hfirst : (stages cfg).settle ⟨.flagsReady, fl, p⟩ [v2Flags m.more false m.flags.command] =
        .ok (none, ⟨⟨.oneByteSizeReady, flags, p⟩, [], 1, by decide⟩) :=
      Stages.settle_of_pos (hact false) _
    have hbyte : (ofNat m.body.length).toNat = m.body.length := by
      rw [toNat_ofNat']
      omega
    have hact' : act cfg ⟨.oneByteSizeReady, flags, p⟩ [ofNat m.body.length] =
        initSize cfg m.body.length ⟨.oneByteSizeReady, flags, p⟩ := by
      simp only [act, getD_cons_zero, hbyte, hlimit]
      rfl
    obtain ⟨d, hrest, hd⟩ := feedAll_of_size hm
      ⟨⟨.oneByteSizeReady, flags, p⟩, [], 1, by decide⟩ [_] rfl hflags hact'
    refine ⟨d, ?_, hd⟩
    rw [← hrest, if_neg hlong, decide_eq_false hlong]
    exact Stages.feedAll_stage_ok (S := stages cfg) ⟨⟨.flagsReady, fl, p⟩, [], 1, one_pos⟩ [_] _ rfl hfirst

end V2State

lemma feedAll_wire {cfg : DecoderConfig} {v : Version} {m : Msg} (hm : Allowed cfg m)
    {d : Decoder (DecoderState v)} (hd : AtStart v d) :
    ∃ d', feedAll (stages cfg v).feed d (wire v m) = ([received v m], .ok d') ∧ AtStart v d' := by
  obtain ⟨state, filled, toRead, hpos⟩ := d
  cases v with
  | v1 =>
    obtain ⟨next, p⟩ := state
    obtain ⟨rfl, rfl, rfl⟩ := hd
    exact V1State.feedAll_wire hm p
  | v2 =>
    obtain ⟨next, fl, p⟩ := state
    obtain ⟨rfl, rfl, rfl⟩ := hd
    exact V2State.feedAll_wire hm fl p

lemma feedAll_wires {cfg : DecoderConfig} {v : Version} {msgs : List Msg}
    (hmsgs : ∀ m ∈ msgs, Allowed cfg m) {d : Decoder (DecoderState v)} (hd : AtStart v d) :
    ∃ d', feedAll (stages cfg v).feed d (Encoder.wires v msgs) = (msgs.map (received v), .ok d') ∧
      AtStart v d' := by
  induction msgs generalizing d with
  | nil => exact ⟨d, rfl, hd⟩
  | cons m msgs ih =>
    obtain ⟨d1, hm, hd1⟩ := feedAll_wire (hmsgs m mem_cons_self) hd
    obtain ⟨d2, hrest, hd2⟩ := ih (fun m' hm' => hmsgs m' (mem_cons_of_mem m hm')) hd1
    refine ⟨d2, ?_, hd2⟩
    rw [Encoder.wires, flatMap_cons, feedAll_append, hm, Outcome.andThen_ok]
    rw [Encoder.wires] at hrest
    rw [hrest]
    rfl

/-- **Round trip.** Messages that the receiver admits are sent without a failure, whatever buffers the
encoder is given. With enough calls that have room for a byte everything is sent; and when everything
is sent, whichever way the output is cut into chunks and received, the decoder of the same version
gives exactly these messages and is then between two messages. -/
theorem zmtp_round_trip (cfg : DecoderConfig) (v : Version) (bufsize : ℕ) {msgs : List Msg}
    (hmsgs : ∀ m ∈ msgs, Allowed cfg m) (calls : List (Option ℕ)) :
    ∃ out e rest, Encoder.transmit v bufsize .init msgs calls = .ok (out, e, rest) ∧
      ((Encoder.wires v msgs).length + msgs.length ≤ Encoder.roomy bufsize calls →
        e.inProgress = none ∧ rest = []) ∧
      (e.inProgress = none → rest = [] → ∀ cs, Receivable cfg v cs →
        cs.flatMap Chunk.bytes = out →
        ∃ d, receive cfg v cs = (msgs.map (received v), .ok d) ∧ AtStart v d) := by
  obtain ⟨out, e, rest, hrun, hwf, hout, hwork⟩ :=
    Encoder.WF.init.transmit v bufsize (fun m hm => (hmsgs m hm).body) calls
  refine ⟨out, e, rest, hrun, fun hcalls => ?_, fun hidle hrest cs hcs hbytes => ?_⟩
  · have hzero : Encoder.totalWork v e rest = 0 := by
      rcases hwork with hzero | hle
      · exact hzero
      have hinit : Encoder.totalWork v .init msgs = (Encoder.wires v msgs).length + msgs.length := by
        have hidle : Encoder.init.work = 0 := Encoder.work_of_idle rfl
        simp [Encoder.totalWork, hidle]
      omega
    unfold Encoder.totalWork Encoder.work at hzero
    have hrest : rest = [] := length_eq_zero_iff.mp (by omega)
    refine ⟨?_, hrest⟩
    cases hbusy : e.inProgress with
    | none => rfl
    | some m =>
      rw [hbusy] at hzero
      simp at hzero
  · have hwire : out = Encoder.wires v msgs := by
      simpa [Encoder.pending, hidle, hrest, Encoder.init, Encoder.wires] using hout
    rw [receive_eq_feedAll hcs, hbytes, hwire]
    exact feedAll_wires hmsgs (atStart_newDecoder v)

/-- Two frames, one of them empty, through a buffer of two bytes: the headers and the body are handed
out without a copy. -/
theorem zmtp_round_trip_zero_copy :
    let cfg : DecoderConfig := ⟨10, 2 ^ 64 - 1, 29, 40, fun _ _ => true⟩
    let msgs : List Msg := [⟨.data, { MsgFlags.none with more := true }, [1, 2, 3]⟩, ⟨.data, MsgFlags.none, []⟩]
    ∃ out e, Encoder.transmit .v2 2 .init msgs (replicate 9 none) = .ok (out, e, []) ∧
      ∀ cs, Receivable cfg .v2 cs → cs.flatMap Chunk.bytes = out →
        ∃ d, receive cfg .v2 cs = (msgs, .ok d) ∧ AtStart .v2 d := by
  intro cfg msgs
  have hmsgs : ∀ m ∈ msgs, Allowed cfg m := by
    intro m hm
    simp only [msgs, mem_cons, not_mem_nil, or_false] at hm
    rcases hm with rfl | rfl
    · exact ⟨rfl, rfl, by decide, fun h => absurd h (by decide), by decide⟩
    · exact ⟨rfl, rfl, by decide, fun h => absurd h (by decide), by decide⟩
  obtain ⟨out, e, rest, hrun, hdone, hread⟩ := zmtp_round_trip cfg .v2 2 hmsgs (replicate 9 none)
  obtain ⟨hidle, rfl⟩ := hdone (by decide)
  exact ⟨out, e, hrun, fun cs hcs hbytes => hread hidle rfl cs hcs hbytes⟩

end Zmq
