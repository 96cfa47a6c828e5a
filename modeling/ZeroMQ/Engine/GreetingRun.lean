import ZeroMQ.Engine.Negotiation

/-!
# The engine negotiates

The two buffers are described apart from each other: `Receives` says what has been received, and
`Sends` says what has been put into the send buffer and how much of it has been sent. One read of the
loop makes the first longer, and brings the second up to date with it.
-/

namespace Zmq

open Foundation List Nat

namespace Greeting

variable {o : GreetingOptions} {s t : Greeting} {bytes w : List UInt8}

/-! ### The buffers -/

/-- The engine has received these bytes. -/
structure Receives (s : Greeting) (bytes : List UInt8) : Prop where
  cells : bytes <+: s.greetingRecv.cells
  read : s.greetingBytesRead = bytes.length

/-- The engine has prepared these bytes, and has sent those before `outpos`. -/
structure Sends (s : Greeting) (w : List UInt8) : Prop where
  cells : w <+: s.greetingSend.cells
  length_eq : s.outpos + s.outsize = w.length
  sent : s.sent = w.take s.outpos

lemma Receives.get (h : s.Receives bytes) {i : Fin 64} (hi : i.val < bytes.length) :
    bytes[i.val]? = some (s.greetingRecv.get i) := Block.get_of_isPrefix h.cells hi

lemma Receives.get_eq (h : s.Receives bytes) {i : Fin 64} {b : UInt8} (hb : bytes[i.val]? = some b) :
    s.greetingRecv.get i = b := by
  have hget := h.get (List.getElem?_eq_some_iff.1 hb).1
  exact Option.some.inj (hget.symm.trans hb)

/-- The bytes of the greeting that have not been sent. -/
def waiting (s : Greeting) : List UInt8 := (s.greetingSend.cells.drop s.outpos).take s.outsize

lemma Sends.waiting_eq (h : s.Sends w) : s.waiting = w.drop s.outpos := by
  obtain ⟨rest, hrest⟩ := h.cells
  have hlen := h.length_eq
  rw [waiting, ← hrest, drop_append_of_le_length (by omega),
    take_append_of_le_length (by rw [length_drop]; omega), take_of_length_le]
  rw [length_drop]
  omega

lemma Sends.sent_append_waiting (h : s.Sends w) : s.sent ++ s.waiting = w := by
  rw [h.sent, h.waiting_eq, take_append_drop]

/-- Two states differ at most in the output and in what is expected. -/
structure Prepares (s t : Greeting) : Prop where
  connection : t.connection = s.connection
  phase : t.phase = s.phase
  greetingRecv : t.greetingRecv = s.greetingRecv
  greetingBytesRead : t.greetingBytesRead = s.greetingBytesRead
  encoder : t.encoder = s.encoder
  input : t.input = s.input

lemma Prepares.refl (s : Greeting) : Prepares s s := ⟨rfl, rfl, rfl, rfl, rfl, rfl⟩

lemma Prepares.trans {u : Greeting} (h : Prepares s t) (h' : Prepares t u) : Prepares s u :=
  ⟨h'.connection.trans h.connection, h'.phase.trans h.phase, h'.greetingRecv.trans h.greetingRecv,
    h'.greetingBytesRead.trans h.greetingBytesRead, h'.encoder.trans h.encoder, h'.input.trans h.input⟩

lemma Prepares.receives (h : Prepares s t) (hs : s.Receives bytes) : t.Receives bytes :=
  ⟨h.greetingRecv ▸ hs.cells, h.greetingBytesRead ▸ hs.read⟩

lemma prepares_wakeOutput (s : Greeting) : Prepares s s.wakeOutput := by
  unfold wakeOutput
  split_ifs
  · exact ⟨rfl, rfl, rfl, rfl, rfl, rfl⟩
  · exact .refl s

lemma wakeOutput_greetingSize (s : Greeting) : s.wakeOutput.greetingSize = s.greetingSize := by
  unfold wakeOutput
  split_ifs <;> rfl

lemma Sends.wakeOutput (h : s.Sends w) : s.wakeOutput.Sends w := by
  unfold Greeting.wakeOutput
  split_ifs
  · exact { h with }
  · exact h

lemma Sends.append (h : s.Sends w) (bytes : List UInt8) (hfits : w.length + bytes.length ≤ 64) :
    ∃ t, s.append bytes = .ok t ∧ t.Sends (w ++ bytes) ∧ Prepares s t ∧
      t.greetingSize = s.greetingSize := by
  obtain ⟨send, hstore, hcells⟩ := Block.store_append h.cells bytes hfits
  have hlen := h.length_eq
  refine ⟨{ s with greetingSend := send, outsize := s.outsize + bytes.length }, ?_,
    ⟨hcells, ?_, ?_⟩, ⟨rfl, rfl, rfl, rfl, rfl, rfl⟩, rfl⟩
  · rw [Greeting.append, hlen, hstore]
  · simp only [length_append]
    omega
  · rw [take_append_of_le_length (show s.outpos ≤ w.length by omega)]
    exact h.sent

lemma Sends.appendMechanism (h : s.Sends w) (hfits : w.length + 53 ≤ 64) :
    ∃ t, s.appendMechanism o = .ok t ∧ t.Sends (w ++ greetingRest o .zmtp3) ∧ Prepares s t ∧
      t.greetingSize = 64 := by
  obtain ⟨t, happend, ht, hprep, -⟩ := h.append [0] (by simp; omega)
  have hlen := ht.length_eq
  have hname : o.mechanism.name.length ≤ 20 := by cases o.mechanism <;> decide
  obtain ⟨b1, hb1, rest, hrest⟩ :=
    Block.store_append ht.cells (replicate 20 0) (by simp; omega)
  have hcut : b1.cells = (w ++ [0]) ++ replicate o.mechanism.name.length 0 ++
      (replicate (20 - o.mechanism.name.length) 0 ++ rest) := by
    have hzeros : replicate 20 (0 : UInt8) = replicate o.mechanism.name.length 0 ++
        replicate (20 - o.mechanism.name.length) 0 := by
      rw [replicate_append_replicate, Nat.add_sub_cancel' hname]
    rw [← hrest, hzeros]
    simp only [append_assoc]
  obtain ⟨b2, hb2, hcells2⟩ := Block.store_of_eq hcut o.mechanism.name (by simp)
  have hpadded : (w ++ [0]) ++ o.mechanism.padded <+: b2.cells := by
    refine ⟨rest, ?_⟩
    rw [hcells2, MechanismOption.padded]
    simp only [append_assoc]
  obtain ⟨b3, hb3, hcells3⟩ :=
    Block.store_append hpadded (replicate 32 0) (by simp [length_padded]; omega)
  have hlen3 : (w ++ [0] ++ o.mechanism.padded).length = t.outpos + (t.outsize + 20) := by
    rw [length_append, length_padded]
    omega
  refine ⟨{ t with greetingSend := b3, outsize := t.outsize + 20 + 32, greetingSize := 64 }, ?_,
    ⟨?_, ?_, ?_⟩, hprep.trans ⟨rfl, rfl, rfl, rfl, rfl, rfl⟩, rfl⟩
  · simp only [Greeting.appendMechanism, happend, overwrite, hlen, hb1, hb2, Except.bind, bind]
    rw [← hlen3, hb3]
    rfl
  · rw [greetingRest, ← append_assoc, ← append_assoc]
    exact hcells3
  · rw [length_append, length_greetingRest_zmtp3]
    simp only [length_append, length_singleton] at hlen
    simp only
    omega
  · have hrestEq : w ++ greetingRest o .zmtp3 =
        (w ++ [0]) ++ (o.mechanism.padded ++ replicate 32 0) := by
      simp only [greetingRest, append_assoc]
    rw [hrestEq, take_append_of_le_length (show t.outpos ≤ (w ++ [0]).length by omega)]
    exact ht.sent

/-! ### One read -/

/-- The buffers fit together. -/
structure Balanced (o : GreetingOptions) (s : Greeting) (bytes : List UInt8) : Prop where
  receives : s.Receives bytes
  sends : s.Sends (reply o bytes)
  size : s.greetingSize = expected bytes

lemma Sends.sendMajor (h : s.Sends w) :
    ∃ t, s.sendMajor = .ok t ∧ t.Sends (if w.length = 10 then w ++ [3] else w) ∧ Prepares s t ∧
      t.greetingSize = s.greetingSize := by
  by_cases hlen : w.length = 10
  · obtain ⟨t, happend, ht, hprep, hsize⟩ := h.wakeOutput.append [3] (by rw [hlen]; decide)
    refine ⟨t, ?_, ?_, (prepares_wakeOutput s).trans hprep, hsize.trans (wakeOutput_greetingSize s)⟩
    · rw [Greeting.sendMajor, h.length_eq, hlen]
      exact happend
    · rwa [if_pos hlen]
  · refine ⟨s, ?_, ?_, .refl s, rfl⟩
    · rw [Greeting.sendMajor, h.length_eq]
      exact if_neg hlen
    · rwa [if_neg hlen]

/-- The rest of the greeting is sent behind the major version number, and only there, when the peer's
revision is known. -/
lemma Sends.sendRest (h : s.Sends w) (hs : s.Receives bytes) {revision : UInt8}
    (hrev : bytes[10]? = some revision) (hlen : w.length = 11) :
    ∃ t, s.sendRest o = .ok t ∧ t.Sends (w ++ greetingRest o (.ofRevision revision)) ∧ Prepares s t ∧
      t.greetingSize =
        if PeerVersion.ofRevision revision = .zmtp3 then 64 else s.greetingSize := by
  have hget : s.greetingRecv.get 10 = revision := hs.get_eq hrev
  have hread : s.greetingBytesRead > signatureSize := by
    rw [hs.read]
    exact (List.getElem?_eq_some_iff.1 hrev).1
  have hout : s.outpos + s.outsize = signatureSize + 1 := h.length_eq.trans hlen
  rw [Greeting.sendRest, if_pos hread, if_pos hout, hget]
  by_cases hold : revision = 0 ∨ revision = 1
  · have hv : PeerVersion.ofRevision revision ≠ .zmtp3 := by
      rcases hold with rfl | rfl <;> decide
    have hrest : greetingRest o (.ofRevision revision) = [o.type.code] := by
      rcases hold with rfl | rfl <;> rfl
    obtain ⟨t, happend, ht, hprep, hsize⟩ := h.wakeOutput.append [o.type.code] (by simp [hlen])
    rw [if_pos hold, if_neg hv, hrest]
    exact ⟨t, happend, ht, (prepares_wakeOutput s).trans hprep,
      hsize.trans (wakeOutput_greetingSize s)⟩
  · have hv : PeerVersion.ofRevision revision = .zmtp3 := by
      rw [PeerVersion.ofRevision, if_neg (fun h0 => hold (.inl h0)),
        if_neg (fun h1 => hold (.inr h1))]
    obtain ⟨t, happend, ht, hprep, hsize⟩ := h.wakeOutput.appendMechanism (o := o) (by omega)
    rw [if_neg hold, hv, if_pos rfl]
    exact ⟨t, happend, ht, (prepares_wakeOutput s).trans hprep, hsize⟩

lemma sendRest_of_no_revision (hs : s.Receives bytes) (hrev : bytes[10]? = none) :
    s.sendRest o = .ok s := by
  have hle : bytes.length ≤ 10 := getElem?_eq_none_iff.1 hrev
  rw [Greeting.sendRest, hs.read]
  exact if_neg (by simp only [signatureSize]; omega)

lemma Sends.sendRest_of_length (h : s.Sends w) (hlen : w.length ≠ 11) : s.sendRest o = .ok s := by
  have hout : s.outpos + s.outsize ≠ signatureSize + 1 := by
    rw [h.length_eq]
    exact hlen
  rw [Greeting.sendRest, if_neg hout]
  exact ite_self _

lemma Sends.sendRest_balanced (h : s.Sends (signature o ++ [3])) (hs : s.Receives bytes)
    (hver : Versioned bytes) (hsize : s.greetingSize = 12) :
    ∃ t, s.sendRest o = .ok t ∧ t.Balanced o bytes ∧ Prepares s t := by
  have hreply := hver.reply (o := o)
  have hpeer := hver.peerVersion
  cases hrev : bytes[10]? with
  | none =>
    rw [hrev] at hreply hpeer
    refine ⟨s, sendRest_of_no_revision hs hrev, ⟨hs, ?_, ?_⟩, .refl s⟩
    · rw [hreply, replyTo, append_nil]
      exact h
    · rw [hsize, expected, hpeer]
      rfl
  | some revision =>
    rw [hrev] at hreply hpeer
    obtain ⟨t, hrest, ht, hprep, hsize'⟩ := h.sendRest (o := o) hs hrev rfl
    refine ⟨t, hrest, ⟨hprep.receives hs, ?_, ?_⟩, hprep⟩
    · rw [hreply]
      exact ht
    · rw [hsize', hsize, expected, hpeer]
      simp only [Option.map_some, Option.some.injEq]

variable {more bytes' bytes'' stream : List UInt8}

/-- **The reply to a versioned peer is brought up to date.** -/
theorem Sends.answer (h : s.Sends (reply o bytes))
    (hs : s.Receives (bytes ++ more)) (hver : Versioned (bytes ++ more))
    (hsize : s.greetingSize = expected bytes) :
    ∃ t u, s.sendMajor = .ok t ∧ t.sendRest o = .ok u ∧ u.Balanced o (bytes ++ more) ∧
      Prepares s u := by
  obtain ⟨t, hmajor, ht, hprep, hsize'⟩ := h.sendMajor
  -- What is there when the peer's revision has not been answered.
  have hnew : t.Sends (signature o ++ [3]) → expected bytes = 12 →
      ∃ t u, s.sendMajor = .ok t ∧ t.sendRest o = .ok u ∧ u.Balanced o (bytes ++ more) ∧
        Prepares s u := by
    intro hsends hexp
    obtain ⟨u, hrest, hu, hprep'⟩ := hsends.sendRest_balanced (hprep.receives hs) hver
      (hsize'.trans (hsize.trans hexp))
    exact ⟨t, u, hmajor, hrest, hu, hprep.trans hprep'⟩
  by_cases hshort : bytes.length < 10
  · have hnot : ¬ Versioned bytes := fun hold => absurd hold.length (by omega)
    rw [reply_of_not_versioned hnot] at ht
    exact hnew ht (expected_of_not_versioned hnot)
  have hsame : ∀ i < 10, (bytes ++ more)[i]? = bytes[i]? := by
    intro i hi
    exact getElem?_append_left (by omega)
  have hold : Versioned bytes := by
    obtain ⟨hfirst, flags, hflags, hodd⟩ := hver
    exact ⟨(hsame 0 (by omega)).symm.trans hfirst, flags, (hsame 9 (by omega)).symm.trans hflags, hodd⟩
  have hreply := hold.reply (o := o)
  rw [if_neg (by rw [hreply]; simp)] at ht
  cases hrev : bytes[10]? with
  | none =>
    rw [hreply, hrev, replyTo, append_nil] at ht
    refine hnew ht (if_neg ?_)
    rw [hold.peerVersion, hrev]
    simp
  | some revision =>
    have hrev' := getElem?_append_of_some hrev more
    refine ⟨t, t, hmajor, ht.sendRest_of_length ?_, ⟨hprep.receives hs, ?_, ?_⟩, hprep⟩
    · rw [hreply, hrev, length_append, length_replyTo]
      split_ifs <;> simp
    · rw [hver.reply, hrev', ← hrev, ← hreply]
      exact ht
    · rw [hsize', hsize, expected, expected, hver.peerVersion, hold.peerVersion, hrev, hrev']

/-! ### The loop -/

/-- What can be said about the received bytes when the loop ends. -/
def Ends (bytes : List UInt8) (c : Connection) : Received → Prop
  | .complete => ∃ v, peerVersion bytes = some v ∧ (v = .unversioned ∨ bytes.length = v.greetingLength)
  | .again => bytes.length < expected bytes ∧ peerVersion bytes ≠ some .unversioned
  | .lost => bytes.length < expected bytes ∧ peerVersion bytes ≠ some .unversioned ∧
      c.unread = [] ∧ c.ending ≠ .staysOpen

/-- The engine has read on, and has done nothing else. -/
structure Reads (s t : Greeting) (bytes bytes' : List UInt8) : Prop where
  stream : bytes' ++ t.connection.unread = bytes ++ s.connection.unread
  ending : t.connection.ending = s.connection.ending
  phase : t.phase = s.phase
  encoder : t.encoder = s.encoder
  input : t.input = s.input

lemma Reads.trans {u : Greeting} (h : Reads s t bytes bytes')
    (h' : Reads t u bytes' bytes'') : Reads s u bytes bytes'' :=
  ⟨h'.stream.trans h.stream, h'.ending.trans h.ending, h'.phase.trans h.phase,
    h'.encoder.trans h.encoder, h'.input.trans h.input⟩

lemma Sends.of_not_versioned (h : s.Sends (reply o bytes))
    (hs : s.Receives (bytes ++ more)) (hver : ¬ Versioned (bytes ++ more))
    (hsize : s.greetingSize = expected bytes) : s.Balanced o (bytes ++ more) := by
  have hold : ¬ Versioned bytes := fun hold => hver (hold.append more)
  refine ⟨hs, ?_, ?_⟩
  · rw [reply_of_not_versioned hver, ← reply_of_not_versioned hold]
    exact h
  · rw [hsize, expected_of_not_versioned hver, expected_of_not_versioned hold]

lemma Reads.refl (s : Greeting) (bytes : List UInt8) : Reads s s bytes bytes :=
  ⟨rfl, rfl, rfl, rfl, rfl⟩

lemma ends_complete (c : Connection) (hlen : bytes.length = expected bytes)
    (hver : peerVersion bytes ≠ some .unversioned) : Ends bytes c .complete := by
  have h12 : 12 ≤ expected bytes := by
    unfold expected
    split_ifs <;> decide
  obtain ⟨v, hv⟩ := exists_peerVersion (show 11 ≤ bytes.length by omega)
  have hne : v ≠ .unversioned := fun hne => hver (hne ▸ hv)
  exact ⟨v, hv, .inr (hlen.trans (expected_of_peerVersion hv hne))⟩

lemma Receives.store (h : s.Receives bytes) (data : List UInt8)
    (hfits : bytes.length + data.length ≤ 64) :
    ∃ recv, s.greetingRecv.store s.greetingBytesRead data = some recv ∧
      bytes ++ data <+: recv.cells := by
  rw [h.read]
  exact Block.store_append h.cells data hfits

lemma Sends.inspect {data : List UInt8} (h : s.Sends (reply o bytes)) (hs : s.Receives (bytes ++ data))
    (hsize : s.greetingSize = expected bytes) (hne : data ≠ []) :
    ∃ done t, s.inspect o = .ok (done, t) ∧ t.Balanced o (bytes ++ data) ∧ Prepares s t ∧
      (done = true ↔ peerVersion (bytes ++ data) = some .unversioned) := by
  have hpos := length_pos_iff.2 hne
  have hfirst : (bytes ++ data)[0]? = some (s.greetingRecv.get 0) :=
    hs.get (i := 0) (by rw [length_append]; exact Nat.lt_add_left _ hpos)
  unfold Greeting.inspect
  by_cases hff : s.greetingRecv.get 0 = 0xff
  swap
  · have hpeer := peerVersion_of_first hfirst hff
    rw [if_pos hff]
    exact ⟨true, s, rfl, h.of_not_versioned hs (fun hver => hver.ne_unversioned hpeer) hsize,
      .refl s, by simp [hpeer]⟩
  rw [if_neg (not_not.2 hff)]
  rw [hff] at hfirst
  by_cases hshort : s.greetingBytesRead < signatureSize
  · have hlen : (bytes ++ data).length < 10 := hs.read ▸ hshort
    have hpeer : peerVersion (bytes ++ data) = none := by
      rw [peerVersion, hfirst, getElem?_eq_none_iff.2 (by omega)]
      rfl
    rw [if_pos hshort]
    exact ⟨false, s, rfl, h.of_not_versioned hs (fun hver => absurd hver.length (by omega)) hsize,
      .refl s, by simp [hpeer]⟩
  rw [if_neg hshort]
  have hlen : 10 ≤ (bytes ++ data).length := hs.read ▸ Nat.le_of_not_lt hshort
  have hflags : (bytes ++ data)[9]? = some (s.greetingRecv.get 9) := hs.get (i := 9) hlen
  by_cases heven : s.greetingRecv.get 9 &&& 1 = 0
  · have hpeer := peerVersion_of_flags hfirst hflags heven
    rw [if_pos heven]
    exact ⟨true, s, rfl, h.of_not_versioned hs (fun hver => hver.ne_unversioned hpeer) hsize,
      .refl s, by simp [hpeer]⟩
  · have hver : Versioned (bytes ++ data) := ⟨hfirst, s.greetingRecv.get 9, hflags, heven⟩
    obtain ⟨t, u, hmajor, hrest, hu, hprep⟩ := h.answer hs hver hsize
    rw [if_neg heven, hmajor]
    refine ⟨false, u, ?_, hu, hprep, by simp [hver.ne_unversioned]⟩
    simp only [bind, Except.bind, hrest]
    rfl

/-- **The loop keeps the buffers in balance.** -/
theorem Balanced.receiveGreeting (h : s.Balanced o bytes) (hle : bytes.length ≤ expected bytes)
    (hver : peerVersion bytes ≠ some .unversioned) (reads : List ℕ) :
    ∃ res t bytes', s.receiveGreeting o reads = .ok (res, t) ∧ t.Balanced o bytes' ∧
      Reads s t bytes bytes' ∧ Ends bytes' t.connection res ∧
      (res = .again → (∀ n ∈ reads, n ≠ 0) →
        t.connection.Dry ∨ bytes.length + reads.length ≤ bytes'.length) := by
  induction reads generalizing s bytes with
  | nil =>
    have hread := h.receives.read
    have hsize := h.size
    rw [Greeting.receiveGreeting]
    split_ifs with hlt
    · exact ⟨.again, s, bytes, rfl, h, .refl s bytes, ⟨by omega, hver⟩, fun _ _ => Or.inr le_rfl⟩
    · exact ⟨.complete, s, bytes, rfl, h, .refl s bytes,
        ends_complete s.connection (by omega) hver, fun hres => by cases hres⟩
  | cons limit reads ih =>
    have hread := h.receives.read
    have hsize := h.size
    rw [Greeting.receiveGreeting]
    by_cases hlt : s.greetingBytesRead < s.greetingSize
    swap
    · rw [if_neg hlt]
      exact ⟨.complete, s, bytes, rfl, h, .refl s bytes,
        ends_complete s.connection (by omega) hver, fun hres => by cases hres⟩
    rw [if_pos hlt]
    obtain ⟨hagain, hdry⟩ | ⟨hunread, hend, hlost⟩ | ⟨data, rest, hunread, hne, hdata, htcp⟩ :=
      s.connection.tcpRead_cases limit (Nat.sub_pos_of_lt hlt)
    · rw [hagain]
      exact ⟨.again, s, bytes, rfl, h, .refl s bytes, ⟨by omega, hver⟩,
        fun _ hpos => Or.inl (hdry (hpos limit mem_cons_self))⟩
    · refine ⟨.lost, s, bytes, ?_, h, .refl s bytes, ⟨by omega, hver, hunread, hend⟩,
        fun hres => by cases hres⟩
      rcases hlost with hlost | hlost <;> rw [hlost]
    have hexp := expected_le bytes
    obtain ⟨recv, hstore, hcells⟩ := h.receives.store data (by omega)
    rw [htcp]
    simp only [hstore]
    obtain ⟨s1, hs1⟩ : ∃ s1 : Greeting, s1 = { s with
        connection := { s.connection with unread := rest }, greetingRecv := recv,
        greetingBytesRead := s.greetingBytesRead + data.length } := ⟨_, rfl⟩
    have hrecv : s1.Receives (bytes ++ data) := by
      rw [hs1]
      exact ⟨hcells, by simp [hread]⟩
    have hsends : s1.Sends (reply o bytes) := by
      rw [hs1]
      exact { h.sends with }
    have hreads : Reads s s1 bytes (bytes ++ data) := by
      rw [hs1]
      exact ⟨by rw [hunread, append_assoc], rfl, rfl, rfl, rfl⟩
    have hsize1 : s1.greetingSize = expected bytes := by rw [hs1, ← hsize]
    rw [← hs1]
    obtain ⟨done, t, hinspect, ht, hprep, hdone⟩ := hsends.inspect hrecv hsize1 hne
    have hreads' : Reads s t bytes (bytes ++ data) := hreads.trans
      ⟨by rw [hprep.connection], by rw [hprep.connection], hprep.phase, hprep.encoder, hprep.input⟩
    rw [hinspect]
    cases done with
    | true =>
      exact ⟨.complete, t, bytes ++ data, rfl, ht, hreads', ⟨.unversioned, hdone.1 rfl, Or.inl rfl⟩,
        fun hres => by cases hres⟩
    | false =>
      have hmono := expected_append_le bytes data
      have hpos := length_pos_iff.2 hne
      have hlen : (bytes ++ data).length = bytes.length + data.length := length_append
      obtain ⟨res, u, bytes', hrun, hu, hreads'', hends, hdry⟩ := ih ht (by omega)
        (fun hpeer => by simpa using hdone.2 hpeer)
      refine ⟨res, u, bytes', hrun, hu, hreads'.trans hreads'', hends, fun hres hreads => ?_⟩
      refine (hdry hres fun n hn => hreads n (mem_cons_of_mem limit hn)).imp_right fun hle => ?_
      rw [length_cons]
      omega

/-! ### The decision -/

lemma identityEncoder_eq (o : GreetingOptions) :
    ∃ e, identityEncoder o = .ok e ∧ e.pending = o.identity := by
  obtain ⟨m, hm⟩ : ∃ m : Msg, m = ⟨.data, .none, o.identity⟩ := ⟨_, rfl⟩
  have hload : Encoder.loadMsg .v1 m Encoder.init =
      .ok ⟨header .v1 m, .sizeReady, false, some m⟩ := by
    rw [hm]
    rfl
  have hlen : (if o.identity.length + 1 ≥ 255 then 10 else 2) = (header .v1 m).length := by
    have hle := o.identity_le
    have hmod : (o.identity.length + 1) % 2 ^ 64 = o.identity.length + 1 := mod_eq_of_lt (by omega)
    simp only [header, hm, hmod]
    by_cases hlong : o.identity.length + 1 ≥ 255
    · rw [if_pos hlong, if_neg (by omega)]
      rfl
    · rw [if_neg hlong, if_pos (by omega)]
      rfl
  have hencode : Encoder.encode .v1 outBatchSize ⟨header .v1 m, .sizeReady, false, some m⟩
      (some (header .v1 m).length) = .ok (header .v1 m, ⟨[], .sizeReady, false, some m⟩) :=
    Encoder.encode_toWrite .v1 outBatchSize (e := ⟨header .v1 m, .sizeReady, false, some m⟩)
      (header_ne_nil .v1 m) rfl
  refine ⟨⟨[], .sizeReady, false, some m⟩, ?_, ?_⟩
  · rw [identityEncoder, ← hm, hload, hlen]
    simp only [hencode, ↓reduceIte]
  · rw [hm]
    rfl

/-- What is known in each phase, when `bytes` have been received of `stream`. -/
def Concludes (o : GreetingOptions) (stream bytes : List UInt8) (s : Greeting) : Prop :=
  match s.phase with
  | .handshaking =>
    bytes.length < expected bytes ∧ peerVersion bytes ≠ some .unversioned ∧ s.input = []
  | .running p =>
    negotiate o stream = .chosen p (s.input ++ s.connection.unread) ∧
      ∃ e, s.encoder = some e ∧ reply o bytes ++ e.pending = greeting o p.version
  | .failed .protocolError => negotiate o stream = .failed
  | .failed .connectionError => negotiate o stream = .undecided ∧ s.connection.ending ≠ .staysOpen

lemma Balanced.update (h : s.Balanced o bytes) (p : Phase) (input : List UInt8) (required : Bool) :
    Balanced o { s with phase := p, input, subscriptionRequired := required } bytes :=
  ⟨⟨h.receives.cells, h.receives.read⟩, { h.sends with }, h.size⟩

lemma Balanced.finish (h : s.Balanced o bytes) (p : Protocol) (e : Encoder) :
    (s.finish p e).Balanced o bytes := by
  have hprep := prepares_wakeOutput s
  have hrecv := hprep.receives h.receives
  have hsends := h.sends.wakeOutput
  have hsize := (wakeOutput_greetingSize s).trans h.size
  exact ⟨⟨hrecv.cells, hrecv.read⟩, { hsends with }, hsize⟩

lemma Balanced.concludes_finish {p : Protocol} (h : s.Balanced o bytes) (hinput : s.input = [])
    (hv : peerVersion bytes = some p.version) (hne : p.version ≠ .unversioned)
    (hchosen : negotiate o (bytes ++ s.connection.unread) = .chosen p s.connection.unread) :
    (s.finish p Encoder.init).Balanced o bytes ∧ (s.finish p Encoder.init).connection = s.connection ∧
      (s.finish p Encoder.init).Concludes o (bytes ++ s.connection.unread) bytes ∧
      (s.finish p Encoder.init).phase ≠ .handshaking := by
  have hprep := prepares_wakeOutput s
  refine ⟨h.finish _ _, hprep.connection, ⟨?_, Encoder.init, rfl, ?_⟩, by simp [Greeting.finish]⟩
  · show _ = Verdict.chosen p (s.wakeOutput.input ++ s.wakeOutput.connection.unread)
    rw [hprep.input, hprep.connection, hinput, hchosen]
    rfl
  · rw [reply_of_peerVersion hv hne]
    exact append_nil _

/-- **The decision is the one of the specification.** -/
theorem Balanced.selectProtocol (h : s.Balanced o bytes)
    (hstream : bytes ++ s.connection.unread = stream) (hinput : s.input = [])
    (hends : Ends bytes s.connection .complete) :
    ∃ t, s.selectProtocol o = .ok t ∧ t.Balanced o bytes ∧ t.connection = s.connection ∧
      t.Concludes o stream bytes ∧ t.phase ≠ .handshaking := by
  obtain ⟨v, hv, hlen⟩ := hends
  obtain ⟨rfl, hcase⟩ | ⟨hver, revision, hrev, rfl⟩ := peerVersion_eq_some hv
  · have hfirst : s.greetingRecv.get 0 ≠ 0xff ∨ s.greetingRecv.get 9 &&& 1 = 0 := by
      obtain ⟨first, hfirst, hne⟩ | ⟨-, flags, hflags, heven⟩ := hcase
      · exact .inl (h.receives.get_eq (i := 0) hfirst ▸ hne)
      · exact .inr (h.receives.get_eq (i := 9) hflags ▸ heven)
    have hload : s.greetingRecv.load 0 s.greetingBytesRead = some bytes := by
      rw [h.receives.read, Block.load_of_isPrefix h.receives.cells (by omega), drop_zero,
        take_length]
    obtain ⟨e, he, hpending⟩ := identityEncoder_eq o
    obtain ⟨s1, hs1⟩ : ∃ s1 : Greeting, s1 = { s with
      input := bytes, subscriptionRequired := o.type = .pub ∨ o.type = .xpub } := ⟨_, rfl⟩
    have hbal : s1.Balanced o bytes := by
      rw [hs1]
      exact h.update _ _ _
    have hprep := prepares_wakeOutput s1
    refine ⟨s1.finish .unversioned e, ?_, hbal.finish _ _, ?_, ⟨?_, e, rfl, ?_⟩, by simp [Greeting.finish]⟩
    · rw [Greeting.selectProtocol, if_pos hfirst, he, hload, hs1]
    · exact hprep.connection.trans (by rw [hs1])
    · rw [negotiate, ← hstream, peerVersion_append hv]
      simp only [PeerVersion.greetingLength, not_lt_zero, ↓reduceIte, drop_zero,
        PeerVersion.verdict]
      show _ = Verdict.chosen _ (s1.wakeOutput.input ++ s1.wakeOutput.connection.unread)
      rw [hprep.input, hprep.connection, hs1]
    · rw [reply_of_not_versioned (fun hver => hver.ne_unversioned hv), hpending]
      rfl
  · have hne := ofRevision_ne_unversioned revision
    have hneg := negotiate_append (o := o) hv (hlen.resolve_left hne) s.connection.unread
    have hfirst : ¬ (s.greetingRecv.get 0 ≠ 0xff ∨ s.greetingRecv.get 9 &&& 1 = 0) := by
      obtain ⟨hfirst, flags, hflags, hodd⟩ := hver
      rw [h.receives.get_eq (i := 0) hfirst, h.receives.get_eq (i := 9) hflags]
      simp [hodd]
    rw [Greeting.selectProtocol, if_neg hfirst, h.receives.get_eq (i := 10) hrev, ← hstream]
    by_cases h0 : revision = 0
    · subst h0
      exact ⟨_, if_pos rfl, h.concludes_finish hinput hv hne hneg⟩
    by_cases h1 : revision = 1
    · subst h1
      exact ⟨_, rfl, h.concludes_finish hinput hv hne hneg⟩
    have h3 : PeerVersion.ofRevision revision = .zmtp3 := by
      rw [PeerVersion.ofRevision, if_neg h0, if_neg h1]
    rw [h3] at hv hlen hneg hne
    have hlen : bytes.length = 64 := hlen.resolve_left hne
    rw [if_neg h0, if_neg h1, Block.load_of_isPrefix h.receives.cells (by omega)]
    simp only [PeerVersion.verdict] at hneg ⊢
    cases hm : chooseMechanism o ((bytes.drop 12).take 20) with
    | none =>
      rw [hm] at hneg
      exact ⟨{ s with phase := .failed .protocolError }, rfl, h.update _ _ _, rfl, hneg, by simp⟩
    | some m =>
      rw [hm] at hneg
      exact ⟨_, rfl, h.concludes_finish hinput hv hne hneg⟩

/-! ### The invariant -/

/-- The engine has received the beginning of the stream, and all it has done follows from it. -/
structure Inv (o : GreetingOptions) (c : Connection) (s : Greeting) : Prop where
  ending : s.connection.ending = c.ending
  received : ∃ bytes, s.Balanced o bytes ∧ bytes ++ s.connection.unread = c.unread ∧
    s.Concludes o c.unread bytes

/-- The engine has decided, or it can only wait. -/
def Settled (s : Greeting) : Prop := s.phase = .handshaking → s.connection.Dry

/-- The bytes for the decoder: those that are waiting at `inpos`, and those it is going to read. -/
def remaining (s : Greeting) : List UInt8 := s.input ++ s.connection.unread

lemma Inv.plug (o : GreetingOptions) (c : Connection) (recv send : Block UInt8 64) :
    ∃ s, plug o c recv send = .ok s ∧ s.Inv o c := by
  obtain ⟨s, hs⟩ : ∃ s : Greeting, s =
    ⟨c, .handshaking, recv, 0, v2GreetingSize, send, 0, 0, false, none, [], false, []⟩ := ⟨_, rfl⟩
  have hsends : s.Sends [] := by
    rw [hs]
    exact ⟨ nil_prefix, rfl, rfl⟩
  obtain ⟨t, ht, htsends, htprep, htsize⟩ := hsends.append [0xff] (by decide)
  obtain ⟨u, hu, husends, huprep, husize⟩ :=
    htsends.append (putUint64 (o.identity.length + 1)) (by simp [length_putUint64])
  obtain ⟨v, hv, hvsends, hvprep, hvsize⟩ := husends.append [0x7f] (by simp [length_putUint64])
  have hprep := (htprep.trans huprep).trans hvprep
  have hnot : ¬ Versioned [] := fun hver => absurd hver.length (by decide)
  refine ⟨{ v with pollout := true }, ?_, ?_, [], ⟨?_, ?_, ?_⟩, ?_, ?_⟩
  · rw [Greeting.plug]
    simp only [← hs, bind, Except.bind, ht, hu, hv]
    rfl
  · rw [hprep.connection, hs]
  · refine ⟨ nil_prefix, ?_⟩
    rw [hprep.greetingBytesRead, hs]
    rfl
  · rw [reply_of_not_versioned hnot]
    exact { hvsends with }
  · rw [expected_of_not_versioned hnot, hvsize, husize, htsize, hs]
    rfl
  · rw [nil_append, hprep.connection, hs]
  · have hphase : v.phase = .handshaking := by rw [hprep.phase, hs]
    simp only [Concludes, hphase]
    refine ⟨by decide, by decide, ?_⟩
    rw [hprep.input, hs]

lemma Inv.handshake {c : Connection} (h : s.Inv o c) (hphase : s.phase = .handshaking)
    (reads : List ℕ) :
    ∃ t, s.handshake o reads = .ok t ∧ t.Inv o c ∧
      ((∀ n ∈ reads, n ≠ 0) → 64 ≤ reads.length → t.Settled) := by
  obtain ⟨bytes, hbal, hstream, hconc⟩ := h.received
  simp only [Concludes, hphase] at hconc
  obtain ⟨hlt, hver, hinput⟩ := hconc
  have hlt' : s.greetingBytesRead < s.greetingSize := by
    rw [hbal.receives.read, hbal.size]
    exact hlt
  obtain ⟨res, t, bytes', hloop, ht, hreads, hends, hdry⟩ :=
    hbal.receiveGreeting hlt.le hver reads
  have hphase' : t.phase = .handshaking := hreads.phase.trans hphase
  have hinput' : t.input = [] := hreads.input.trans hinput
  have hstream' : bytes' ++ t.connection.unread = c.unread := hreads.stream.trans hstream
  have hending : t.connection.ending = c.ending := hreads.ending.trans h.ending
  rw [Greeting.handshake, if_pos hlt', hloop]
  cases res with
  | complete =>
    obtain ⟨u, hu, hbal', hconn, hconc', hne⟩ := ht.selectProtocol hstream' hinput' hends
    refine ⟨u, hu, ⟨hconn ▸ hending, bytes', hbal', hconn ▸ hstream', hconc'⟩, fun _ _ hhand => ?_⟩
    exact absurd hhand hne
  | again =>
    refine ⟨t, rfl, ⟨hending, bytes', ht, hstream', ?_⟩, fun hpos hlen _ => ?_⟩
    · simp only [Concludes, hphase']
      exact ⟨hends.1, hends.2, hinput'⟩
    · have hle := expected_le bytes'
      have hends := hends.1
      exact (hdry rfl hpos).resolve_right (by omega)
  | lost =>
    obtain ⟨hlt, hver, hunread, hopen⟩ := hends
    refine ⟨{ t with phase := .failed .connectionError }, rfl,
      ⟨hending, bytes', ht.update _ _ _, hstream', ?_, hopen⟩, fun _ _ hhand => by cases hhand⟩
    rw [hunread, append_nil] at hstream'
    rw [← hstream']
    exact negotiate_of_lt hlt hver

lemma Balanced.outEvent (h : s.Balanced o bytes) (n : Option ℕ) :
    ∃ t, s.outEvent n = .ok t ∧ t.Balanced o bytes ∧ t.connection = s.connection ∧
      t.phase = s.phase ∧ t.encoder = s.encoder ∧ t.input = s.input := by
  have hsame : ∃ t, Except.ok s = (.ok t : Except GreetingFault Greeting) ∧ t.Balanced o bytes ∧
      t.connection = s.connection ∧ t.phase = s.phase ∧ t.encoder = s.encoder ∧ t.input = s.input :=
    ⟨s, rfl, h, rfl, rfl, rfl, rfl⟩
  unfold Greeting.outEvent
  split
  · exact hsame
  split_ifs with hempty
  · exact hsame
  cases n with
  | none =>
    exact ⟨_, rfl, ⟨⟨h.receives.cells, h.receives.read⟩,
      { h.sends with }, h.size⟩, rfl, rfl, rfl, rfl⟩
  | some n =>
    have hlen := h.sends.length_eq
    have hload := Block.load_of_isPrefix h.sends.cells
      (show s.outpos + min n s.outsize ≤ (reply o bytes).length by omega)
    have hcount : (((reply o bytes).drop s.outpos).take (min n s.outsize)).length = min n s.outsize := by
      rw [length_take, length_drop]
      omega
    simp only [hload, hcount]
    refine ⟨_, rfl, ⟨⟨h.receives.cells, h.receives.read⟩, ⟨h.sends.cells, ?_, ?_⟩, h.size⟩, rfl, rfl,
      rfl, rfl⟩
    · simp only
      omega
    · simp only [h.sends.sent, take_add]

/-- **Every call keeps the invariant.** -/
theorem Inv.step {c : Connection} (h : s.Inv o c) (e : PollEvent) :
    ∃ t, s.step o e = .ok t ∧ t.Inv o c := by
  cases e with
  | inEvent reads =>
    cases hphase : s.phase with
    | handshaking =>
      obtain ⟨t, ht, hinv, -⟩ := h.handshake hphase reads
      refine ⟨t, ?_, hinv⟩
      simp only [Greeting.step, inEvent, hphase]
      exact ht
    | running p | failed reason => exact ⟨s, by simp only [Greeting.step, inEvent, hphase], h⟩
  | outEvent n =>
    obtain ⟨bytes, hbal, hstream, hconc⟩ := h.received
    obtain ⟨t, ht, hbal', hconn, hphase, hencoder, hinput⟩ := hbal.outEvent n
    refine ⟨t, ht, hconn ▸ h.ending, bytes, hbal', hconn ▸ hstream, ?_⟩
    rw [Concludes, hphase, hencoder, hinput, hconn]
    exact hconc

lemma Inv.run {c : Connection} (h : s.Inv o c) (events : List PollEvent) :
    ∃ t, runSteps (Greeting.step o) s events = .ok t ∧ t.Inv o c :=
  runSteps_invariant (fun _ e hs _ => hs.step e) h (stepsMeet_of_forall (fun _ _ _ => trivial) s)

/-! ### What the invariant says -/

lemma Inv.sent_isPrefix {c : Connection} (h : s.Inv o c) {v : PeerVersion}
    (hv : peerVersion (c.unread ++ more) = some v) : s.sent <+: greeting o v := by
  obtain ⟨bytes, hbal, hstream, -⟩ := h.received
  rw [← hstream, append_assoc] at hv
  have hsent : s.sent <+: reply o bytes := by
    rw [hbal.sends.sent]
    exact take_prefix _ _
  exact hsent.trans (reply_isPrefix hv)

lemma Inv.greeting_eq {c : Connection} (h : s.Inv o c) {p : Protocol} (hp : s.phase = .running p) :
    ∃ e, s.encoder = some e ∧ s.sent ++ s.waiting ++ e.pending = greeting o p.version := by
  obtain ⟨bytes, hbal, -, hconc⟩ := h.received
  simp only [Concludes, hp] at hconc
  obtain ⟨-, e, he, hgreeting⟩ := hconc
  exact ⟨e, he, hbal.sends.sent_append_waiting ▸ hgreeting⟩

lemma Inv.verdict {c : Connection} (h : s.Inv o c) (hs : s.Settled) :
    negotiate o c.unread =
      match s.phase with
      | .handshaking => .undecided
      | .running p => .chosen p s.remaining
      | .failed .protocolError => .failed
      | .failed .connectionError => .undecided := by
  obtain ⟨bytes, -, hstream, hconc⟩ := h.received
  rw [Concludes] at hconc
  cases hphase : s.phase with
  | handshaking =>
    rw [hphase] at hconc
    rw [← hstream, (hs hphase).1, append_nil]
    exact negotiate_of_lt hconc.1 hconc.2.1
  | running p =>
    rw [hphase] at hconc
    exact hconc.1
  | failed reason =>
    rw [hphase] at hconc
    cases reason with
    | protocolError => exact hconc
    | connectionError => exact hconc.1

lemma Inv.ending_of_lost {c : Connection} (h : s.Inv o c)
    (hlost : s.phase = .failed .connectionError) : c.ending ≠ .staysOpen := by
  obtain ⟨bytes, -, -, hconc⟩ := h.received
  simp only [Concludes, hlost] at hconc
  exact h.ending ▸ hconc.2

lemma Inv.agree {c : Connection} (hs : s.Inv o c) (ht : t.Inv o c) (hs' : s.Settled)
    (ht' : t.Settled) :
    s.phase = t.phase ∧ ∀ p, s.phase = .running p → s.remaining = t.remaining := by
  have hverdict := (hs.verdict hs').symm.trans (ht.verdict ht')
  -- An engine that waits and one that has lost the connection have the same verdict.
  have hwait : ∀ {s t : Greeting}, s.Inv o c → t.Inv o c → s.Settled → s.phase = .handshaking →
      t.phase ≠ .failed .connectionError := by
    intro s t hs ht hs' hphase hlost
    exact ht.ending_of_lost hlost (hs.ending.symm.trans (hs' hphase).2)
  cases hp : s.phase with
  | handshaking =>
    cases hq : t.phase with
    | handshaking => exact ⟨rfl, fun p hp' => by cases hp'⟩
    | running q => simp [hp, hq] at hverdict
    | failed reason =>
      cases reason with
      | protocolError => simp [hp, hq] at hverdict
      | connectionError => exact absurd hq (hwait hs ht hs' hp)
  | running p =>
    cases hq : t.phase with
    | handshaking => simp [hp, hq] at hverdict
    | running q =>
      simp only [hp, hq, Verdict.chosen.injEq] at hverdict
      exact ⟨by rw [hverdict.1], fun _ _ => hverdict.2⟩
    | failed reason => cases reason <;> simp [hp, hq] at hverdict
  | failed reason =>
    cases hq : t.phase with
    | handshaking =>
      cases reason with
      | protocolError => simp [hp, hq] at hverdict
      | connectionError => exact absurd hp (hwait ht hs ht' hq)
    | running q => cases reason <;> simp [hp, hq] at hverdict
    | failed reason' =>
      refine ⟨?_, fun p hp' => by cases hp'⟩
      cases reason <;> cases reason' <;> simp [hp, hq] at hverdict ⊢

lemma Inv.exists_settled {c : Connection} (h : s.Inv o c) :
    ∃ events t, runSteps (Greeting.step o) s events = .ok t ∧ t.Settled := by
  by_cases hphase : s.phase = .handshaking
  · obtain ⟨t, ht, -, hsettled⟩ := h.handshake hphase (replicate 64 1)
    refine ⟨[.inEvent (replicate 64 1)], t, ?_, hsettled (by simp) (by simp)⟩
    have hstep : s.step o (.inEvent (replicate 64 1)) = .ok t := by
      simp only [Greeting.step, inEvent, hphase]
      exact ht
    exact runSteps_cons_ok hstep []
  · exact ⟨[], s, rfl, fun hhand => absurd hhand hphase⟩

end Greeting

/-- **The greeting does not depend on how the bytes arrive and leave.** Whatever the peer sends and
however the calls of the poller cut it into reads and writes, no access leaves the buffers and no
assertion fails; what has been sent is a part of the greeting for the peer's version, and when the
protocol is known the rest of this greeting is ready; and two engines that have settled have chosen
the same protocol and leave the same bytes to the decoder, or have both failed. An engine can always
go on until it has settled. -/
theorem handshake_chunk_independent (o : GreetingOptions) (c : Connection)
    (recv send recv' send' : Block UInt8 64) (events events' : List PollEvent) :
    ∃ s t, Greeting.run o c recv send events = .ok s ∧ Greeting.run o c recv' send' events' = .ok t ∧
      (∀ more v, peerVersion (c.unread ++ more) = some v → s.sent <+: greeting o v) ∧
      (∀ p, s.phase = .running p →
        ∃ e, s.encoder = some e ∧ s.sent ++ s.waiting ++ e.pending = greeting o p.version) ∧
      (s.Settled → t.Settled →
        s.phase = t.phase ∧ ∀ p, s.phase = .running p → s.remaining = t.remaining) ∧
      ∃ later u, Greeting.run o c recv send (events ++ later) = .ok u ∧ u.Settled := by
  obtain ⟨s0, hplug, hinv0⟩ := Greeting.Inv.plug o c recv send
  obtain ⟨t0, hplug', hinv0'⟩ := Greeting.Inv.plug o c recv' send'
  obtain ⟨s, hrun, hs⟩ := hinv0.run events
  obtain ⟨t, hrun', ht⟩ := hinv0'.run events'
  obtain ⟨later, u, hlater, hu⟩ := hs.exists_settled
  refine ⟨s, t, ?_, ?_, fun more v hv => hs.sent_isPrefix hv, fun p hp => hs.greeting_eq hp,
    hs.agree ht, later, u, ?_, hu⟩
  · rw [Greeting.run, hplug]
    exact hrun
  · rw [Greeting.run, hplug']
    exact hrun'
  · rw [Greeting.run, hplug]
    exact (runSteps_append hrun later).trans hlater

end Zmq
