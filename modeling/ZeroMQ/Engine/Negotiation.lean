import ZeroMQ.Engine.Greeting

/-!
# The greeting does not depend on how the bytes arrive

`negotiate` says what the bytes of a peer mean, without a word about buffers and reads. `reply` is
what the engine has put into its send buffer when it has received some bytes. The invariant says that
the send buffer holds the reply to what is in the receive buffer, and that a decision of the engine is
the one of `negotiate` on the whole stream; so two runs that have come to their end agree.
-/

namespace Zmq

open Foundation List Option

/-! ### What the bytes mean -/

/-- The versions of the protocol a peer can use. -/
inductive PeerVersion
  | unversioned
  | zmtp1
  | zmtp2
  | zmtp3
  deriving DecidableEq, Repr

namespace PeerVersion

/-- The version of a peer that sends a revision number. -/
def ofRevision (revision : UInt8) : PeerVersion :=
  if revision = 0 then .zmtp1 else if revision = 1 then .zmtp2 else .zmtp3

/-- How long the peer's greeting is. An unversioned peer begins with a message. -/
def greetingLength : PeerVersion → ℕ
  | .unversioned => 0
  | .zmtp1 => 12
  | .zmtp2 => 12
  | .zmtp3 => 64

end PeerVersion

/-- The version of the peer, as soon as its bytes tell it. -/
def peerVersion (bytes : List UInt8) : Option PeerVersion :=
  match bytes[0]? with
  | none => none
  | some first =>
    if first ≠ 0xff then some .unversioned
    else
      match bytes[9]? with
      | none => none
      | some flags =>
        if flags &&& 1 = 0 then some .unversioned else bytes[10]?.map PeerVersion.ofRevision

/-- The version a protocol belongs to. -/
def Protocol.version : Protocol → PeerVersion
  | .unversioned => .unversioned
  | .zmtp1 => .zmtp1
  | .zmtp2 => .zmtp2
  | .zmtp3 _ => .zmtp3

/-- What a string of bytes from the peer leads to. -/
inductive Verdict
  | undecided
  | failed
  /-- A protocol, and the bytes that are for the decoder. -/
  | chosen (p : Protocol) (rest : List UInt8)

/-- What a greeting leads to that names a mechanism. -/
def PeerVersion.verdict (o : GreetingOptions) (name rest : List UInt8) : PeerVersion → Verdict
  | .unversioned => .chosen .unversioned rest
  | .zmtp1 => .chosen .zmtp1 rest
  | .zmtp2 => .chosen .zmtp2 rest
  | .zmtp3 =>
    match Greeting.chooseMechanism o name with
    | none => .failed
    | some m => .chosen (.zmtp3 m) rest

/-- **What a handshake is to find out.** -/
def negotiate (o : GreetingOptions) (stream : List UInt8) : Verdict :=
  match peerVersion stream with
  | none => .undecided
  | some v =>
    if stream.length < v.greetingLength then .undecided
    else v.verdict o ((stream.drop 12).take 20) (stream.drop v.greetingLength)

/-! ### What is sent -/

/-- The first bytes of the greeting, the header of an identity message. -/
def signature (o : GreetingOptions) : List UInt8 := [0xff] ++ putUint64 (o.identity.length + 1) ++ [0x7f]

/-- What follows the major version number. -/
def greetingRest (o : GreetingOptions) : PeerVersion → List UInt8
  | .zmtp3 => [0] ++ o.mechanism.padded ++ List.replicate 32 0
  | _ => [o.type.code]

/-- **The greeting for a peer.** For an unversioned one it is the identity message. -/
def greeting (o : GreetingOptions) : PeerVersion → List UInt8
  | .unversioned => signature o ++ o.identity
  | v => signature o ++ [3] ++ greetingRest o v

/-- The peer has sent the signature of a versioned protocol. -/
def Versioned (bytes : List UInt8) : Prop :=
  bytes[0]? = some 0xff ∧ ∃ flags ∈ bytes[9]?, flags &&& 1 ≠ 0

instance (bytes : List UInt8) : Decidable (Versioned bytes) := inferInstanceAs (Decidable (_ ∧ _))

/-- The reply to a revision number that may not have arrived. -/
def replyTo (o : GreetingOptions) : Option UInt8 → List UInt8
  | none => []
  | some revision => greetingRest o (.ofRevision revision)

/-- The part of the greeting the engine has prepared when it has received some bytes. -/
def reply (o : GreetingOptions) (bytes : List UInt8) : List UInt8 :=
  if Versioned bytes then signature o ++ [3] ++ replyTo o bytes[10]? else signature o

/-- How many bytes the engine expects when it has received some. -/
def expected (bytes : List UInt8) : ℕ := if peerVersion bytes = some .zmtp3 then 64 else 12

@[simp] lemma length_signature (o : GreetingOptions) : (signature o).length = 10 := rfl

lemma length_padded (m : MechanismOption) : m.padded.length = 20 := by
  cases m <;> rfl

lemma length_greetingRest_zmtp3 (o : GreetingOptions) : (greetingRest o .zmtp3).length = 53 := by
  simp [greetingRest, length_padded]

/-! ### Versions -/

section Versions

variable {bytes more : List UInt8} {v : PeerVersion}

lemma getElem?_append_of_some {i : ℕ} {b : UInt8} (h : bytes[i]? = some b) (more : List UInt8) :
    (bytes ++ more)[i]? = some b := by
  rw [List.getElem?_append_left (List.getElem?_eq_some_iff.1 h).1, h]

lemma peerVersion_of_first {first : UInt8} (h : bytes[0]? = some first) (hne : first ≠ 0xff) :
    peerVersion bytes = some .unversioned := by
  rw [peerVersion, h]
  simp [hne]

lemma peerVersion_of_flags {flags : UInt8} (h : bytes[0]? = some 0xff) (hflags : bytes[9]? = some flags)
    (heven : flags &&& 1 = 0) : peerVersion bytes = some .unversioned := by
  rw [peerVersion, h]
  simp [hflags, heven]

lemma Versioned.peerVersion (h : Versioned bytes) :
    peerVersion bytes = bytes[10]?.map PeerVersion.ofRevision := by
  obtain ⟨hfirst, flags, hflags, hodd⟩ := h
  rw [Zmq.peerVersion, hfirst]
  simp [mem_def.1 hflags, hodd]

lemma ofRevision_ne_unversioned (revision : UInt8) :
    PeerVersion.ofRevision revision ≠ .unversioned := by
  unfold PeerVersion.ofRevision
  split_ifs <;> decide

lemma peerVersion_eq_some (h : peerVersion bytes = some v) :
    (v = .unversioned ∧ ((∃ first, bytes[0]? = some first ∧ first ≠ 0xff) ∨
      (bytes[0]? = some 0xff ∧ ∃ flags, bytes[9]? = some flags ∧ flags &&& 1 = 0))) ∨
    (Versioned bytes ∧ ∃ revision, bytes[10]? = some revision ∧ v = .ofRevision revision) := by
  unfold peerVersion at h
  split at h
  · cases h
  next first hfirst =>
    split_ifs at h with hff
    · obtain rfl := some.inj h
      exact .inl ⟨rfl, .inl ⟨first, hfirst, hff⟩⟩
    rw [not_not.1 hff] at hfirst
    split at h
    · cases h
    next flags hflags =>
      split_ifs at h with heven
      · obtain rfl := some.inj h
        exact .inl ⟨rfl, .inr ⟨hfirst, flags, hflags, heven⟩⟩
      · obtain ⟨revision, hrevision, rfl⟩ := map_eq_some_iff.1 h
        exact .inr ⟨⟨hfirst, flags, hflags, heven⟩, revision, hrevision, rfl⟩

lemma Versioned.append (h : Versioned bytes) (more : List UInt8) : Versioned (bytes ++ more) := by
  obtain ⟨hfirst, flags, hflags, hodd⟩ := h
  exact ⟨getElem?_append_of_some hfirst more, flags, getElem?_append_of_some hflags more, hodd⟩

lemma Versioned.length (h : Versioned bytes) : 10 ≤ bytes.length := by
  obtain ⟨-, flags, hflags, -⟩ := h
  have := (List.getElem?_eq_some_iff.1 hflags).1
  omega

lemma peerVersion_append (h : peerVersion bytes = some v) (more : List UInt8) :
    peerVersion (bytes ++ more) = some v := by
  obtain ⟨rfl, ⟨first, hfirst, hne⟩ | ⟨hfirst, flags, hflags, heven⟩⟩ | ⟨hver, revision, hrev, rfl⟩ :=
    peerVersion_eq_some h
  · exact peerVersion_of_first (getElem?_append_of_some hfirst more) hne
  · exact peerVersion_of_flags (getElem?_append_of_some hfirst more)
      (getElem?_append_of_some hflags more) heven
  · rw [(hver.append more).peerVersion, getElem?_append_of_some hrev more]
    rfl

lemma exists_peerVersion (h : 11 ≤ bytes.length) : ∃ v, peerVersion bytes = some v := by
  have hfirst : bytes[0]? = some bytes[0] := getElem?_eq_getElem (by omega)
  have hflags : bytes[9]? = some bytes[9] := getElem?_eq_getElem (by omega)
  have hrev : bytes[10]? = some bytes[10] := getElem?_eq_getElem (by omega)
  by_cases hff : bytes[0] = 0xff
  · rw [hff] at hfirst
    by_cases heven : bytes[9] &&& 1 = 0
    · exact ⟨_, peerVersion_of_flags hfirst hflags heven⟩
    · have hver : Versioned bytes := ⟨hfirst, bytes[9], hflags, heven⟩
      exact ⟨_, hver.peerVersion.trans (by rw [hrev]; rfl)⟩
  · exact ⟨_, peerVersion_of_first hfirst hff⟩

lemma expected_append_le (bytes more : List UInt8) : expected bytes ≤ expected (bytes ++ more) := by
  unfold expected
  split_ifs with hold hnew hnew
  · rfl
  · exact absurd (peerVersion_append hold more) hnew
  · decide
  · rfl

lemma Versioned.ne_unversioned (h : Versioned bytes) : Zmq.peerVersion bytes ≠ some .unversioned := by
  rw [h.peerVersion]
  intro hmap
  obtain ⟨revision, -, hrev⟩ := map_eq_some_iff.1 hmap
  exact ofRevision_ne_unversioned revision hrev

lemma expected_of_not_versioned (h : ¬ Versioned bytes) : expected bytes = 12 := by
  refine if_neg fun hpeer => ?_
  obtain ⟨hv, -⟩ | ⟨hver, -⟩ := peerVersion_eq_some hpeer
  · cases hv
  · exact h hver

lemma expected_le (bytes : List UInt8) : expected bytes ≤ 64 := by
  unfold expected
  split_ifs <;> decide

lemma expected_of_peerVersion (h : peerVersion bytes = some v) (hv : v ≠ .unversioned) :
    expected bytes = v.greetingLength := by
  rw [expected, h]
  cases v with
  | unversioned => exact absurd rfl hv
  | zmtp1 | zmtp2 | zmtp3 => rfl

end Versions

/-! ### The reply -/

section Reply

variable {o : GreetingOptions} {bytes more : List UInt8} {v : PeerVersion}

lemma Versioned.reply (h : Versioned bytes) :
    reply o bytes = signature o ++ [3] ++ replyTo o bytes[10]? := if_pos h

lemma reply_of_not_versioned (h : ¬ Versioned bytes) : reply o bytes = signature o := if_neg h

lemma reply_of_peerVersion (h : peerVersion bytes = some v) (hv : v ≠ .unversioned) :
    reply o bytes = greeting o v := by
  obtain ⟨rfl, -⟩ | ⟨hver, revision, hrev, rfl⟩ := peerVersion_eq_some h
  · exact absurd rfl hv
  rw [hver.reply, hrev, replyTo]
  unfold greeting
  split
  next heq => exact absurd heq hv
  · rfl

lemma reply_isPrefix (h : peerVersion (bytes ++ more) = some v) :
    reply o bytes <+: greeting o v := by
  by_cases hver : Versioned bytes
  · have hmore := hver.append more
    rw [hmore.peerVersion] at h
    obtain ⟨revision, hrev, rfl⟩ := map_eq_some_iff.1 h
    have hv := ofRevision_ne_unversioned revision
    rw [← reply_of_peerVersion (hmore.peerVersion.trans (by rw [hrev]; rfl)) hv, hver.reply,
      hmore.reply, hrev]
    cases hb : bytes[10]? with
    | none => exact (prefix_append_right_inj _).2 nil_prefix
    | some b =>
      rw [getElem?_append_of_some hb] at hrev
      obtain rfl := some.inj hrev
      exact prefix_rfl
  · rw [reply_of_not_versioned hver]
    unfold greeting
    split
    · exact prefix_append _ _
    · rw [append_assoc]
      exact prefix_append _ _

lemma length_replyTo (o : GreetingOptions) (revision : UInt8) :
    (replyTo o (some revision)).length =
      if PeerVersion.ofRevision revision = .zmtp3 then 53 else 1 := by
  simp only [replyTo]
  split_ifs with h
  · rw [h, length_greetingRest_zmtp3]
  unfold greetingRest
  split
  next heq => exact absurd heq h
  · rfl

end Reply

section Verdict

variable {o : GreetingOptions} {bytes rest : List UInt8} {v : PeerVersion}

lemma negotiate_append (hv : peerVersion bytes = some v) (hlen : bytes.length = v.greetingLength)
    (rest : List UInt8) :
    negotiate o (bytes ++ rest) = v.verdict o ((bytes.drop 12).take 20) rest := by
  have hge : ¬ (bytes ++ rest).length < v.greetingLength := by
    rw [length_append]
    omega
  have hrest : (bytes ++ rest).drop v.greetingLength = rest := by
    rw [← hlen, drop_left]
  rw [negotiate, peerVersion_append hv rest]
  simp only [if_neg hge, hrest]
  cases v with
  | unversioned | zmtp1 | zmtp2 => rfl
  | zmtp3 =>
    have h64 : bytes.length = 64 := hlen
    rw [drop_append_of_le_length (by omega),
      take_append_of_le_length (by rw [length_drop]; omega)]

lemma negotiate_of_lt (hlen : bytes.length < expected bytes)
    (hver : peerVersion bytes ≠ some .unversioned) : negotiate o bytes = .undecided := by
  rw [negotiate]
  cases hv : peerVersion bytes with
  | none => rfl
  | some v =>
    have hne : v ≠ .unversioned := fun hne => hver (hne ▸ hv)
    rw [expected_of_peerVersion hv hne] at hlen
    exact if_pos hlen

end Verdict

end Zmq
