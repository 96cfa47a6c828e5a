import ZeroMQ.Engine.CurveHandshake

/-!
# The fixed buffers of CURVE

Both sides of CURVE open and seal boxes in buffers of fixed size on the stack. `process_initiate` and
`process_ready` have only lower bounds for the size of a command, and `produce_initiate` and
`produce_ready` assume that the metadata have at most 256 bytes. The library wants 32 zero bytes in front
of a text and 16 in front of a box, and a box is 16 bytes longer than its text, so a box fits into its
buffer exactly if its text fits into the other: for INITIATE both have room for 416 bytes, and for READY
for 288.
-/

namespace Zmq

open Except List

/-- An INITIATE gets as far as the copy of its box: it is long enough, has its name, and brings the cookie
of this server back. -/
def CurveServer.CookieAccepted (k : CurveCrypto) (initiate : List UInt8) (m : CurveServer) : Prop :=
  257 ≤ initiate.length ∧ initiate.take 9 = [8] ++ ascii "INITIATE" ∧
    ∃ cookie, k.secretboxOpen (slice initiate 25 80) (ascii "COOKIE--" ++ slice initiate 9 16) m.cookieKey =
      some cookie ∧ cookie.take 32 = m.cnClient ∧ slice cookie 32 32 = m.cnSecret

lemma CurveServer.openInitiate_fits_iff (k : CurveCrypto) (initiate : List UInt8) (m : CurveServer) :
    openInitiate k initiate m ≠ .error .outOfBounds ↔
      (CookieAccepted k initiate m → initiate.length ≤ 513) := by
  unfold openInitiate CookieAccepted
  by_cases hshort : initiate.length < 257
  · rw [if_pos hshort]
    exact ⟨fun _ h => absurd h.1 (not_le.mpr hshort), fun _ h => (by cases h)⟩
  rw [if_neg hshort]
  by_cases hname : initiate.take 9 = [8] ++ ascii "INITIATE"
  swap
  · rw [if_pos hname]
    exact ⟨fun _ h => absurd h.2.1 hname, fun _ h => (by cases h)⟩
  rw [if_neg (not_not.mpr hname)]
  cases hcookie : k.secretboxOpen (slice initiate 25 80) (ascii "COOKIE--" ++ slice initiate 9 16) m.cookieKey with
  | none =>
    refine ⟨fun _ h => ?_, fun _ h => (by cases h)⟩
    obtain ⟨cookie, hsome, -⟩ := h.2.2
    cases hsome
  | some cookie =>
    dsimp only
    by_cases hmatch : cookie.take 32 ≠ m.cnClient ∨ slice cookie 32 32 ≠ m.cnSecret
    · rw [if_pos hmatch]
      refine ⟨fun _ h => ?_, fun _ h => (by cases h)⟩
      obtain ⟨cookie', hsome, hclient, hsecret⟩ := h.2.2
      rw [Option.some_inj] at hsome
      rw [← hsome] at hclient hsecret
      exact absurd hmatch (not_or.mpr ⟨not_not.mpr hclient, not_not.mpr hsecret⟩)
    · rw [if_neg hmatch]
      have haccepted : 257 ≤ initiate.length ∧ initiate.take 9 = [8] ++ ascii "INITIATE" ∧
          ∃ cookie', some cookie = some cookie' ∧ cookie'.take 32 = m.cnClient ∧
            slice cookie' 32 32 = m.cnSecret := by
        rw [not_or, not_not, not_not] at hmatch
        exact ⟨not_lt.mp hshort, hname, cookie, rfl, hmatch.1, hmatch.2⟩
      unfold initiateCapacity
      by_cases hlong : initiate.length - 113 > 144 + 256
      · rw [if_pos hlong]
        refine ⟨fun h => absurd rfl h, fun h => ?_⟩
        have := h haccepted
        omega
      · rw [if_neg hlong]
        refine ⟨fun _ _ => by omega, fun _ => ?_⟩
        split
        · exact fun h => (by cases h)
        · split
          · exact fun h => (by cases h)
          · split <;> exact fun h => (by cases h)

lemma CurveClient.processReady_fits_iff (o : MechanismOptions) (k : CurveCrypto) (data : List UInt8)
    (m : CurveClient) : processReady o k data m ≠ .error .outOfBounds ↔ data.length ≤ 286 := by
  rcases processReady_cases (o := o) (k := k) data m with ⟨hshort, heq⟩ | ⟨-, hlong, heq⟩ | ⟨hshort, hfits, hrest⟩
  · rw [heq]
    exact ⟨fun _ => by omega, fun _ h => (by cases h)⟩
  · rw [heq]
    unfold readyBoxCapacity at hlong
    exact ⟨fun h => absurd rfl h, fun h => by omega⟩
  · unfold readyBoxCapacity at hfits
    refine ⟨fun _ => by omega, fun _ => ?_⟩
    rcases hrest with ⟨-, m', heq, -⟩ | ⟨text, -, ⟨e, m', heq, -⟩ | ⟨m', heq, -⟩⟩ <;> rw [heq] <;>
      exact fun h => (by cases h)

/-! ### Commands that are sent -/

/-- `options_t::setsockopt` for `ZMQ_IDENTITY`. -/
def setIdentity (o : MechanismOptions) (optval : List UInt8) : Option MechanismOptions :=
  if h : 0 < optval.length ∧ optval.length < 256 then
    some { o with identity := optval, identity_le := Nat.le_of_lt_succ h.2 }
  else none

/-- The identity of a socket that sends it leaves room for the other properties. -/
def IdentityFits (o : MechanismOptions) : Prop :=
  match o.type with
  | .req => o.identity.length ≤ 224
  | .dealer => o.identity.length ≤ 221
  | .router => o.identity.length ≤ 221
  | _ => True

lemma addProperty_ok (name : List UInt8) {value : List UInt8} (hname : name.length ≤ 255) (hvalue : value.length ≤ 255) :
    ∃ property, addProperty name value = .ok property ∧ property.length = 1 + name.length + 4 + value.length := by
  refine ⟨_, if_neg (by omega), ?_⟩
  simp only [length_append, length_singleton]
  rfl

/-- The properties are written, and have the length that the type and the identity give them. -/
lemma ownProperties_ok (o : MechanismOptions) {type : List UInt8} (htype : socketTypeString o.type = .ok type)
    (hlen : type.length ≤ 255) : ∃ properties, ownProperties o = .ok properties ∧ properties.length =
      16 + type.length + if o.type = .req ∨ o.type = .dealer ∨ o.type = .router then 13 + o.identity.length else 0 := by
  obtain ⟨socketType, hsocket, hsocketLen⟩ := addProperty_ok (ascii "Socket-Type") (by decide) hlen
  obtain ⟨identity, hidentity, hidentityLen⟩ := addProperty_ok (ascii "Identity") (by decide) o.identity_le
  rw [show (ascii "Socket-Type").length = 11 from rfl] at hsocketLen
  rw [show (ascii "Identity").length = 8 from rfl] at hidentityLen
  simp only [ownProperties, htype, hsocket, hidentity, bind, Except.bind, pure, Except.pure]
  split
  · exact ⟨_, rfl, by rw [length_append]; omega⟩
  · exact ⟨_, rfl, by rw [length_append, length_nil]; omega⟩

lemma ownProperties_length {o : MechanismOptions} {properties : List UInt8}
    (h : ownProperties o = .ok properties) : properties.length ≤ 256 ↔ IdentityFits o := by
  have hlen {type : List UInt8} (htype : socketTypeString o.type = .ok type) (htypeLen : type.length ≤ 255) :
      properties.length = 16 + type.length +
        if o.type = .req ∨ o.type = .dealer ∨ o.type = .router then 13 + o.identity.length else 0 := by
    obtain ⟨_, hown, hlength⟩ := ownProperties_ok o htype htypeLen
    rwa [← ok.inj (h.symm.trans hown)] at hlength
  unfold IdentityFits
  cases htype : o.type with
  | stream =>
    rw [ownProperties, htype] at h
    cases h
  | req | dealer | router | pair | pub | sub | rep | pull | push | xpub | xsub =>
    rw [htype] at hlen
    have := hlen rfl (by decide)
    simp [ascii] at this
    simp
    omega

lemma ownProperties_error {o : MechanismOptions} {f : MechanismFault} (h : ownProperties o = .error f) :
    f = .assertFailed ∧ IdentityFits o := by
  unfold IdentityFits
  cases htype : o.type with
  | stream =>
    rw [ownProperties, htype] at h
    exact ⟨(error.inj h).symm, trivial⟩
  | pair | pub | sub | req | rep | dealer | router | pull | push | xpub | xsub =>
    obtain ⟨properties, hown, -⟩ := ownProperties_ok o (by rw [htype]; rfl) (by decide)
    rw [hown] at h
    cases h

lemma CurveClient.produceInitiate_fits_iff (o : MechanismOptions) (k : CurveCrypto) (m : CurveClient) :
    produceInitiate o k m ≠ .error .outOfBounds ↔ IdentityFits o := by
  unfold produceInitiate
  cases hown : ownProperties o with
  | error f =>
    obtain ⟨rfl, hfits⟩ := ownProperties_error hown
    exact ⟨fun _ => hfits, fun _ h => (by cases h)⟩
  | ok properties =>
    rw [← ownProperties_length hown]
    dsimp only
    by_cases hlong : properties.length > metadataCapacity
    · rw [if_pos hlong]
      exact ⟨fun h => absurd rfl h, fun h => absurd hlong (not_lt.mpr h)⟩
    · rw [if_neg hlong]
      exact ⟨fun _ => not_lt.mp hlong, fun _ h => (by cases h)⟩

lemma CurveServer.produceReady_fits_iff (o : MechanismOptions) (k : CurveCrypto) (m : CurveServer) :
    produceReady o k m ≠ .error .outOfBounds ↔ IdentityFits o := by
  unfold produceReady
  cases hown : ownProperties o with
  | error f =>
    obtain ⟨rfl, hfits⟩ := ownProperties_error hown
    exact ⟨fun _ => hfits, fun _ h => (by cases h)⟩
  | ok properties =>
    rw [← ownProperties_length hown]
    dsimp only
    by_cases hlong : properties.length > readyCapacity
    · rw [if_pos hlong]
      exact ⟨fun h => absurd rfl h, fun h => absurd hlong (not_lt.mpr h)⟩
    · rw [if_neg hlong]
      exact ⟨fun _ => not_lt.mp hlong, fun _ h => (by cases h)⟩

/-- **The buffers.** What an INITIATE or a READY of the peer brings is copied and opened within the
buffers exactly if the INITIATE, if it has the right cookie, has at most 513 bytes and the READY at most
286; and what the two sides put together fits exactly if the identity of the socket leaves room for it. -/
theorem curve_buffers (o : MechanismOptions) (k : CurveCrypto) (server : CurveServer) (client : CurveClient) :
    (∀ initiate : List UInt8, CurveServer.openInitiate k initiate server ≠ .error .outOfBounds ↔
      (server.CookieAccepted k initiate → initiate.length ≤ 513)) ∧
    (∀ ready : List UInt8, CurveClient.processReady o k ready client ≠ .error .outOfBounds ↔
      ready.length ≤ 286) ∧
    (CurveClient.produceInitiate o k client ≠ .error .outOfBounds ↔ IdentityFits o) ∧
    (CurveServer.produceReady o k server ≠ .error .outOfBounds ↔ IdentityFits o) :=
  ⟨fun initiate => CurveServer.openInitiate_fits_iff k initiate server,
    fun ready => CurveClient.processReady_fits_iff o k ready client,
    CurveClient.produceInitiate_fits_iff o k client, CurveServer.produceReady_fits_iff o k server⟩

/-- A server that has received the HELLO of a client. -/
def someServer : CurveServer :=
  { CurveServer.new [] [] (List.replicate 32 2) with cnClient := List.replicate 32 1 }

/-- An INITIATE of 514 bytes with the cookie of that server. -/
def longInitiate : List UInt8 :=
  [8] ++ ascii "INITIATE" ++ List.replicate 32 0 ++ (List.replicate 32 1 ++ List.replicate 32 2) ++
    List.replicate 409 0

/-- A READY that is a byte too long, an INITIATE that is a byte too long and brings the cookie back, and a
DEALER socket with an identity of 255 bytes. -/
theorem curve_buffers_overflow :
    CurveClient.processReady pairOptions clearBoxes ([5] ++ ascii "READY" ++ replicate 281 0)
      someHandshake.client = .error .outOfBounds ∧
    CurveServer.openInitiate clearBoxes longInitiate someServer = .error .outOfBounds ∧
    ∃ o, setIdentity { pairOptions with type := .dealer } (replicate 255 7) = some o ∧
      CurveClient.produceInitiate o clearBoxes someHandshake.client = .error .outOfBounds ∧
      CurveServer.produceReady o clearBoxes (CurveServer.new [] [] []) = .error .outOfBounds := by
  have hlen : (replicate 255 (7 : UInt8)).length = 255 := length_replicate
  have hidentity : ¬IdentityFits
      { pairOptions with type := .dealer, identity := replicate 255 7, identity_le := hlen.le } := by
    intro h
    have hle : (replicate 255 (7 : UInt8)).length ≤ 221 := h
    omega
  refine ⟨?_, ?_, _, dif_pos (by omega), ?_, ?_⟩
  · by_contra hno
    exact absurd ((CurveClient.processReady_fits_iff _ _ _ _).mp hno) (by decide +kernel)
  · by_contra hno
    have hcookie : someServer.CookieAccepted clearBoxes longInitiate :=
      ⟨by decide +kernel, by decide +kernel, _, rfl, by decide +kernel, by decide +kernel⟩
    exact absurd ((CurveServer.openInitiate_fits_iff _ _ _).mp hno hcookie) (by decide +kernel)
  · by_contra hno
    exact hidentity ((CurveClient.produceInitiate_fits_iff _ _ _).mp hno)
  · by_contra hno
    exact hidentity ((CurveServer.produceReady_fits_iff _ _ _).mp hno)

end Zmq
