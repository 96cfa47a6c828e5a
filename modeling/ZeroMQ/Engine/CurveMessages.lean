import ZeroMQ.Engine.CurveHandshake

/-!
# The messages of CURVE

After the handshake every frame travels as a MESSAGE command: a nonce that grows with each command, and a
box with a byte of flags and the body. The two classes have an encoder and a decoder each. They are
written separately, but the encoder of one and the decoder of the other use the same text in front of the
nonce, so both directions are instances of `sealMessage` and `openMessage`.

With boxes that open exactly where they were sealed, what is decoded in order is what was encoded, up to
the flag of a command, which is not carried (`curve_messages`). In whatever order and how often the
commands are delivered, those that are accepted are a subsequence of those that were sent.
-/

namespace Zmq

open List

section Sublist

variable {α : Type} (key : α → ℕ) {l : List α} {x : α} {n : ℕ}

lemma cons_filter_sublist (hl : l.Pairwise fun a b => key a < key b) (hx : x ∈ l) (hn : n < key x) :
    (x :: l.filter fun y => key x < key y).Sublist (l.filter fun y => n < key y) := by
  induction l with
  | nil => cases hx
  | cons a l ih =>
    obtain ⟨ha, hl'⟩ := pairwise_cons.mp hl
    rcases mem_cons.mp hx with rfl | hmem
    · rw [filter_cons_of_neg (by simp), filter_cons_of_pos (by simpa using hn)]
      refine List.Sublist.cons_cons x (monotone_filter_right l fun y hy => ?_)
      rw [decide_eq_true_eq] at hy ⊢
      omega
    · have hax := ha x hmem
      rw [filter_cons_of_neg (by simp only [decide_eq_true_eq]; omega)]
      exact (ih hl' hmem).trans ((sublist_cons_self a l).filter _)

lemma filter_sublist_filter {n' : ℕ} (h : n ≤ n') :
    (l.filter fun y => n' < key y).Sublist (l.filter fun y => n < key y) := by
  refine monotone_filter_right l fun y hy => ?_
  rw [decide_eq_true_eq] at hy ⊢
  omega

end Sublist

/-! ### The two directions -/

/-- Apply a function of a mechanism to messages, one after the other. -/
def applyAll {μ : Type} (f : Msg → μ → Except MechanismFault (Except Errno Msg × μ)) :
    List Msg → μ → Except MechanismFault (List (Except Errno Msg) × μ)
  | [], m => .ok ([], m)
  | msg :: msgs, m =>
    match f msg m with
    | .error e => .error e
    | .ok (r, m) =>
      match applyAll f msgs m with
      | .error e => .error e
      | .ok (rs, m) => .ok (r :: rs, m)

/-- A MESSAGE command. -/
def sealMessage (k : CurveCrypto) (noncePrefix key : List UInt8) (nonce : ℕ) (msg : Msg) : Msg :=
  let flags : UInt8 := if msg.more then 1 else 0
  let box := k.boxAfternm (flags :: msg.body) (noncePrefix ++ putUint64 nonce) key
  handshakeCommand ([7] ++ ascii "MESSAGE" ++ putUint64 nonce ++ box)

/-- The nonce of a MESSAGE command. -/
def messageNonce (msg : Msg) : ℕ := getUint64 (slice msg.body 8 8)

/-- The box of a MESSAGE command, opened. -/
def messageText (k : CurveCrypto) (noncePrefix key : List UInt8) (msg : Msg) : Option (List UInt8) :=
  k.openAfternm (msg.body.drop 16) (noncePrefix ++ slice msg.body 8 8) key

/-- Open a MESSAGE command; `peerNonce` is the largest nonce so far. -/
def openMessage (k : CurveCrypto) (noncePrefix key : List UInt8) (peerNonce : ℕ) (msg : Msg) :
    Except Errno Msg × ℕ :=
  if msg.body.length < 33 then (.error .eproto, peerNonce)
  else if msg.body.take 8 ≠ [7] ++ ascii "MESSAGE" then (.error .eproto, peerNonce)
  else if messageNonce msg ≤ peerNonce then (.error .eproto, peerNonce)
  else
    match messageText k noncePrefix key msg with
    | none => (.error .eproto, messageNonce msg)
    | some text => (.ok ⟨.data, frameFlags (text.headD 0 &&& 1 ≠ 0), text.drop 1⟩, messageNonce msg)

/-- The nonces of the client begin with this text. -/
def clientPrefix : List UInt8 := ascii "CurveZMQMESSAGEC"

/-- Those of the server begin with this one. -/
def serverPrefix : List UInt8 := ascii "CurveZMQMESSAGES"

lemma CurveClient.encode_eq (k : CurveCrypto) {m : CurveClient} (h : m.state = .connected) (msg : Msg) :
    encode k msg m = .ok (.ok (sealMessage k clientPrefix m.cnPrecom m.cnNonce msg),
      { m with cnNonce := (m.cnNonce + 1) % 2 ^ 64 }) := by
  rw [encode, if_neg (not_not.mpr h)]
  rfl

lemma CurveServer.encode_eq (k : CurveCrypto) {m : CurveServer} (h : m.state = .connected) (msg : Msg) :
    encode k msg m = .ok (.ok (sealMessage k serverPrefix m.cnPrecom m.cnNonce msg),
      { m with cnNonce := (m.cnNonce + 1) % 2 ^ 64 }) := by
  rw [encode, if_neg (not_not.mpr h)]
  rfl

lemma CurveClient.decode_eq (k : CurveCrypto) {m : CurveClient} (h : m.state = .connected) (msg : Msg) :
    decode k msg m = .ok ((openMessage k serverPrefix m.cnPrecom m.cnPeerNonce msg).1,
      { m with cnPeerNonce := (openMessage k serverPrefix m.cnPrecom m.cnPeerNonce msg).2 }) := by
  rw [decode, if_neg (not_not.mpr h)]
  unfold openMessage messageNonce messageText serverPrefix
  split
  · rfl
  split
  · rfl
  dsimp only
  split
  · rfl
  cases k.openAfternm (msg.body.drop 16) (ascii "CurveZMQMESSAGES" ++ slice msg.body 8 8) m.cnPrecom <;> rfl

lemma CurveServer.decode_eq (k : CurveCrypto) {m : CurveServer} (h : m.state = .connected) (msg : Msg) :
    decode k msg m = .ok ((openMessage k clientPrefix m.cnPrecom m.cnPeerNonce msg).1,
      { m with cnPeerNonce := (openMessage k clientPrefix m.cnPrecom m.cnPeerNonce msg).2 }) := by
  rw [decode, if_neg (not_not.mpr h)]
  unfold openMessage messageNonce messageText clientPrefix
  split
  · rfl
  split
  · rfl
  dsimp only
  split
  · rfl
  cases k.openAfternm (msg.body.drop 16) (ascii "CurveZMQMESSAGEC" ++ slice msg.body 8 8) m.cnPrecom <;> rfl

/-! ### Sealing and opening -/

/-- A box opens exactly where it was sealed, and is sixteen bytes longer than its text. -/
structure IdealBox (k : CurveCrypto) : Prop where
  length_box : ∀ text nonce key, (k.boxAfternm text nonce key).length = text.length + 16
  open_iff : ∀ box nonce key text, k.openAfternm box nonce key = some text ↔ box = k.boxAfternm text nonce key

/-- What is received of a message: its body and whether there is more. -/
def carried (msg : Msg) : Msg := ⟨.data, frameFlags msg.more, msg.body⟩

section Seal

variable {k : CurveCrypto} {noncePrefix key : List UInt8} {nonce peerNonce : ℕ}

lemma messageNonce_sealMessage (hnonce : nonce < 2 ^ 64) (msg : Msg) :
    messageNonce (sealMessage k noncePrefix key nonce msg) = nonce := getUint64_putUint64 hnonce

lemma messageText_sealMessage (hk : IdealBox k) (msg : Msg) :
    messageText k noncePrefix key (sealMessage k noncePrefix key nonce msg) =
      some ((if msg.more then 1 else 0) :: msg.body) :=
  (hk.open_iff _ _ _ _).mpr rfl

lemma openMessage_sealMessage (hk : IdealBox k) (hnonce : nonce < 2 ^ 64) (hnew : peerNonce < nonce) (msg : Msg) :
    openMessage k noncePrefix key peerNonce (sealMessage k noncePrefix key nonce msg) =
      (.ok (carried msg), nonce) := by
  have hlong : ¬(sealMessage k noncePrefix key nonce msg).body.length < 33 := by
    have hbox := hk.length_box ((if msg.more then (1 : UInt8) else 0) :: msg.body)
      (noncePrefix ++ putUint64 nonce) key
    simp only [sealMessage, handshakeCommand, length_append, hbox, length_cons]
    have h8 : (putUint64 nonce).length = 8 := rfl
    have h7 : (ascii "MESSAGE").length = 7 := rfl
    omega
  have hname : ¬(sealMessage k noncePrefix key nonce msg).body.take 8 ≠ [7] ++ ascii "MESSAGE" := by
    rw [not_not]
    rfl
  rw [openMessage, if_neg hlong, if_neg hname, messageNonce_sealMessage hnonce, if_neg (not_le.mpr hnew),
    messageText_sealMessage hk]
  refine congrArg (fun more => ((Except.ok ⟨.data, frameFlags more, msg.body⟩ : Except Errno Msg), nonce)) ?_
  change decide ((if msg.more then (1 : UInt8) else 0) &&& 1 ≠ 0) = msg.more
  cases msg.more <;> decide

lemma openMessage_ok {msg r : Msg} (h : (openMessage k noncePrefix key peerNonce msg).1 = .ok r) :
    peerNonce < messageNonce msg ∧ (messageText k noncePrefix key msg).isSome ∧
      (openMessage k noncePrefix key peerNonce msg).2 = messageNonce msg := by
  unfold openMessage at h ⊢
  split at h
  next => cases h
  next h33 =>
    split at h
    next => cases h
    next hname =>
      split at h
      next => cases h
      next hnew =>
        split at h
        next => cases h
        next text htext =>
          rw [if_neg h33, if_neg hname, if_neg hnew]
          refine ⟨not_le.mp hnew, ?_, ?_⟩
          · rw [htext]
            rfl
          · rfl

lemma le_openMessage (msg : Msg) : peerNonce ≤ (openMessage k noncePrefix key peerNonce msg).2 := by
  unfold openMessage
  split
  · exact le_refl _
  split
  · exact le_refl _
  split
  next => exact le_refl _
  next hnew => split <;> exact le_of_lt (not_le.mp hnew)

/-- Seal messages with one nonce after the other. -/
def sealAll (k : CurveCrypto) (noncePrefix key : List UInt8) : ℕ → List Msg → List Msg
  | _, [] => []
  | nonce, msg :: msgs => sealMessage k noncePrefix key nonce msg :: sealAll k noncePrefix key (nonce + 1) msgs

/-- Open commands one after the other. -/
def openAll (k : CurveCrypto) (noncePrefix key : List UInt8) : ℕ → List Msg → List (Except Errno Msg)
  | _, [] => []
  | peerNonce, msg :: msgs =>
    (openMessage k noncePrefix key peerNonce msg).1 ::
      openAll k noncePrefix key (openMessage k noncePrefix key peerNonce msg).2 msgs

/-- The commands that were accepted, with what they brought. -/
def accepted (ds : List Msg) (rs : List (Except Errno Msg)) : List (Msg × Msg) :=
  (ds.zip rs).filterMap fun pair => pair.2.toOption.map fun msg => (pair.1, msg)

lemma openAll_sealAll (hk : IdealBox k) (msgs : List Msg) (hnonce : nonce + msgs.length ≤ 2 ^ 64)
    (hnew : peerNonce < nonce) :
    openAll k noncePrefix key peerNonce (sealAll k noncePrefix key nonce msgs) =
      msgs.map fun msg => .ok (carried msg) := by
  induction msgs generalizing nonce peerNonce with
  | nil => rfl
  | cons msg msgs ih =>
    rw [length_cons] at hnonce
    rw [sealAll, openAll, openMessage_sealMessage hk (by omega) hnew, map_cons]
    exact congrArg _ (ih (by omega) (Nat.lt_succ_self nonce))

/-- The commands in the order in which they were sent, with what they bring. -/
def sentPairs (k : CurveCrypto) (noncePrefix key : List UInt8) (nonce : ℕ) (msgs : List Msg) : List (Msg × Msg) :=
  (sealAll k noncePrefix key nonce msgs).zip (msgs.map carried)

lemma exists_of_mem_sealAll {msgs : List Msg} (hnonce : nonce + msgs.length ≤ 2 ^ 64) {d : Msg}
    (hd : d ∈ sealAll k noncePrefix key nonce msgs) :
    ∃ n msg, nonce ≤ n ∧ n < 2 ^ 64 ∧ d = sealMessage k noncePrefix key n msg ∧
      (d, carried msg) ∈ sentPairs k noncePrefix key nonce msgs := by
  induction msgs generalizing nonce with
  | nil => cases hd
  | cons msg msgs ih =>
    rw [length_cons] at hnonce
    rcases mem_cons.mp hd with rfl | hmem
    · exact ⟨nonce, msg, le_refl _, by omega, rfl, mem_cons_self⟩
    · obtain ⟨n, msg', hn, hlt, heq, hpair⟩ := ih (by omega) hmem
      exact ⟨n, msg', by omega, hlt, heq, mem_cons_of_mem _ hpair⟩

lemma sentPairs_pairwise {msgs : List Msg} (hnonce : nonce + msgs.length ≤ 2 ^ 64) :
    (sentPairs k noncePrefix key nonce msgs).Pairwise fun a b => messageNonce a.1 < messageNonce b.1 := by
  induction msgs generalizing nonce with
  | nil => exact List.Pairwise.nil
  | cons msg msgs ih =>
    rw [length_cons] at hnonce
    refine pairwise_cons.mpr ⟨fun pair hpair => ?_, ih (by omega)⟩
    obtain ⟨n, msg', hn, hlt, heq, -⟩ := exists_of_mem_sealAll (by omega) (of_mem_zip hpair).1
    rw [heq, messageNonce_sealMessage hlt, messageNonce_sealMessage (by omega)]
    exact hn

lemma accepted_sublist (hk : IdealBox k) {msgs : List Msg} (hnonce : nonce + msgs.length ≤ 2 ^ 64)
    (peerNonce : ℕ) (ds : List Msg)
    (hds : ∀ d ∈ ds, d ∈ sealAll k noncePrefix key nonce msgs ∨ messageText k noncePrefix key d = none) :
    (accepted ds (openAll k noncePrefix key peerNonce ds)).Sublist
      ((sentPairs k noncePrefix key nonce msgs).filter fun pair => peerNonce < messageNonce pair.1) := by
  induction ds generalizing peerNonce with
  | nil => exact nil_sublist _
  | cons d ds ih =>
    have hrest := ih (openMessage k noncePrefix key peerNonce d).2
      fun d' hd' => hds d' (mem_cons_of_mem _ hd')
    rw [openAll]
    cases hr : (openMessage k noncePrefix key peerNonce d).1 with
    | error e => exact hrest.trans (filter_sublist_filter _ (le_openMessage d))
    | ok r =>
      obtain ⟨hnew, hopens, hnext⟩ := openMessage_ok hr
      -- What opens was sent, and it brings what it was made from.
      obtain ⟨n, msg, -, hlt, rfl, hpair⟩ : ∃ n msg, nonce ≤ n ∧ n < 2 ^ 64 ∧
          d = sealMessage k noncePrefix key n msg ∧
          (d, carried msg) ∈ sentPairs k noncePrefix key nonce msgs := by
        rcases hds d mem_cons_self with hsent | hnone
        · exact exists_of_mem_sealAll hnonce hsent
        · rw [hnone] at hopens
          cases hopens
      rw [messageNonce_sealMessage hlt] at hnew
      rw [openMessage_sealMessage hk hlt hnew] at hr hrest
      rw [← Except.ok.inj hr, openMessage_sealMessage hk hlt hnew]
      refine (List.Sublist.cons_cons _ hrest).trans ?_
      have hsub := cons_filter_sublist (fun pair : Msg × Msg => messageNonce pair.1)
        (sentPairs_pairwise hnonce) hpair (n := peerNonce) (by rw [messageNonce_sealMessage hlt]; exact hnew)
      rw [messageNonce_sealMessage hlt] at hsub
      exact hsub

end Seal

/-! ### Both directions -/

/-- What one side encodes the other side decodes, up to `limit` messages: in order, each body with the flag
of whether there is more; and in any order, with any repetitions and with any commands whose box does not
open, only a subsequence of what was sent. -/
def Carries {μ ν : Type} (encode : Msg → μ → Except MechanismFault (Except Errno Msg × μ))
    (decode : Msg → ν → Except MechanismFault (Except Errno Msg × ν)) (forged : Msg → Prop) (sender : μ)
    (receiver : ν) (limit : ℕ) : Prop :=
  ∀ msgs : List Msg, msgs.length ≤ limit → ∃ cmds sender',
    applyAll encode msgs sender = .ok (cmds.map .ok, sender') ∧
    (∃ receiver', applyAll decode cmds receiver = .ok (msgs.map fun msg => .ok (carried msg), receiver')) ∧
    ∀ ds : List Msg, (∀ d ∈ ds, d ∈ cmds ∨ forged d) → ∃ rs receiver',
      applyAll decode ds receiver = .ok (rs, receiver') ∧
      (accepted ds rs).Sublist (cmds.zip (msgs.map carried)) ∧
      (accepted ds rs).Pairwise fun a b => messageNonce a.1 < messageNonce b.1

section Directions

variable {k : CurveCrypto} {noncePrefix key : List UInt8} {μ ν : Type}
  {encode : Msg → μ → Except MechanismFault (Except Errno Msg × μ)}
  {decode : Msg → ν → Except MechanismFault (Except Errno Msg × ν)}

/-- A mechanism seals with its key and counts its nonces. -/
def Seals (k : CurveCrypto) (noncePrefix key : List UInt8)
    (encode : Msg → μ → Except MechanismFault (Except Errno Msg × μ)) (I : μ → ℕ → Prop) : Prop :=
  ∀ m n msg, I m n → ∃ m', encode msg m = .ok (.ok (sealMessage k noncePrefix key n msg), m') ∧
    I m' ((n + 1) % 2 ^ 64)

/-- A mechanism opens with its key and remembers the largest nonce. -/
def Opens (k : CurveCrypto) (noncePrefix key : List UInt8)
    (decode : Msg → ν → Except MechanismFault (Except Errno Msg × ν)) (I : ν → ℕ → Prop) : Prop :=
  ∀ m n msg, I m n → ∃ m', decode msg m = .ok ((openMessage k noncePrefix key n msg).1, m') ∧
    I m' (openMessage k noncePrefix key n msg).2

lemma Seals.applyAll {I : μ → ℕ → Prop} (h : Seals k noncePrefix key encode I) (msgs : List Msg) {m : μ} {n : ℕ}
    (hm : I m n) (hn : n + msgs.length ≤ 2 ^ 64) :
    ∃ m', applyAll encode msgs m = .ok ((sealAll k noncePrefix key n msgs).map .ok, m') := by
  induction msgs generalizing m n with
  | nil => exact ⟨m, rfl⟩
  | cons msg msgs ih =>
    obtain ⟨m1, hencode, hm1⟩ := h m n msg hm
    rw [length_cons] at hn
    rw [Zmq.applyAll, hencode]
    by_cases hlast : msgs = []
    · rw [hlast]
      exact ⟨m1, rfl⟩
    have hpos := length_pos_iff.mpr hlast
    rw [Nat.mod_eq_of_lt (by omega)] at hm1
    obtain ⟨m2, hrest⟩ := ih hm1 (by omega)
    dsimp only
    rw [hrest]
    exact ⟨m2, rfl⟩

lemma Opens.applyAll {I : ν → ℕ → Prop} (h : Opens k noncePrefix key decode I) (ds : List Msg) {m : ν} {n : ℕ}
    (hm : I m n) : ∃ m', applyAll decode ds m = .ok (openAll k noncePrefix key n ds, m') := by
  induction ds generalizing m n with
  | nil => exact ⟨m, rfl⟩
  | cons d ds ih =>
    obtain ⟨m1, hdecode, hm1⟩ := h m n d hm
    obtain ⟨m2, hrest⟩ := ih hm1
    rw [Zmq.applyAll, hdecode]
    dsimp only
    rw [hrest]
    exact ⟨m2, rfl⟩

lemma Carries.of_seals_opens (hk : IdealBox k) {I : μ → ℕ → Prop} {J : ν → ℕ → Prop}
    (hseals : Seals k noncePrefix key encode I) (hopens : Opens k noncePrefix key decode J) {sender : μ}
    {receiver : ν} {n peer : ℕ} (hsender : I sender n) (hreceiver : J receiver peer) (hn : n < 2 ^ 64)
    (hnew : peer < n) :
    Carries encode decode (fun d => messageText k noncePrefix key d = none) sender receiver (2 ^ 64 - n) := by
  intro msgs hlen
  have hnonce : n + msgs.length ≤ 2 ^ 64 := by omega
  obtain ⟨sender', hsent⟩ := hseals.applyAll msgs hsender hnonce
  refine ⟨sealAll k noncePrefix key n msgs, sender', hsent, ?_, fun ds hds => ?_⟩
  · obtain ⟨receiver', hall⟩ := hopens.applyAll (sealAll k noncePrefix key n msgs) hreceiver
    rw [openAll_sealAll hk msgs hnonce hnew] at hall
    exact ⟨receiver', hall⟩
  · obtain ⟨receiver', hall⟩ := hopens.applyAll ds hreceiver
    have hsub := (accepted_sublist hk hnonce peer ds hds).trans filter_sublist
    exact ⟨_, receiver', hall, hsub, (sentPairs_pairwise hnonce).sublist hsub⟩

lemma CurveClient.seals : Seals k clientPrefix key (CurveClient.encode k)
    fun m n => m.state = .connected ∧ m.cnPrecom = key ∧ m.cnNonce = n := by
  rintro m n msg ⟨hstate, rfl, rfl⟩
  exact ⟨_, encode_eq k hstate msg, hstate, rfl, rfl⟩

lemma CurveServer.seals : Seals k serverPrefix key (CurveServer.encode k)
    fun m n => m.state = .connected ∧ m.cnPrecom = key ∧ m.cnNonce = n := by
  rintro m n msg ⟨hstate, rfl, rfl⟩
  exact ⟨_, encode_eq k hstate msg, hstate, rfl, rfl⟩

lemma CurveClient.opens : Opens k serverPrefix key (CurveClient.decode k)
    fun m n => m.state = .connected ∧ m.cnPrecom = key ∧ m.cnPeerNonce = n := by
  rintro m n msg ⟨hstate, rfl, rfl⟩
  exact ⟨_, decode_eq k hstate msg, hstate, rfl, rfl⟩

lemma CurveServer.opens : Opens k clientPrefix key (CurveServer.decode k)
    fun m n => m.state = .connected ∧ m.cnPrecom = key ∧ m.cnPeerNonce = n := by
  rintro m n msg ⟨hstate, rfl, rfl⟩
  exact ⟨_, decode_eq k hstate msg, hstate, rfl, rfl⟩

end Directions

/-- **Messages.** If boxes open exactly where they were sealed, then what a connected client encodes is
carried to a connected server that has the same key, and what the server encodes to the client, as long as
the counter of nonces does not overflow. -/
theorem curve_messages (k : CurveCrypto) (hk : IdealBox k) (client : CurveClient) (server : CurveServer)
    (hclient : client.state = .connected) (hserver : server.state = .connected)
    (hkey : client.cnPrecom = server.cnPrecom) :
    (server.cnPeerNonce < client.cnNonce → client.cnNonce < 2 ^ 64 →
      Carries (CurveClient.encode k) (CurveServer.decode k)
        (fun d => messageText k clientPrefix server.cnPrecom d = none) client server (2 ^ 64 - client.cnNonce)) ∧
    (client.cnPeerNonce < server.cnNonce → server.cnNonce < 2 ^ 64 →
      Carries (CurveServer.encode k) (CurveClient.decode k)
        (fun d => messageText k serverPrefix server.cnPrecom d = none) server client (2 ^ 64 - server.cnNonce)) := by
  constructor
  · intro hnew hn
    exact Carries.of_seals_opens hk CurveClient.seals CurveServer.opens ⟨hclient, hkey, rfl⟩
      ⟨hserver, rfl, rfl⟩ hn hnew
  · intro hnew hn
    exact Carries.of_seals_opens hk CurveServer.seals CurveClient.opens ⟨hserver, rfl, rfl⟩
      ⟨hclient, hkey, rfl⟩ hn hnew

/-! ### Examples -/

/-- A tag of sixteen bytes from a nonce. -/
def nonceTag (nonce : List UInt8) : List UInt8 := (nonce.drop 8 ++ List.replicate 16 0).take 16

/-- Boxes that carry the text in the clear behind a tag, and open only with their nonce. -/
def taggedBoxes : CurveCrypto :=
  { clearBoxes with
    openAfternm := fun box nonce _ => if box.take 16 = nonceTag nonce then some (box.drop 16) else none
    boxAfternm := fun text nonce _ => nonceTag nonce ++ text }

lemma length_nonceTag (nonce : List UInt8) : (nonceTag nonce).length = 16 := by
  rw [nonceTag, length_take, length_append, length_replicate]
  omega

lemma idealBox_taggedBoxes : IdealBox taggedBoxes where
  length_box text nonce key := by
    change (nonceTag nonce ++ text).length = _
    rw [length_append, length_nonceTag, Nat.add_comm]
  open_iff box nonce key text := by
    change (if box.take 16 = nonceTag nonce then some (box.drop 16) else none) = some text ↔
      box = nonceTag nonce ++ text
    constructor
    · intro h
      split at h
      next htag => rw [← Option.some_inj.mp h, ← htag, take_append_drop]
      next => cases h
    · rintro rfl
      rw [take_left' (length_nonceTag nonce), if_pos rfl, drop_left' (length_nonceTag nonce)]

/-- A client after the handshake. -/
def connectedClient : CurveClient :=
  { CurveClient.new [] [] [] [] [] [] [] [] with state := .connected, cnNonce := 3, cnPeerNonce := 1 }

/-- The server it is connected to. -/
def connectedServer : CurveServer :=
  { CurveServer.new [] [] [] with state := .connected, cnNonce := 2, cnPeerNonce := 2 }

/-- Two frames from a client; the second is delivered first, then both are replayed. -/
theorem curve_messages_replayed :
    ∃ cmds : List Msg, cmds.length = 2 ∧ ∃ rs server',
      applyAll (CurveServer.decode taggedBoxes) (cmds.reverse ++ cmds) connectedServer = .ok (rs, server') ∧
      (accepted (cmds.reverse ++ cmds) rs).Sublist
        (cmds.zip [⟨.data, frameFlags true, [1]⟩, ⟨.data, frameFlags false, [2, 3]⟩]) := by
  have hmessages := curve_messages taggedBoxes idealBox_taggedBoxes connectedClient connectedServer rfl rfl rfl
  obtain ⟨cmds, client', hsent, -, hany⟩ := hmessages.1 (by decide) (by decide)
    [⟨.data, frameFlags true, [1]⟩, ⟨.data, frameFlags false, [2, 3]⟩] (by decide)
  have hlen : cmds.length = 2 := by
    have htwo : (applyAll (CurveClient.encode taggedBoxes) [⟨.data, frameFlags true, [1]⟩,
        ⟨.data, frameFlags false, [2, 3]⟩] connectedClient).toOption.map (fun r => r.1.length) = some 2 := rfl
    rw [hsent] at htwo
    have hmap : (cmds.map (Except.ok : Msg → Except Errno Msg)).length = 2 := Option.some_inj.mp htwo
    rwa [length_map] at hmap
  obtain ⟨rs, server', hrun, hsub, -⟩ := hany (cmds.reverse ++ cmds) fun d hd => by
    rcases mem_append.mp hd with hd | hd
    · exact .inl (mem_reverse.mp hd)
    · exact .inl hd
  exact ⟨cmds, hlen, rs, server', hrun, hsub⟩

/-- The flag of a command is lost, and a message after the last nonce is rejected. -/
theorem curve_messages_lose_command :
    (∃ cmd client' msg server',
      CurveClient.encode taggedBoxes ⟨.data, { MsgFlags.none with command := true }, [1]⟩ connectedClient =
        .ok (.ok cmd, client') ∧
      CurveServer.decode taggedBoxes cmd connectedServer = .ok (.ok msg, server') ∧
      msg.flags.command = false) ∧
    ∃ cmd1 cmd2 client' msg server',
      applyAll (CurveClient.encode taggedBoxes) [⟨.data, .none, [1]⟩, ⟨.data, .none, [2]⟩]
        { connectedClient with cnNonce := 2 ^ 64 - 1 } = .ok ([.ok cmd1, .ok cmd2], client') ∧
      applyAll (CurveServer.decode taggedBoxes) [cmd1, cmd2] { connectedServer with cnPeerNonce := 2 ^ 64 - 2 } =
        .ok ([.ok msg, .error .eproto], server') := by
  refine ⟨⟨_, _, _, _, rfl, rfl, rfl⟩, ⟨_, _, _, _, _, rfl, rfl⟩⟩

end Zmq
