import ZeroMQ.Engine.ZapChecks

/-!
# The HELLO command of PLAIN

A client says HELLO with a user name and a password, each behind its length in one byte. The server takes the command
apart, and what it accepts is exactly what some client says: it then has the same user name and the same password, and
these are what the ZAP handler is asked about.
-/

namespace Zmq

open List UInt8

/-- What `plain_client_t` reads of `options_t` for its HELLO command. -/
structure PlainOptions where
  plainUsername : List UInt8
  plainPassword : List UInt8

namespace PlainClient

/-- `produce_hello`. -/
def produceHello (o : PlainOptions) : Except MechanismFault Msg :=
  if o.plainUsername.length < 256 then
    if o.plainPassword.length < 256 then
      .ok (handshakeCommand ([5] ++ ascii "HELLO" ++ UInt8.ofNat o.plainUsername.length :: o.plainUsername ++
        UInt8.ofNat o.plainPassword.length :: o.plainPassword))
    else .error .assertFailed
  else .error .assertFailed

end PlainClient

/-- The data are those of the HELLO command for a user name and a password. -/
def IsHello (username password data : List UInt8) : Prop :=
  ∃ msg, PlainClient.produceHello ⟨username, password⟩ = .ok msg ∧ msg.body = data

lemma isHello_iff {username password data : List UInt8} : IsHello username password data ↔
    username.length < 256 ∧ password.length < 256 ∧
      data = [5] ++ ascii "HELLO" ++ ofNat username.length :: username ++
        ofNat password.length :: password := by
  constructor
  · rintro ⟨msg, hproduce, rfl⟩
    unfold PlainClient.produceHello at hproduce
    split_ifs at hproduce with husername hpassword
    cases hproduce
    exact ⟨husername, hpassword, rfl⟩
  · rintro ⟨husername, hpassword, rfl⟩
    exact ⟨_, (if_pos husername).trans (if_pos hpassword), rfl⟩

/-! ### `plain_server_t` -/

namespace PlainServer

variable {o : MechanismOptions} {msg : Msg} {m : PlainServer} {z : Zap} {username password data : List UInt8}

/-- What `process_hello` does with a user name and a password: it asks the ZAP handler, if there is one. -/
def askZap (o : MechanismOptions) (username password : List UInt8) (m : PlainServer) (z : Zap) : GivesUnit PlainServer :=
  match z.zapConnect with
  | .error f => .error f
  | .ok (false, z) => .ok (.ok (), { m with state := .sendingWelcome }, z)
  | .ok (true, z) =>
    match sendZapRequest o [ascii "PLAIN", username, password] z with
    | .error f => .error f
    | .ok z =>
      match receiveAndProcessZapReply o m z with
      | (.ok (), m, z) => .ok (.ok (), m.afterReply, z)
      | (.error .eagain, m, z) => .ok (.ok (), { m with state := .waitingForZapReply }, z)
      | (.error e, m, z) => .ok (.error e, m, z)

lemma processHello_eq (o : MechanismOptions) (msg : Msg) (m : PlainServer) (z : Zap) :
    processHello o msg m z =
      match parseHello msg.body with
      | none => .ok (.error .eproto, m, z)
      | some (username, password) => askZap o username password m z := rfl

lemma take_of_length {field : List UInt8} (hlen : field.length < 256) (rest : List UInt8) :
    (field ++ rest).take (ofNat field.length).toNat = field ∧
      (field ++ rest).drop (ofNat field.length).toNat = rest := by
  rw [toNat_ofNat_of_lt' hlen]
  exact ⟨take_left' rfl, drop_left' rfl⟩

lemma parseHello_of_isHello (h : IsHello username password data) :
    parseHello data = some (username, password) := by
  obtain ⟨husername, hpassword, rfl⟩ := isHello_iff.mp h
  have hname : ([5] ++ ascii "HELLO" : List UInt8).length = 6 := by decide
  obtain ⟨htake, hdrop⟩ := take_of_length husername (ofNat password.length :: password)
  have hfits : ¬(username ++ ofNat password.length :: password).length < (ofNat username.length).toNat := by
    rw [toNat_ofNat_of_lt' husername, length_append]
    omega
  have hlast : ¬password.length ≠ (ofNat password.length).toNat := by
    rw [toNat_ofNat_of_lt' hpassword]
    exact fun hne => hne rfl
  rw [parseHello, append_assoc, take_left' hname, drop_left' hname, if_neg fun hne => hne rfl]
  simp only [cons_append, if_neg hfits, hdrop, if_neg hlast, htake]

lemma isHello_of_parseHello (h : parseHello data = some (username, password)) : IsHello username password data := by
  unfold parseHello at h
  split_ifs at h with hname
  have hname : data.take 6 = [5] ++ ascii "HELLO" := not_not.mp hname
  have hdata := take_append_drop 6 data
  cases hrest : data.drop 6 with
  | nil =>
    rw [hrest] at h
    cases h
  | cons usernameLength rest =>
    rw [hrest] at h hdata
    dsimp only at h
    split_ifs at h with hshort
    have hsplit := take_append_drop usernameLength.toNat rest
    have hlen : (rest.take usernameLength.toNat).length = usernameLength.toNat :=
      length_take_of_le (Nat.le_of_not_lt hshort)
    cases htail : rest.drop usernameLength.toNat with
    | nil =>
      rw [htail] at h
      cases h
    | cons passwordLength tail =>
      rw [htail] at h hsplit
      dsimp only at h
      split_ifs at h with hlast
      have hlast : tail.length = passwordLength.toNat := not_not.mp hlast
      obtain ⟨rfl, rfl⟩ := Prod.mk.inj (Option.some.inj h)
      refine isHello_iff.mpr ⟨?_, ?_, ?_⟩
      · rw [hlen]
        exact usernameLength.toNat_lt
      · rw [hlast]
        exact passwordLength.toNat_lt
      · rw [hlen, hlast, UInt8.ofNat_toNat, UInt8.ofNat_toNat, ← hname, append_assoc, cons_append, hsplit, hdata]

lemma parseHello_iff : parseHello data = some (username, password) ↔ IsHello username password data :=
  ⟨isHello_of_parseHello, parseHello_of_isHello⟩

lemma askZap_connects {r : Except Errno Unit} {m' : PlainServer} {z' : Zap}
    (h : askZap o username password m z = .ok (r, m', z')) : z'.connects.length = z.connects.length + 1 := by
  unfold askZap at h
  split at h
  · cases h
  next hconnect =>
    cases h
    rw [(Zap.zapConnect_ok hconnect).1, length_append, length_singleton]
  next z1 hconnect =>
    have hlen : z1.connects.length = z.connects.length + 1 := by
      rw [(Zap.zapConnect_ok hconnect).1, length_append, length_singleton]
    rw [← hlen]
    split at h
    · cases h
    next z2 hsend =>
      have hreceive : ∀ {r : Except Errno Unit} {m' : PlainServer} {z' : Zap},
          receiveAndProcessZapReply o m z2 = (r, m', z') → z'.connects = z1.connects := by
        intro r m' z' hreceive
        rw [← (sendZapRequest_ok hsend).1]
        cases hresult : Zmq.receiveAndProcessZapReply .eacces o m.statusCode m.base z2 with
        | mk rc result =>
          obtain ⟨code, base, z3⟩ := result
          have hz : z3 = z' := by
            rw [receiveAndProcessZapReply, hresult] at hreceive
            exact (Prod.mk.inj (Prod.mk.inj hreceive).2).2
          rw [← hz]
          cases rc with
          | ok =>
            obtain ⟨-, -, -, hconnects, -⟩ := receiveAndProcessZapReply_ok hresult
            exact hconnects
          | error e => exact (receiveAndProcessZapReply_error hresult).1
      split at h
      all_goals
        rename_i hresult
        cases h
        rw [hreceive hresult]

/-- A command is accepted exactly when it is the HELLO command of some client; then the ZAP handler is asked about the
user name and the password of this client, and every other command is refused. -/
theorem processHello_accepts (o : MechanismOptions) (msg : Msg) (m : PlainServer) (z : Zap) :
    (∀ username password, parseHello msg.body = some (username, password) ↔ IsHello username password msg.body) ∧
      (∀ username password, IsHello username password msg.body →
        processHello o msg m z = askZap o username password m z) ∧
      (processHello o msg m z = .ok (.error .eproto, m, z) ↔
        ∀ username password, ¬IsHello username password msg.body) := by
  refine ⟨fun username password => parseHello_iff, fun username password h => ?_, fun h username password hello => ?_,
    fun h => ?_⟩
  · rw [processHello_eq, parseHello_of_isHello h]
  · rw [processHello_eq, parseHello_of_isHello hello] at h
    exact absurd (askZap_connects h) (Nat.ne_of_lt (Nat.lt_succ_self _))
  · rw [processHello_eq]
    cases hparse : parseHello msg.body with
    | none => rfl
    | some credentials => exact absurd (isHello_of_parseHello hparse) (h credentials.1 credentials.2)

/-- A client that has no password, and a server without a ZAP handler. -/
theorem processHello_accepts_admin :
    let o : MechanismOptions := ⟨.dealer, [], Nat.zero_le _, false, [], []⟩
    processHello o (handshakeCommand ([5] ++ ascii "HELLO" ++ [1, 97, 0])) new ⟨none, none, [], [], []⟩ =
      askZap o [97] [] new ⟨none, none, [], [], []⟩ :=
  (processHello_accepts ⟨.dealer, [], Nat.zero_le _, false, [], []⟩ _ new ⟨none, none, [], [], []⟩).2.1 [97] [] ⟨_, rfl, rfl⟩

end PlainServer

end Zmq
