import ZeroMQ.Engine.CurveClient

/-!
# The order of the CURVE client's handshake

The engine asks the client for its next command when it can write and hands it the commands of the peer
when they come; `Handshake` is the client with a record of what has succeeded. A client that is connected
should have sent HELLO, processed one WELCOME, sent INITIATE and processed one READY. The PLAIN client
looks at its state before it processes a WELCOME or a READY; the CURVE client does not, so the order is
kept only where no such command can be opened out of its turn.
-/

namespace Zmq

open Foundation Except Option

/-- What has succeeded in a handshake. -/
inductive HandshakeEvent
  | hello
  | welcome
  | initiate
  | ready
  | error
  deriving DecidableEq, Repr

/-- The client with a record of what has succeeded. -/
structure Handshake where
  /-- The client. -/
  client : CurveClient
  /-- What has succeeded, in order. -/
  log : List HandshakeEvent

/-- What the engine does with the client. -/
inductive HandshakeAct
  /-- `next_handshake_command`. -/
  | next
  /-- `process_handshake_command`. -/
  | process (msg : Msg)

namespace CurveClient

/-- The event of a command the client sends. -/
def sentEvent (m : CurveClient) : HandshakeEvent :=
  if m.state = .sendHello then .hello else .initiate

/-- The event of a command the client processes. -/
def processedEvent (msg : Msg) : HandshakeEvent :=
  match command msg.body with
  | .welcome => .welcome
  | .ready => .ready
  | .error => .error
  | .unknown => .error

end CurveClient

namespace Handshake

/-- One call of the engine. -/
def step (o : MechanismOptions) (k : CurveCrypto) (h : Handshake) : HandshakeAct → Except MechanismFault Handshake
  | .next =>
    match h.client.nextHandshakeCommand o k with
    | .error f => .error f
    | .ok (.error _, client) => .ok { h with client }
    | .ok (.ok _, client) => .ok { client, log := h.log ++ [h.client.sentEvent] }
  | .process msg =>
    match h.client.processHandshakeCommand o k msg with
    | .error f => .error f
    | .ok (.error _, client) => .ok { h with client }
    | .ok (.ok (), client) => .ok { client, log := h.log ++ [CurveClient.processedEvent msg] }

end Handshake

section Order

variable {o : MechanismOptions} {k : CurveCrypto} {m m' : CurveClient} {msg : Msg}

namespace CurveClient

/-- It is the turn of a command. -/
def Expects (m : CurveClient) (msg : Msg) : Prop :=
  match command msg.body with
  | .welcome => m.state = .expectWelcome
  | .ready => m.state = .expectReady
  | .error => m.state = .expectWelcome ∨ m.state = .expectReady
  | .unknown => False

/-- The state, the keys and the cookie are the same. -/
structure SameKeys (m m' : CurveClient) : Prop where
  state : m'.state = m.state
  publicKey : m'.publicKey = m.publicKey
  secretKey : m'.secretKey = m.secretKey
  cnPublic : m'.cnPublic = m.cnPublic
  cnSecret : m'.cnSecret = m.cnSecret
  serverKey : m'.serverKey = m.serverKey
  cnServer : m'.cnServer = m.cnServer
  cnCookie : m'.cnCookie = m.cnCookie
  cnPrecom : m'.cnPrecom = m.cnPrecom

/-- A command is rejected and nothing of the state, the keys and the cookie changes. -/
def Rejects (o : MechanismOptions) (k : CurveCrypto) (m : CurveClient) (msg : Msg) : Prop :=
  ∃ m', m.processHandshakeCommand o k msg = .ok (.error .eproto, m') ∧ SameKeys m m'

/-- A WELCOME that is not awaited has the wrong size or cannot be opened; a READY that is not awaited is
too short, or it fits into the buffer and cannot be opened or does not hold metadata. -/
def Harmless (o : MechanismOptions) (k : CurveCrypto) (m : CurveClient) (msg : Msg) : Prop :=
  match command msg.body with
  | .welcome => m.state = .expectWelcome ∨ msg.body.length ≠ 168 ∨ openWelcome k msg.body m = none
  | .ready =>
    m.state = .expectReady ∨ msg.body.length < 30 ∨
      msg.body.length - 14 ≤ readyBoxCapacity ∧
        ∀ text, openReady k msg.body m = some text → (parseMetadata o false text m.base).1 = .error .eproto
  | .error => True
  | .unknown => True

lemma processWelcome_cases (data : List UInt8) (m : CurveClient) :
    ((data.length ≠ 168 ∨ openWelcome k data m = none) ∧ processWelcome k data m = (.error .eproto, m)) ∨
      ∃ text, data.length = 168 ∧ openWelcome k data m = some text ∧
        processWelcome k data m = (.ok (),
          { m with
            cnServer := text.take 32
            cnCookie := slice text 32 96
            cnPrecom := k.beforenm (text.take 32) m.cnSecret
            state := .sendInitiate }) := by
  unfold processWelcome
  by_cases hlen : data.length = 168
  · rw [if_neg (not_not.mpr hlen)]
    cases hopen : openWelcome k data m with
    | none => exact .inl ⟨.inr rfl, rfl⟩
    | some text => exact .inr ⟨text, hlen, rfl, rfl⟩
  · rw [if_pos hlen]
    exact .inl ⟨.inl hlen, rfl⟩

lemma processReady_cases (data : List UInt8) (m : CurveClient) :
    (data.length < 30 ∧ processReady o k data m = .ok (.error .eproto, m)) ∨
    (¬data.length < 30 ∧ data.length - 14 > readyBoxCapacity ∧ processReady o k data m = .error .outOfBounds) ∨
    ¬data.length < 30 ∧ data.length - 14 ≤ readyBoxCapacity ∧
      ((openReady k data m = none ∧ ∃ m', processReady o k data m = .ok (.error .eproto, m') ∧ SameKeys m m') ∨
        ∃ text, openReady k data m = some text ∧
          ((∃ e m', processReady o k data m = .ok (.error e, m') ∧
              (parseMetadata o false text m.base).1 = .error e ∧ SameKeys m m') ∨
            ∃ m', processReady o k data m = .ok (.ok (), m') ∧
              (parseMetadata o false text m.base).1 = .ok () ∧ m'.state = .connected)) := by
  unfold processReady
  by_cases hshort : data.length < 30
  · exact .inl ⟨hshort, if_pos hshort⟩
  rw [if_neg hshort]
  by_cases hlong : data.length - 14 > readyBoxCapacity
  · exact .inr (.inl ⟨hshort, hlong, if_pos hlong⟩)
  rw [if_neg hlong]
  refine .inr (.inr ⟨hshort, not_lt.mp hlong, ?_⟩)
  cases hopen : openReady k data m with
  | none => exact .inl ⟨rfl, _, rfl, ⟨rfl, rfl, rfl, rfl, rfl, rfl, rfl, rfl, rfl⟩⟩
  | some text =>
    refine .inr ⟨text, rfl, ?_⟩
    cases hparse : parseMetadata o false text m.base with
    | mk rc base =>
      cases rc with
      | error e =>
        simp only [hparse]
        exact .inl ⟨e, _, rfl, rfl, ⟨rfl, rfl, rfl, rfl, rfl, rfl, rfl, rfl, rfl⟩⟩
      | ok u =>
        simp only [hparse]
        exact .inr ⟨_, rfl, trivial, rfl⟩

lemma processError_cases (data : List UInt8) (m : CurveClient) :
    processError data m = (.error .eproto, m) ∨
      ((m.state = .expectWelcome ∨ m.state = .expectReady) ∧
        processError data m = (.ok (), { m with state := .errorReceived })) := by
  unfold processError
  split
  next => exact .inl rfl
  next hstate =>
    split
    · exact .inl rfl
    split
    · exact .inl rfl
    refine .inr ⟨?_, rfl⟩
    by_contra hno
    exact hstate (not_or.mp hno)

lemma SameKeys.refl (m : CurveClient) : SameKeys m m := ⟨rfl, rfl, rfl, rfl, rfl, rfl, rfl, rfl, rfl⟩

/-- **A command that is not awaited** is rejected, with the keys and the cookie as they were, exactly if
it is harmless. -/
theorem rejects_iff (m : CurveClient) (msg : Msg) (h : ¬m.Expects msg) :
    Rejects o k m msg ↔ Harmless o k m msg := by
  unfold Expects at h
  unfold Rejects Harmless processHandshakeCommand
  cases hc : command msg.body with
  | welcome =>
    rw [hc] at h
    rcases processWelcome_cases (k := k) msg.body m with ⟨hbad, heq⟩ | ⟨text, hlen, hopen, heq⟩
    · rw [heq]
      exact ⟨fun _ => .inr hbad, fun _ => ⟨m, rfl, SameKeys.refl m⟩⟩
    rw [heq]
    constructor
    · rintro ⟨m', hm', -⟩
      cases hm'
    rintro (hs | hs | hs)
    · exact absurd hs h
    · exact absurd hlen hs
    · rw [hopen] at hs
      cases hs
  | ready =>
    rw [hc] at h
    rcases processReady_cases (o := o) (k := k) msg.body m with
      ⟨hshort, heq⟩ | ⟨hshort, hlong, heq⟩ | ⟨hshort, hfits, hrest⟩
    · rw [heq]
      exact ⟨fun _ => .inr (.inl hshort), fun _ => ⟨m, rfl, SameKeys.refl m⟩⟩
    · rw [heq]
      constructor
      · rintro ⟨m', hm', -⟩
        cases hm'
      rintro (hs | hs | ⟨hs, -⟩)
      · exact absurd hs h
      · exact absurd hs hshort
      · exact absurd hlong (not_lt.mpr hs)
    · rcases hrest with ⟨hnone, m', heq, hsame⟩ | ⟨text, htext, hrest⟩
      · rw [heq]
        refine ⟨fun _ => .inr (.inr ⟨hfits, fun text htext => ?_⟩), fun _ => ⟨m', rfl, hsame⟩⟩
        rw [hnone] at htext
        cases htext
      · have hready : (m.state = .expectReady ∨ msg.body.length < 30 ∨
            msg.body.length - 14 ≤ readyBoxCapacity ∧ ∀ text, openReady k msg.body m = some text →
              (parseMetadata o false text m.base).1 = .error .eproto) ↔
            (parseMetadata o false text m.base).1 = .error .eproto := by
          constructor
          · rintro (hs | hs | ⟨-, hs⟩)
            · exact absurd hs h
            · exact absurd hs hshort
            · exact hs text htext
          · intro hs
            refine .inr (.inr ⟨hfits, fun text' htext' => ?_⟩)
            rw [htext, some_inj] at htext'
            rw [← htext', hs]
        rw [hready]
        rcases hrest with ⟨e, m', heq, he, hsame⟩ | ⟨m', heq, hok, -⟩
        · rw [heq, he]
          constructor
          · rintro ⟨m1, hm1, -⟩
            rw [(error.inj (Prod.mk.inj (ok.inj hm1)).1)]
          · intro hs
            rw [hs]
            exact ⟨m', rfl, hsame⟩
        · rw [heq, hok]
          constructor
          · rintro ⟨m1, hm1, -⟩
            cases hm1
          · intro hs
            cases hs
  | error =>
    rw [hc] at h
    rcases processError_cases msg.body m with heq | ⟨hs, -⟩
    · rw [heq]
      exact ⟨fun _ => trivial, fun _ => ⟨m, rfl, SameKeys.refl m⟩⟩
    · exact absurd hs h
  | unknown =>
    exact ⟨fun _ => trivial, fun _ => ⟨m, rfl, SameKeys.refl m⟩⟩

end CurveClient

namespace Handshake

variable {h h' : Handshake}

/-- What has succeeded when the client is in a state; after an ERROR it may be anything. -/
def logOf : CurveClientState → Option (List HandshakeEvent)
  | .sendHello => some []
  | .expectWelcome => some [.hello]
  | .sendInitiate => some [.hello, .welcome]
  | .expectReady => some [.hello, .welcome, .initiate]
  | .connected => some [.hello, .welcome, .initiate, .ready]
  | .errorReceived => none

/-- The record goes with the state. -/
def InOrder (h : Handshake) : Prop := ∀ log, logOf h.client.state = some log → h.log = log

/-- The commands of the peer are harmless where they are processed. -/
def Harmless (o : MechanismOptions) (k : CurveCrypto) (h : Handshake) : HandshakeAct → Prop
  | .next => True
  | .process msg => h.client.Harmless o k msg

lemma InOrder.same (hord : h.InOrder) {client : CurveClient} (hstate : client.state = h.client.state) :
    InOrder { h with client } := by
  intro log hlog
  rw [hstate] at hlog
  exact hord log hlog

lemma InOrder.advance (hord : h.InOrder) {s : CurveClientState} {log : List HandshakeEvent}
    {e : HandshakeEvent} (hstate : h.client.state = s) (hs : logOf s = some log) {client : CurveClient}
    (hnext : logOf client.state = some (log ++ [e])) : InOrder { client, log := h.log ++ [e] } := by
  intro log' hlog'
  rw [hnext, some_inj] at hlog'
  rw [← hlog', hord log (by rw [hstate, hs])]

lemma expectReady_of_next (hs : h.client.state = .sendInitiate) (hstep : h.step o k .next = .ok h') :
    h'.client.state = .expectReady ∧ h'.log = h.log ++ [.initiate] := by
  simp only [step, CurveClient.nextHandshakeCommand, hs] at hstep
  cases hp : CurveClient.produceInitiate o k h.client with
  | error f =>
    rw [hp] at hstep
    cases hstep
  | ok r =>
    rw [hp] at hstep
    rw [← ok.inj hstep, CurveClient.sentEvent, hs]
    exact ⟨rfl, rfl⟩

lemma InOrder.next (hord : h.InOrder) (hstep : h.step o k .next = .ok h') : h'.InOrder := by
  cases hs : h.client.state with
  | sendInitiate =>
    obtain ⟨hstate, hlog⟩ := expectReady_of_next hs hstep
    intro log hlog'
    rw [hstate] at hlog'
    rw [hlog, hord [.hello, .welcome] (by rw [hs]; rfl)]
    exact some_inj.mp hlog'
  | sendHello =>
    simp only [step, CurveClient.nextHandshakeCommand, hs] at hstep
    rw [← ok.inj hstep, CurveClient.sentEvent, if_pos hs]
    exact hord.advance hs rfl rfl
  | expectWelcome | expectReady | errorReceived | connected =>
    simp only [step, CurveClient.nextHandshakeCommand, hs] at hstep
    rw [← ok.inj hstep]
    exact hord.same rfl

lemma InOrder.process (hord : h.InOrder) {msg : Msg} (hharmless : h.client.Harmless o k msg)
    (hstep : h.step o k (.process msg) = .ok h') : h'.InOrder := by
  simp only [step] at hstep
  by_cases hexpects : h.client.Expects msg
  · unfold CurveClient.Expects at hexpects
    unfold CurveClient.processHandshakeCommand CurveClient.processedEvent at hstep
    cases hc : CurveClient.command msg.body with
    | welcome =>
      simp only [hc] at hstep hexpects
      rcases CurveClient.processWelcome_cases (k := k) msg.body h.client with ⟨-, heq⟩ | ⟨text, -, -, heq⟩
      · rw [heq] at hstep
        rw [← ok.inj hstep]
        exact hord.same rfl
      · rw [heq] at hstep
        rw [← ok.inj hstep]
        exact hord.advance hexpects rfl rfl
    | ready =>
      simp only [hc] at hstep hexpects
      rcases CurveClient.processReady_cases (o := o) (k := k) msg.body h.client with
        ⟨-, heq⟩ | ⟨-, -, heq⟩ | ⟨-, -, hrest⟩
      · rw [heq] at hstep
        rw [← ok.inj hstep]
        exact hord.same rfl
      · rw [heq] at hstep
        cases hstep
      · rcases hrest with ⟨-, m', heq, hsame⟩ | ⟨text, -, ⟨e, m', heq, -, hsame⟩ | ⟨m', heq, -, hconnected⟩⟩
        · rw [heq] at hstep
          rw [← ok.inj hstep]
          exact hord.same hsame.state
        · rw [heq] at hstep
          rw [← ok.inj hstep]
          exact hord.same hsame.state
        · rw [heq] at hstep
          rw [← ok.inj hstep]
          exact hord.advance hexpects rfl (by rw [hconnected]; rfl)
    | error =>
      simp only [hc] at hstep
      rcases CurveClient.processError_cases msg.body h.client with heq | ⟨-, heq⟩
      · rw [heq] at hstep
        rw [← ok.inj hstep]
        exact hord.same rfl
      · rw [heq] at hstep
        rw [← ok.inj hstep]
        exact fun log hlog => (by cases hlog)
    | unknown =>
      rw [hc] at hexpects
      exact hexpects.elim
  · obtain ⟨m', heq, hsame⟩ := (CurveClient.rejects_iff h.client msg hexpects).mpr hharmless
    rw [heq] at hstep
    rw [← ok.inj hstep]
    exact hord.same hsame.state

end Handshake

/-- **The order of the handshake.** A command that is not awaited is rejected with the keys and the
cookie as they were exactly if it is harmless, and a client all of whose commands are harmless is connected
only after it has sent HELLO, processed one WELCOME, sent INITIATE and processed one READY. -/
theorem curve_client_order (o : MechanismOptions) (k : CurveCrypto) :
    (∀ (m : CurveClient) (msg : Msg), ¬m.Expects msg → (m.Rejects o k msg ↔ m.Harmless o k msg)) ∧
    ∀ (publicKey secretKey cnPublic cnSecret serverKey cnServer cnCookie cnPrecom : List UInt8)
      (acts : List HandshakeAct) (h : Handshake),
      let h0 : Handshake := ⟨.new publicKey secretKey cnPublic cnSecret serverKey cnServer cnCookie cnPrecom, []⟩
      StepsMeet (Handshake.step o k) (Handshake.Harmless o k) h0 acts →
      runSteps (Handshake.step o k) h0 acts = .ok h →
      h.client.status = .ready → h.log = [.hello, .welcome, .initiate, .ready] := by
  refine ⟨fun m msg => CurveClient.rejects_iff m msg, ?_⟩
  intro publicKey secretKey cnPublic cnSecret serverKey cnServer cnCookie cnPrecom acts h h0 hgood hrun hready
  have hord : h.InOrder := by
    refine runSteps_preserves (I := Handshake.InOrder) ?_ ?_ hgood hrun
    · intro h1 act h2 hord hharmless hstep
      cases act with
      | next => exact hord.next hstep
      | process msg => exact hord.process hharmless hstep
    · exact fun log hlog => some_inj.mp hlog
  refine hord _ ?_
  have hstate : h.client.state = .connected := by
    unfold CurveClient.status at hready
    split at hready
    next hs => exact hs
    next => cases hready
    next => cases hready
  rw [hstate]
  rfl

end Order

/-! ### Examples -/

/-- Boxes that carry the text in the clear behind their sixteen bytes; a peer that has the keys opens and
seals them as it does the real ones. -/
def clearBoxes : CurveCrypto where
  boxOpen box _ _ _ := some (box.drop 16)
  box text _ _ _ := List.replicate 16 0 ++ text
  beforenm _ _ := []
  openAfternm box _ _ := some (box.drop 16)
  boxAfternm text _ _ := List.replicate 16 0 ++ text
  secretboxOpen box _ _ := some (box.drop 16)
  secretbox text _ _ := List.replicate 16 0 ++ text
  random _ := List.replicate 16 0
  sizeofString := 32

/-- Options of a PAIR socket. -/
def pairOptions : MechanismOptions := ⟨.pair, [], identity_nil_le, false, [], []⟩

/-- A WELCOME. -/
def someWelcome : Msg := handshakeCommand ([7] ++ ascii "WELCOME" ++ List.replicate 160 0)

/-- A READY without metadata. -/
def someReady : Msg := handshakeCommand ([5] ++ ascii "READY" ++ List.replicate 24 0)

/-- A client before the handshake. -/
def someHandshake : Handshake := ⟨.new [] [] [] [] [] [] [] [], []⟩

set_option maxRecDepth 4096 in
/-- A handshake in order connects the client. -/
theorem curve_client_order_four :
    ∃ h, runSteps (Handshake.step pairOptions clearBoxes) someHandshake
        [.next, .process someWelcome, .next, .process someReady] = .ok h ∧
      h.client.status = .ready ∧ h.log = [.hello, .welcome, .initiate, .ready] := by
  refine okAnd.exists_imp (P := fun h => h.client.status = .ready) (by decide +kernel) fun h hrun hready => ?_
  refine ⟨hready, (curve_client_order pairOptions clearBoxes).2 [] [] [] [] [] [] [] [] _ h ?_ hrun hready⟩
  have hwelcome : okAnd (runSteps (Handshake.step pairOptions clearBoxes) someHandshake [.next])
      fun h => h.client.state = .expectWelcome := by decide +kernel
  have hinitiate : okAnd (runSteps (Handshake.step pairOptions clearBoxes) someHandshake
      [.next, .process someWelcome]) fun h => h.client.state = .sendInitiate := by decide +kernel
  refine ⟨trivial, fun h1 (hs1 : Handshake.step _ _ someHandshake _ = _) => ?_⟩
  rw [runSteps_cons_ok hs1] at hwelcome hinitiate
  refine ⟨.inl hwelcome, fun h2 hs2 => ?_⟩
  rw [runSteps_cons_ok hs2] at hinitiate
  exact ⟨trivial, fun h3 hs3 => ⟨.inl (Handshake.expectReady_of_next hinitiate hs3).1, fun _ _ => trivial⟩⟩

/-- A READY that comes before INITIATE was sent connects the client, and so does one after a second
WELCOME; commands that are not awaited are accepted. -/
theorem curve_client_skips_initiate :
    (∃ h, runSteps (Handshake.step pairOptions clearBoxes) someHandshake
        [.next, .process someWelcome, .process someReady] = .ok h ∧
      h.client.status = .ready ∧ h.log = [.hello, .welcome, .ready]) ∧
    (∃ h, runSteps (Handshake.step pairOptions clearBoxes) someHandshake
        [.next, .process someWelcome, .process someWelcome, .next, .process someReady] = .ok h ∧
      h.client.status = .ready ∧ h.log = [.hello, .welcome, .welcome, .initiate, .ready]) ∧
    ¬(someHandshake.client.Expects someWelcome) ∧
    ¬(someHandshake.client.Rejects pairOptions clearBoxes someWelcome) := by
  refine ⟨okAnd.exists (by decide +kernel), okAnd.exists (by decide +kernel), fun h => ?_, ?_⟩
  · exact absurd (show CurveClientState.sendHello = .expectWelcome from h) (by decide)
  rintro ⟨m', hm', -⟩
  have hok : (someHandshake.client.processHandshakeCommand pairOptions clearBoxes someWelcome).toOption.map
      (fun r => r.1.toOption) = some (some ()) := by decide +kernel
  rw [hm'] at hok
  cases hok

end Zmq
