import ZeroMQ.Codec.Zmtp
import ZeroMQ.Engine.Authentication
import ZeroMQ.Engine.CurveServer

/-!
# A mechanism is ready only if the peer was let in

For each of the mechanisms that ask the ZAP handler there is an invariant that relates its fields to
what has been asked and answered. A mechanism asks once; if it asked somebody, then it is ready only
after a reply that has passed all checks and has the status code of success.
-/

namespace Zmq

open Foundation List

/-! ### Replies -/

/-- A reply that has passed all checks. -/
structure ZapReplyChecked (o : MechanismOptions) (reply : List Msg) : Prop where
  more : reply.map Msg.more = [true, true, true, true, true, true, false]
  delimiter : replyField reply 0 = []
  version : replyField reply 1 = ascii "1.0"
  requestId : replyField reply 2 = ascii "1"
  statusLength : (replyField reply 3).length = 3
  metadata : ∃ b, (parseMetadata o true (replyField reply 6) b).1 = .ok ()

/-- The handler could not be connected, or its one reply has let the peer in. -/
def Zap.Admits (o : MechanismOptions) (z : Zap) : Prop :=
  (z.connects = [false] ∧ z.verified = []) ∨
  (z.connects = [true] ∧ ∃ reply, z.verified = [reply] ∧ ZapReplyChecked o reply ∧
    replyField reply 3 = acceptedCode)

lemma Zap.readFrames_frame {n : ℕ} {z z' : Zap} {r : Except Errno (List Msg)}
    (h : z.readFrames n = (r, z')) : z'.connects = z.connects ∧ z'.verified = z.verified := by
  induction n generalizing z r with
  | zero =>
    cases h
    exact ⟨rfl, rfl⟩
  | succ n ih =>
    have hread : ∀ {m : Except Errno Msg} {z1 : Zap}, z.readZapMsg = (m, z1) →
        z1.connects = z.connects ∧ z1.verified = z.verified := by
      intro m z1 h
      unfold Zap.readZapMsg at h
      split at h <;> cases h <;> exact ⟨rfl, rfl⟩
    simp only [Zap.readFrames] at h
    split at h
    next z1 hmsg =>
      cases h
      exact hread hmsg
    next m z1 hmsg =>
      split at h
      · cases h
        exact hread hmsg
      have hrest : z'.connects = z1.connects ∧ z'.verified = z1.verified := by
        split at h
        next hrest =>
          cases h
          exact ih hrest
        next hrest =>
          cases h
          exact ih hrest
      exact ⟨hrest.1.trans (hread hmsg).1, hrest.2.trans (hread hmsg).2⟩

lemma Zap.readFrames_more {n : ℕ} {z z' : Zap} {ms : List Msg} (h : z.readFrames n = (.ok ms, z')) :
    ms.map Msg.more = (range n).reverse.map fun i => decide (i ≠ 0) := by
  induction n generalizing z ms with
  | zero =>
    cases h
    rfl
  | succ n ih =>
    simp only [Zap.readFrames] at h
    split at h
    · cases h
    next m z1 hmsg =>
      split at h
      · cases h
      next hmore =>
        split at h
        · cases h
        next ms' z2 hrest =>
          cases h
          rw [map_cons, ih hrest, range_succ, reverse_append, reverse_singleton,
            singleton_append, map_cons]
          congr 1
          cases hm : m.more <;> simpa [hm] using hmore

lemma parseMetadata_ne_eagain (o : MechanismOptions) (zapFlag : Bool) (data : List UInt8)
    (b : MechanismBase) : (parseMetadata o zapFlag data b).1 ≠ .error .eagain := by
  have hrest : ∀ rest b, (metadataRest rest b).1 ≠ .error .eagain := by
    intro rest b
    unfold metadataRest
    split <;> simp
  fun_induction parseMetadata o zapFlag data b with
  | case1 => simp
  | case2 => simp
  | case3 => exact hrest _ _
  | case4 => exact hrest _ _
  | case5 => exact hrest _ _
  | case6 _ _ _ _ _ _ _ _ _ _ _ _ _ htake =>
    unfold takeProperty at htake
    split_ifs at htake <;> cases htake <;> simp
  | case7 _ _ _ _ _ _ _ _ _ _ _ _ _ ih => exact ih

variable {o : MechanismOptions} {badCode : Errno} {code code' : List UInt8} {b b' : MechanismBase}
  {z z' : Zap}

lemma receiveAndProcessZapReply_ok
    (h : receiveAndProcessZapReply badCode o code b z = (.ok (), code', b', z')) :
    ∃ reply, ZapReplyChecked o reply ∧ code' = replyField reply 3 ∧ z'.connects = z.connects ∧
      z'.verified = z.verified ++ [reply] := by
  unfold receiveAndProcessZapReply at h
  split at h
  · cases h
  next reply z1 hread =>
    split at h
    · cases h
    next hcheck =>
      split at h
      · cases h
      next b1 hparse =>
        obtain ⟨hconnects, hverified⟩ := Zap.readFrames_frame hread
        cases h
        refine ⟨reply, ?_, rfl, hconnects, by rw [hverified]⟩
        unfold checkReply at hcheck
        split_ifs at hcheck with h0 h1 h2 h3
        exact ⟨Zap.readFrames_more hread, not_not.1 h0, not_not.1 h1, not_not.1 h2, not_not.1 h3, _,
          congrArg Prod.fst hparse⟩

lemma receiveAndProcessZapReply_error {e : Errno}
    (h : receiveAndProcessZapReply badCode o code b z = (.error e, code', b', z')) :
    z'.connects = z.connects ∧ z'.verified = z.verified := by
  unfold receiveAndProcessZapReply at h
  split at h
  next hread =>
    cases h
    exact Zap.readFrames_frame hread
  next reply z1 hread =>
    have hframe := Zap.readFrames_frame hread
    split at h
    · cases h
      exact hframe
    split at h
    · cases h
      exact hframe
    · cases h

lemma receiveAndProcessZapReply_closed (hpipe : z.pipe = none) :
    receiveAndProcessZapReply badCode o code b z = (.error .enotconn, code, b, z) := by
  simp only [receiveAndProcessZapReply, Zap.readFrames, Zap.readZapMsg, hpipe]

lemma sendZapRequest_ok {mechanism : List (List UInt8)} (h : sendZapRequest o mechanism z = .ok z') :
    z'.connects = z.connects ∧ z'.verified = z.verified ∧ z'.pipe = z.pipe := by
  unfold sendZapRequest Zap.writeZapMsgs at h
  split at h
  · cases h
  · cases h
    exact ⟨rfl, rfl, rfl⟩

lemma Zap.zapConnect_ok {connected : Bool} (h : z.zapConnect = .ok (connected, z')) :
    z'.connects = z.connects ++ [connected] ∧ z'.verified = z.verified ∧
      (connected = false → z'.pipe = none) := by
  unfold Zap.zapConnect at h
  split at h
  · cases h
  next hpipe _ =>
    cases h
    exact ⟨rfl, rfl, fun _ => hpipe⟩
  · cases h
    exact ⟨rfl, rfl, fun hf => by cases hf⟩

/-! ### NULL -/

namespace NullMechanism

variable {m m' : NullMechanism}

/-- What the fields of the mechanism say about the ZAP handler. -/
structure Asked (o : MechanismOptions) (m : NullMechanism) (z : Zap) : Prop where
  connects : z.connects = if o.zapDomain = [] then [] else [m.zapConnected]
  domain : o.zapDomain = [] → m.zapConnected = false
  silent : m.zapConnected = false → z.pipe = none ∧ m.zapReplyReceived = false
  waiting : m.zapReplyReceived = false → z.verified = []
  unsent : m.zapConnected = true → m.zapReplyReceived = false → m.readyCommandSent = false
  replied : m.zapReplyReceived = true →
    ∃ reply, z.verified = [reply] ∧ ZapReplyChecked o reply ∧ m.statusCode = replyField reply 3
  accepted : m.zapReplyReceived = true → m.readyCommandSent = true → m.statusCode = acceptedCode

/-- When NULL lets a peer in: without a domain it does not ask. -/
def Admits (o : MechanismOptions) (z : Zap) : Prop :=
  (o.zapDomain = [] ∧ z.connects = [] ∧ z.verified = []) ∨ z.Admits o

lemma readyCommandSent_of_ready (h : m.status = .ready) :
    m.readyCommandSent = true ∧ m.readyCommandReceived = true := by
  unfold status at h
  split_ifs at h with hboth
  exact hboth

lemma Asked.admits (h : Asked o m z) (hready : m.status = .ready) : Admits o z := by
  obtain ⟨hsent, -⟩ := readyCommandSent_of_ready hready
  by_cases hdomain : o.zapDomain = []
  · have hreply := (h.silent (h.domain hdomain)).2
    exact .inl ⟨hdomain, by rw [h.connects, if_pos hdomain], h.waiting hreply⟩
  refine .inr ?_
  have hconnects := h.connects
  rw [if_neg hdomain] at hconnects
  cases hconn : m.zapConnected with
  | false =>
    rw [hconn] at hconnects
    exact .inl ⟨hconnects, h.waiting (h.silent hconn).2⟩
  | true =>
    rw [hconn] at hconnects
    cases hreply : m.zapReplyReceived with
    | false =>
      have hunsent := h.unsent hconn hreply
      rw [hsent] at hunsent
      cases hunsent
    | true =>
      obtain ⟨reply, hverified, hchecked, hcode⟩ := h.replied hreply
      exact .inr ⟨hconnects, reply, hverified, hchecked, hcode.symm.trans (h.accepted hreply hsent)⟩

lemma Asked.produceCommand (h : Asked o m z) (hasked : m.zapConnected = true → m.zapReplyReceived = true)
    {r : Except Errno Msg} (hrun : produceCommand o m z = .ok (r, m', z')) : Asked o m' z' := by
  unfold NullMechanism.produceCommand at hrun
  split at hrun
  · cases hrun
    exact { h with }
  next hcode =>
    split at hrun
    · cases hrun
    cases hrun
    refine ⟨h.connects, h.domain, h.silent, h.waiting, fun hconn hreply => ?_, h.replied,
      fun hreply _ => ?_⟩
    · rw [hasked hconn] at hreply
      cases hreply
    · by_contra hne
      exact hcode ⟨hreply, hne⟩

lemma Asked.receive (h : Asked o m z) (hconn : m.zapConnected = true) (hreply : m.zapReplyReceived = false)
    {rc : Except Errno Unit} (hrun : m.receiveAndProcessZapReply o z = (rc, m', z')) :
    (rc = .ok () → Asked o { m' with zapReplyReceived := true } z') ∧ (rc ≠ .ok () → Asked o m' z') ∧
      m'.zapConnected = m.zapConnected ∧ m'.zapReplyReceived = m.zapReplyReceived ∧
      m'.readyCommandSent = m.readyCommandSent ∧ m'.readyCommandReceived = m.readyCommandReceived := by
  unfold NullMechanism.receiveAndProcessZapReply at hrun
  split at hrun
  next rc' code' b' z1 hreceive =>
    cases hrun
    have hunsent := h.unsent hconn hreply
    refine ⟨?_, ?_, rfl, rfl, rfl, rfl⟩
    · rintro rfl
      obtain ⟨reply, hchecked, hcode, hconnects, hverified⟩ := receiveAndProcessZapReply_ok hreceive
      rw [h.waiting hreply] at hverified
      refine ⟨hconnects.trans h.connects, h.domain, fun hc => ?_, fun hr => (by cases hr),
        fun _ hr => (by cases hr), fun _ => ⟨reply, hverified, hchecked, hcode⟩, fun _ hs => ?_⟩
      · rw [hconn] at hc
        cases hc
      · rw [hunsent] at hs
        cases hs
    · intro hne
      cases rc with
      | ok => exact absurd rfl hne
      | error e =>
        obtain ⟨hconnects, hverified⟩ := receiveAndProcessZapReply_error hreceive
        refine ⟨hconnects.trans h.connects, h.domain, fun hc => ?_, fun hr => hverified.trans (h.waiting hr),
          h.unsent, fun hr => ?_, fun hr => ?_⟩
        · rw [hconn] at hc
          cases hc
        · rw [hreply] at hr
          cases hr
        · rw [hreply] at hr
          cases hr

lemma Asked.nextHandshakeCommand (h : Asked o m z) {r : Except Errno Msg}
    (hrun : nextHandshakeCommand o m z = .ok (r, m', z')) :
    Asked o m' z' ∧ (m.status = .ready → m'.status = .ready) := by
  unfold NullMechanism.nextHandshakeCommand at hrun
  split at hrun
  · cases hrun
    exact ⟨h, id⟩
  next hunsent =>
    have hnot : m.status ≠ .ready := fun hready =>
      hunsent (.inl (readyCommandSent_of_ready hready).1)
    refine ⟨?_, fun hready => absurd hready hnot⟩
    split at hrun
    next hask =>
      split at hrun
      · cases hrun
        exact h
      split at hrun
      · cases hrun
      next z1 hsend =>
        obtain ⟨hconnects, hverified, hpipe⟩ := sendZapRequest_ok hsend
        have h1 : Asked o { m with zapRequestSent := true } z1 := by
          refine ⟨hconnects.trans h.connects, h.domain, fun hc => ?_, fun hr => hverified.trans (h.waiting hr),
            h.unsent, fun hr => ?_, h.accepted⟩
          · exact ⟨hpipe.trans (h.silent hc).1, (h.silent hc).2⟩
          · obtain ⟨reply, hv, hrest⟩ := h.replied hr
            exact ⟨reply, hverified.trans hv, hrest⟩
        split at hrun
        next e m2 z2 hreceive =>
          cases hrun
          exact (h1.receive hask.1 hask.2 hreceive).2.1 (by simp)
        next m2 z2 hreceive =>
          have h2 := (h1.receive hask.1 hask.2 hreceive).1 rfl
          exact h2.produceCommand (fun _ => rfl) hrun
    next hask =>
      refine h.produceCommand (fun hconn => ?_) hrun
      by_contra hreply
      exact hask ⟨hconn, by simpa using hreply⟩

lemma Asked.processHandshakeCommand (h : Asked o m z) {msg : Msg} {r : Except Errno Unit}
    (hrun : processHandshakeCommand o msg m z = .ok (r, m', z')) :
    Asked o m' z' ∧ z' = z ∧ r ≠ .error .eagain ∧ (r = .ok () → m.status ≠ .ready) := by
  unfold NullMechanism.processHandshakeCommand at hrun
  split at hrun
  · cases hrun
    exact ⟨h, rfl, by simp, fun hr => by cases hr⟩
  next hreceived =>
    have hnot : m.status ≠ .ready := fun hready =>
      hreceived (.inl (readyCommandSent_of_ready hready).2)
    split at hrun
    · unfold processReadyCommand at hrun
      have hne := parseMetadata_ne_eagain o false (msg.body.drop 6) m.base
      cases hrun
      exact ⟨{ h with }, rfl, hne,
        fun _ => hnot⟩
    split at hrun
    · have herror : ∀ {r m'}, processErrorCommand msg.body m = (r, m') →
          Asked o m' z ∧ r ≠ .error .eagain := by
        intro r m' hrun
        unfold processErrorCommand at hrun
        split at hrun
        · cases hrun
          exact ⟨h, by simp⟩
        split at hrun
        · cases hrun
          exact ⟨h, by simp⟩
        · cases hrun
          exact ⟨{ h with }, by simp⟩
      obtain ⟨hasked, hne⟩ := herror rfl
      cases hrun
      exact ⟨hasked, rfl, hne, fun _ => hnot⟩
    · cases hrun
      exact ⟨h, rfl, by simp, fun hr => by cases hr⟩

lemma Asked.zapMsgAvailable (h : Asked o m z) {r : Except Errno Unit}
    (hrun : zapMsgAvailable o m z = .ok (r, m', z')) :
    Asked o m' z' ∧ m'.readyCommandSent = m.readyCommandSent ∧
      m'.readyCommandReceived = m.readyCommandReceived := by
  unfold NullMechanism.zapMsgAvailable at hrun
  split at hrun
  · cases hrun
    exact ⟨h, rfl, rfl⟩
  next hreply =>
    have hreply' : m.zapReplyReceived = false := by simpa using hreply
    cases hconn : m.zapConnected with
    | false =>
      simp only [NullMechanism.receiveAndProcessZapReply,
        receiveAndProcessZapReply_closed (h.silent hconn).1] at hrun
      cases hrun
      exact ⟨h, rfl, rfl⟩
    | true =>
      split at hrun
      next e m1 z1 hreceive =>
        obtain ⟨-, herror, -, -, hsent, hreceived⟩ := h.receive hconn hreply' hreceive
        cases hrun
        exact ⟨herror (by simp), hsent, hreceived⟩
      next m1 z1 hreceive =>
        obtain ⟨hok, -, -, -, hsent, hreceived⟩ := h.receive hconn hreply' hreceive
        cases hrun
        exact ⟨hok rfl, hsent, hreceived⟩

lemma status_ready_congr (hsent : m'.readyCommandSent = m.readyCommandSent)
    (hreceived : m'.readyCommandReceived = m.readyCommandReceived) (h : m.status = .ready) :
    m'.status = .ready := by
  obtain ⟨hs, hr⟩ := readyCommandSent_of_ready h
  rw [status, if_pos ⟨hsent.trans hs, hreceived.trans hr⟩]

/-- **NULL.** -/
theorem ops_keeps (o : MechanismOptions) : (ops o).Keeps (Asked o) (Admits o) where
  next h hrun := h.nextHandshakeCommand hrun
  process h hrun := by
    obtain ⟨hasked, -, -, hnot⟩ := h.processHandshakeCommand hrun
    exact ⟨hasked, fun hready => absurd hready (hnot rfl)⟩
  processError h hrun := by
    obtain ⟨-, hz, hne, -⟩ := h.processHandshakeCommand hrun
    rw [hz]
    exact ⟨fun he => hne (by rw [he]), h.admits⟩
  zapMsg h hrun := by
    obtain ⟨hasked, hsent, hreceived⟩ := h.zapMsgAvailable hrun
    exact ⟨hasked, status_ready_congr hsent hreceived⟩
  zapMsgError h hrun hready := by
    obtain ⟨hasked, hsent, hreceived⟩ := h.zapMsgAvailable hrun
    exact hasked.admits (status_ready_congr hsent hreceived hready)
  encode h hrun := by
    cases hrun
    exact ⟨h, id⟩
  decode h hrun := by
    cases hrun
    exact ⟨h, id⟩
  pipe h pipe hpipe := ⟨h.connects, h.domain, fun hc => ⟨hpipe (h.silent hc).1, (h.silent hc).2⟩,
    h.waiting, h.unsent, h.replied, h.accepted⟩
  handler h _ := { h with }
  ready h hready := h.admits hready
  stable h _ _ := h

end NullMechanism

/-! ### The servers -/

/-- Nobody has been asked. -/
def Zap.Unasked (z : Zap) : Prop := z.connects = [] ∧ z.verified = []

/-- The handler has been asked and has not answered. -/
def Zap.Pending (z : Zap) : Prop := z.connects = [true] ∧ z.verified = []

lemma Zap.Unasked.refused (h : z.Unasked) (hconnect : z.zapConnect = .ok (false, z')) : z'.Admits o := by
  obtain ⟨hconnects, hverified, -⟩ := Zap.zapConnect_ok hconnect
  rw [h.1] at hconnects
  exact .inl ⟨hconnects, hverified.trans h.2⟩

lemma Zap.Unasked.request (h : z.Unasked) {z1 : Zap} (hconnect : z.zapConnect = .ok (true, z1))
    {mechanism : List (List UInt8)} (hsend : sendZapRequest o mechanism z1 = .ok z') : z'.Pending := by
  obtain ⟨hconnects, hverified, -⟩ := Zap.zapConnect_ok hconnect
  obtain ⟨hconnects', hverified', -⟩ := sendZapRequest_ok hsend
  rw [h.1] at hconnects
  exact ⟨hconnects'.trans hconnects, hverified'.trans (hverified.trans h.2)⟩

lemma Zap.Pending.reply (h : z.Pending)
    (hreceive : receiveAndProcessZapReply badCode o code b z = (.ok (), code', b', z'))
    (hcode : code' = acceptedCode) : z'.Admits o := by
  obtain ⟨reply, hchecked, hcode', hconnects, hverified⟩ := receiveAndProcessZapReply_ok hreceive
  rw [h.2] at hverified
  exact .inr ⟨hconnects.trans h.1, reply, hverified, hchecked, hcode'.symm.trans hcode⟩

lemma Zap.Pending.error (h : z.Pending) {e : Errno}
    (hreceive : receiveAndProcessZapReply badCode o code b z = (.error e, code', b', z')) : z'.Pending := by
  obtain ⟨hconnects, hverified⟩ := receiveAndProcessZapReply_error hreceive
  exact ⟨hconnects.trans h.1, hverified.trans h.2⟩

namespace PlainServer

variable {m m' : PlainServer}

/-- What the state of the mechanism says about the ZAP handler. -/
structure Asked (o : MechanismOptions) (m : PlainServer) (z : Zap) : Prop where
  before : m.state = .waitingForHello → z.Unasked
  waiting : m.state = .waitingForZapReply → z.Pending
  passed : m.state ∈ [.sendingWelcome, .waitingForInitiate, .sendingReady, .ready] → z.Admits o

lemma ready_iff : m.status = .ready ↔ m.state = .ready := by
  unfold status
  cases m.state <;> simp

lemma asked_of_admits (h : z.Admits o) (hbefore : m.state ≠ .waitingForHello)
    (hwaiting : m.state ≠ .waitingForZapReply) : Asked o m z :=
  ⟨fun hs => absurd hs hbefore, fun hs => absurd hs hwaiting, fun _ => h⟩

lemma asked_afterReply (hz : z.Pending)
    (hreceive : m.receiveAndProcessZapReply o z = (.ok (), m', z')) : Asked o m'.afterReply z' := by
  unfold PlainServer.receiveAndProcessZapReply at hreceive
  split at hreceive
  next rc code' b' z1 hzap =>
    cases hreceive
    by_cases hcode : code' = acceptedCode
    · exact asked_of_admits (hz.reply hzap hcode) (by simp [afterReply, hcode]) (by simp [afterReply, hcode])
    · exact ⟨by simp [afterReply, hcode], by simp [afterReply, hcode], by simp [afterReply, hcode]⟩

lemma pending_of_error (hz : z.Pending) {e : Errno}
    (hreceive : m.receiveAndProcessZapReply o z = (.error e, m', z')) : z'.Pending := by
  unfold PlainServer.receiveAndProcessZapReply at hreceive
  split at hreceive
  next rc code' b' z1 hzap =>
    cases hreceive
    exact hz.error hzap

lemma Asked.nextHandshakeCommand (h : Asked o m z) {r : Except Errno Msg}
    (hrun : nextHandshakeCommand o m z = .ok (r, m', z')) :
    Asked o m' z' ∧ (m.status = .ready → m'.status = .ready) := by
  unfold PlainServer.nextHandshakeCommand at hrun
  split at hrun
  next hs =>
    cases hrun
    refine ⟨asked_of_admits (h.passed (by simp [hs])) (by simp) (by simp), fun hready => ?_⟩
    rw [ready_iff, hs] at hready
    cases hready
  next hs =>
    split at hrun
    · cases hrun
    · cases hrun
      exact ⟨asked_of_admits (h.passed (by simp [hs])) (by simp) (by simp), fun _ => rfl⟩
  next hs =>
    split at hrun
    · cases hrun
    cases hrun
    refine ⟨⟨by simp, by simp, by simp⟩, fun hready => ?_⟩
    rw [ready_iff, hs] at hready
    cases hready
  · cases hrun
    exact ⟨h, id⟩

lemma Asked.processHello (h : Asked o m z) (hs : m.state = .waitingForHello) {msg : Msg}
    {r : Except Errno Unit} (hrun : processHello o msg m z = .ok (r, m', z')) :
    (r = .ok () → Asked o m' z') ∧ r ≠ .error .eagain := by
  have hz := h.before hs
  unfold PlainServer.processHello at hrun
  split at hrun
  · cases hrun
    exact ⟨fun hr => (by cases hr), by simp⟩
  split at hrun
  · cases hrun
  next z1 hconnect =>
    cases hrun
    exact ⟨fun _ => asked_of_admits (hz.refused hconnect) (by simp) (by simp), by simp⟩
  next z1 hconnect =>
    split at hrun
    · cases hrun
    next z2 hsend =>
      have hpending := hz.request hconnect hsend
      split at hrun
      next m3 z3 hreceive =>
        cases hrun
        exact ⟨fun _ => asked_afterReply hpending hreceive, by simp⟩
      next m3 z3 hreceive =>
        cases hrun
        have hstill := pending_of_error hpending hreceive
        exact ⟨fun _ => ⟨by simp, fun _ => hstill, by simp⟩, by simp⟩
      next e m3 z3 hne hreceive =>
        cases hrun
        exact ⟨fun hr => (by cases hr), fun hr => hne (Except.error.inj hr)⟩

lemma Asked.processHandshakeCommand (h : Asked o m z) {msg : Msg} {r : Except Errno Unit}
    (hrun : processHandshakeCommand o msg m z = .ok (r, m', z')) :
    (r = .ok () → Asked o m' z') ∧ r ≠ .error .eagain ∧
      (m.status = .ready → r ≠ .ok () ∧ z' = z) := by
  unfold PlainServer.processHandshakeCommand at hrun
  split at hrun
  next hs =>
    obtain ⟨hok, hne⟩ := h.processHello hs hrun
    refine ⟨hok, hne, fun hready => ?_⟩
    rw [ready_iff, hs] at hready
    cases hready
  next hs =>
    have hready : m.status ≠ .ready := by simp [ready_iff, hs]
    have hne := parseMetadata_ne_eagain o false (msg.body.drop 9) m.base
    unfold processInitiate at hrun
    split at hrun
    · cases hrun
      exact ⟨fun hr => (by cases hr), by simp, fun hr => absurd hr hready⟩
    split at hrun
    next hparse =>
      cases hrun
      rw [hparse] at hne
      exact ⟨fun hr => (by cases hr), fun hr => hne hr, fun hr => absurd hr hready⟩
    next hparse =>
      cases hrun
      exact ⟨fun _ => asked_of_admits (h.passed (by simp [hs])) (by simp) (by simp), by simp,
        fun hr => absurd hr hready⟩
  · cases hrun
    exact ⟨fun hr => (by cases hr), by simp, fun _ => ⟨by simp, rfl⟩⟩

lemma Asked.zapMsgAvailable (h : Asked o m z) {r : Except Errno Unit}
    (hrun : zapMsgAvailable o m z = .ok (r, m', z')) :
    (r = .ok () → Asked o m' z') ∧ (m.status = .ready → r ≠ .ok () ∧ z' = z) := by
  unfold PlainServer.zapMsgAvailable at hrun
  split at hrun
  · cases hrun
    exact ⟨fun hr => (by cases hr), fun _ => ⟨by simp, rfl⟩⟩
  next hs =>
    have hs' : m.state = .waitingForZapReply := not_not.1 hs
    have hready : m.status ≠ .ready := by simp [ready_iff, hs']
    refine ⟨fun hr => ?_, fun hr => absurd hr hready⟩
    split at hrun
    · cases hrun
      cases hr
    next m1 z1 hreceive =>
      cases hrun
      exact asked_afterReply (h.waiting hs') hreceive

/-- **PLAIN.** -/
theorem ops_keeps (o : MechanismOptions) : (ops o).Keeps (Asked o) (Zap.Admits o) where
  next h hrun := h.nextHandshakeCommand hrun
  process h hrun := by
    obtain ⟨hok, -, hnot⟩ := h.processHandshakeCommand hrun
    exact ⟨hok rfl, fun hready => absurd rfl (hnot hready).1⟩
  processError h hrun := by
    obtain ⟨-, hne, hsame⟩ := h.processHandshakeCommand hrun
    refine ⟨fun he => hne (by rw [he]), fun hready => ?_⟩
    rw [(hsame hready).2]
    exact h.passed (by simp [ready_iff.1 hready])
  zapMsg h hrun := by
    obtain ⟨hok, hnot⟩ := h.zapMsgAvailable hrun
    exact ⟨hok rfl, fun hready => absurd rfl (hnot hready).1⟩
  zapMsgError h hrun hready := by
    rw [((h.zapMsgAvailable hrun).2 hready).2]
    exact h.passed (by simp [ready_iff.1 hready])
  encode h hrun := by
    cases hrun
    exact ⟨h, id⟩
  decode h hrun := by
    cases hrun
    exact ⟨h, id⟩
  pipe h _ _ := { h with }
  handler h _ := { h with }
  ready h hready := h.passed (by simp [ready_iff.1 hready])
  stable h _ _ := h

end PlainServer

namespace CurveServer

variable {k : CurveCrypto} {m m' : CurveServer}

/-- What the state of the mechanism says about the ZAP handler. -/
structure Asked (o : MechanismOptions) (m : CurveServer) (z : Zap) : Prop where
  before : m.state ∈ [.expectHello, .sendWelcome, .expectInitiate] → z.Unasked
  waiting : m.state = .expectZapReply → z.Pending
  passed : m.state ∈ [.sendReady, .connected] → z.Admits o

lemma ready_iff : m.status = .ready ↔ m.state = .connected := by
  unfold status
  cases m.state <;> simp

lemma asked_of_unasked (h : z.Unasked) (hwaiting : m.state ≠ .expectZapReply)
    (hpassed : m.state ∉ [.sendReady, .connected]) : Asked o m z :=
  ⟨fun _ => h, fun hs => absurd hs hwaiting, fun hs => absurd hs hpassed⟩

lemma asked_of_admits (h : z.Admits o) (hbefore : m.state ∉ [.expectHello, .sendWelcome, .expectInitiate])
    (hwaiting : m.state ≠ .expectZapReply) : Asked o m z :=
  ⟨fun hs => absurd hs hbefore, fun hs => absurd hs hwaiting, fun _ => h⟩

lemma asked_afterReply (hz : z.Pending)
    (hreceive : m.receiveAndProcessZapReply o z = (.ok (), m', z')) : Asked o m'.afterReply z' := by
  unfold CurveServer.receiveAndProcessZapReply at hreceive
  split at hreceive
  next rc code' b' z1 hzap =>
    cases hreceive
    by_cases hcode : code' = acceptedCode
    · exact asked_of_admits (hz.reply hzap hcode) (by simp [afterReply, hcode]) (by simp [afterReply, hcode])
    · exact ⟨by simp [afterReply, hcode], by simp [afterReply, hcode], by simp [afterReply, hcode]⟩

lemma pending_of_error (hz : z.Pending) {e : Errno}
    (hreceive : m.receiveAndProcessZapReply o z = (.error e, m', z')) : z'.Pending := by
  unfold CurveServer.receiveAndProcessZapReply at hreceive
  split at hreceive
  next rc code' b' z1 hzap =>
    cases hreceive
    exact hz.error hzap

lemma Asked.nextHandshakeCommand (h : Asked o m z) {r : Except Errno Msg}
    (hrun : nextHandshakeCommand o k m z = .ok (r, m', z')) :
    Asked o m' z' ∧ (m.status = .ready → m'.status = .ready) := by
  unfold CurveServer.nextHandshakeCommand at hrun
  split at hrun
  next hs =>
    cases hrun
    refine ⟨asked_of_unasked (h.before (by simp [hs])) (by simp) (by simp), fun hready => ?_⟩
    rw [ready_iff, hs] at hready
    cases hready
  next hs =>
    split at hrun
    · cases hrun
    · cases hrun
      exact ⟨asked_of_admits (h.passed (by simp [hs])) (by simp) (by simp), fun _ => rfl⟩
  next hs =>
    split at hrun
    · cases hrun
    cases hrun
    refine ⟨⟨by simp, by simp, by simp⟩, fun hready => ?_⟩
    rw [ready_iff, hs] at hready
    cases hready
  · cases hrun
    exact ⟨h, id⟩

variable {msg : Msg}

lemma Asked.processHello (h : Asked o m z) (hs : m.state = .expectHello)
    {r : Except Errno Unit} (hrun : processHello k msg m z = .ok (r, m', z')) :
    (r = .ok () → Asked o m' z') ∧ r ≠ .error .eagain := by
  have hz := h.before (by simp [hs])
  unfold CurveServer.processHello at hrun
  dsimp only at hrun
  split at hrun
  · cases hrun
    exact ⟨fun hr => (by cases hr), by simp⟩
  split at hrun
  · cases hrun
    exact ⟨fun hr => (by cases hr), by simp⟩
  split at hrun
  · cases hrun
    exact ⟨fun hr => (by cases hr), by simp⟩
  split at hrun
  · cases hrun
    exact ⟨fun hr => (by cases hr), by simp⟩
  · cases hrun
    exact ⟨fun _ => asked_of_unasked hz (by simp) (by simp), by simp⟩

lemma asked_authenticate (hz : z.Unasked) {clientKey : List UInt8} {r : Except Errno Unit}
    (hrun : authenticate o clientKey m z = .ok (r, m', z')) :
    (r = .ok () → Asked o m' z') ∧ r ≠ .error .eagain := by
  unfold authenticate at hrun
  split at hrun
  · cases hrun
  next z1 hconnect =>
    cases hrun
    exact ⟨fun _ => asked_of_admits (hz.refused hconnect) (by simp) (by simp), by simp⟩
  next z1 hconnect =>
    split at hrun
    · cases hrun
    next z2 hsend =>
      have hpending := hz.request hconnect hsend
      split at hrun
      next m3 z3 hreceive =>
        cases hrun
        exact ⟨fun _ => asked_afterReply hpending hreceive, by simp⟩
      next m3 z3 hreceive =>
        cases hrun
        have hstill := pending_of_error hpending hreceive
        exact ⟨fun _ => ⟨by simp, fun _ => hstill, by simp⟩, by simp⟩
      next e m3 z3 hne hreceive =>
        cases hrun
        exact ⟨fun hr => (by cases hr), fun hr => hne (Except.error.inj hr)⟩

lemma Asked.processInitiate (h : Asked o m z) (hs : m.state = .expectInitiate)
    {r : Except Errno Unit} (hrun : processInitiate o k msg m z = .ok (r, m', z')) :
    (r = .ok () → Asked o m' z') ∧ r ≠ .error .eagain := by
  have hz := h.before (by simp [hs])
  unfold CurveServer.processInitiate at hrun
  split at hrun
  · cases hrun
  · cases hrun
    exact ⟨fun hr => (by cases hr), by simp⟩
  next clientKey metadata m1 hopen =>
    split at hrun
    · cases hrun
    next e m2 z2 hauth =>
      cases hrun
      exact ⟨fun hr => (by cases hr), (asked_authenticate hz hauth).2⟩
    next m2 z2 hauth =>
      have hasked := (asked_authenticate hz hauth).1 rfl
      have hne := parseMetadata_ne_eagain o false metadata m2.base
      cases hrun
      exact ⟨fun _ => { hasked with }, hne⟩

lemma Asked.processHandshakeCommand (h : Asked o m z) {r : Except Errno Unit}
    (hrun : processHandshakeCommand o k msg m z = .ok (r, m', z')) :
    (r = .ok () → Asked o m' z') ∧ r ≠ .error .eagain ∧
      (m.status = .ready → r ≠ .ok () ∧ z' = z) := by
  unfold CurveServer.processHandshakeCommand at hrun
  split at hrun
  next hs =>
    have hready : m.status ≠ .ready := by simp [ready_iff, hs]
    obtain ⟨hok, hne⟩ := h.processHello hs hrun
    exact ⟨hok, hne, fun hr => absurd hr hready⟩
  next hs =>
    have hready : m.status ≠ .ready := by simp [ready_iff, hs]
    obtain ⟨hok, hne⟩ := h.processInitiate hs hrun
    exact ⟨hok, hne, fun hr => absurd hr hready⟩
  · cases hrun
    exact ⟨fun hr => (by cases hr), by simp, fun _ => ⟨by simp, rfl⟩⟩

lemma Asked.zapMsgAvailable (h : Asked o m z) {r : Except Errno Unit}
    (hrun : zapMsgAvailable o m z = .ok (r, m', z')) :
    (r = .ok () → Asked o m' z') ∧ (m.status = .ready → r ≠ .ok () ∧ z' = z) := by
  unfold CurveServer.zapMsgAvailable at hrun
  split at hrun
  · cases hrun
    exact ⟨fun hr => (by cases hr), fun _ => ⟨by simp, rfl⟩⟩
  next hs =>
    have hs' : m.state = .expectZapReply := not_not.1 hs
    have hready : m.status ≠ .ready := by simp [ready_iff, hs']
    refine ⟨fun hr => ?_, fun hr => absurd hr hready⟩
    split at hrun
    · cases hrun
      cases hr
    next m1 z1 hreceive =>
      cases hrun
      exact asked_afterReply (h.waiting hs') hreceive

lemma state_of_encode {r : Except Errno Msg} (hrun : encode k msg m = .ok (r, m')) :
    m'.state = m.state := by
  unfold encode at hrun
  split at hrun
  · cases hrun
  · cases hrun
    rfl

lemma state_of_decode {r : Except Errno Msg} (hrun : decode k msg m = .ok (r, m')) :
    m'.state = m.state := by
  unfold decode at hrun
  dsimp only at hrun
  split at hrun
  · cases hrun
  split at hrun
  · cases hrun
    rfl
  split at hrun
  · cases hrun
    rfl
  split at hrun
  · cases hrun
    rfl
  split at hrun <;> cases hrun <;> rfl

lemma Asked.congr (h : Asked o m z) (hstate : m'.state = m.state) :
    Asked o m' z ∧ (m.status = .ready → m'.status = .ready) := by
  refine ⟨⟨?_, ?_, ?_⟩, ?_⟩
  · rw [hstate]
    exact h.before
  · rw [hstate]
    exact h.waiting
  · rw [hstate]
    exact h.passed
  · rw [ready_iff, ready_iff, hstate]
    exact id

/-- **CURVE.** -/
theorem ops_keeps (o : MechanismOptions) (k : CurveCrypto) : (ops o k).Keeps (Asked o) (Zap.Admits o) where
  next h hrun := h.nextHandshakeCommand hrun
  process h hrun := by
    obtain ⟨hok, -, hnot⟩ := h.processHandshakeCommand hrun
    exact ⟨hok rfl, fun hready => absurd rfl (hnot hready).1⟩
  processError h hrun := by
    obtain ⟨-, hne, hsame⟩ := h.processHandshakeCommand hrun
    refine ⟨fun he => hne (by rw [he]), fun hready => ?_⟩
    rw [(hsame hready).2]
    exact h.passed (by simp [ready_iff.1 hready])
  zapMsg h hrun := by
    obtain ⟨hok, hnot⟩ := h.zapMsgAvailable hrun
    exact ⟨hok rfl, fun hready => absurd rfl (hnot hready).1⟩
  zapMsgError h hrun hready := by
    rw [((h.zapMsgAvailable hrun).2 hready).2]
    exact h.passed (by simp [ready_iff.1 hready])
  encode h hrun := h.congr (state_of_encode hrun)
  decode h hrun := h.congr (state_of_decode hrun)
  pipe h _ _ := { h with }
  handler h _ := { h with }
  ready h hready := h.passed (by simp [ready_iff.1 hready])
  stable h _ _ := h

end CurveServer

/-- The greeting has been exchanged and the mechanism is new. -/
structure Engine.Begins {σ μ : Type} (m : μ) (s : Engine σ μ) : Prop where
  mechanism : s.mechanism = some m
  processMsg : s.processMsg = .processHandshakeCommand
  nextMsg : s.nextMsg = .nextHandshakeCommand
  reports : s.reports = []
  early : s.early = []

lemma Engine.Begins.watched {σ μ : Type} {ops : MechanismOps μ} {I : μ → Zap → Prop} {A : Zap → Prop}
    {m : μ} {s : Engine σ μ} (h : s.Begins m) (hops : ops.Keeps I A) (hI : I m s.zap) :
    s.Watched ops I A := by
  refine Engine.Guarded.watched hops ⟨⟨m, h.mechanism, hI, fun hmem => ?_⟩, h.early, fun hp => ?_⟩
  · simp [h.reports] at hmem
  · exact absurd h.processMsg hp

lemma NullMechanism.asked_new {statusCode : List UInt8} {m : NullMechanism} (hz : z.Unasked)
    (hpipe : z.pipe = none) (hnew : NullMechanism.new o statusCode z = .ok (m, z')) : Asked o m z' := by
  unfold NullMechanism.new at hnew
  split at hnew
  next hdomain =>
    cases hnew
    exact ⟨by rw [if_pos hdomain, hz.1], fun _ => rfl, fun _ => ⟨hpipe, rfl⟩, fun _ => hz.2, fun hc => (by cases hc),
      fun hr => (by cases hr), fun hr => (by cases hr)⟩
  next hdomain =>
    split at hnew
    · cases hnew
    next connected z1 hconnect =>
      obtain ⟨hconnects, hverified, hrefused⟩ := Zap.zapConnect_ok hconnect
      rw [hz.1] at hconnects
      cases hnew
      exact ⟨by rw [if_neg hdomain]; exact hconnects, fun hd => absurd hd hdomain,
        fun hc => ⟨hrefused hc, rfl⟩, fun _ => hverified.trans hz.2, fun _ _ => rfl,
        fun hr => (by cases hr), fun hr => (by cases hr)⟩

/-- **No unauthenticated traffic.** In every run of an engine with a new mechanism, whatever the peer
sends, whatever becomes of the ZAP pipe and whenever the handler answers, no frame is pushed into the
session before the mechanism has reported that it is ready; and it has reported so only if the handler
could not be connected, or its one reply has passed all checks with the status code of success, or the
mechanism is NULL and the socket has no ZAP domain. -/
theorem no_unauthenticated_traffic {σ : Type} (env : Surroundings) (S : Stages σ) (o : MechanismOptions)
    (k : CurveCrypto) (acts : List EngineAct) :
    (∀ (statusCode : List UInt8) (z : Zap) (m : NullMechanism) (s t : Engine σ NullMechanism),
      z.Unasked → z.pipe = none → NullMechanism.new o statusCode z = .ok (m, s.zap) → s.Begins m →
      runSteps (Engine.step env (NullMechanism.ops o) S) s acts = .ok t →
      t.early = [] ∧ (.ready ∈ t.reports → NullMechanism.Admits o t.zap)) ∧
    (∀ s t : Engine σ PlainServer, s.zap.Unasked → s.Begins PlainServer.new →
      runSteps (Engine.step env (PlainServer.ops o) S) s acts = .ok t →
      t.early = [] ∧ (.ready ∈ t.reports → t.zap.Admits o)) ∧
    (∀ (secretKey cnPublic cnSecret : List UInt8) (s t : Engine σ CurveServer), s.zap.Unasked →
      s.Begins (CurveServer.new secretKey cnPublic cnSecret) →
      runSteps (Engine.step env (CurveServer.ops o k) S) s acts = .ok t →
      t.early = [] ∧ (.ready ∈ t.reports → t.zap.Admits o)) := by
  refine ⟨fun statusCode z m s t hz hpipe hnew hs hrun => ?_, fun s t hz hs hrun => ?_,
    fun secretKey cnPublic cnSecret s t hz hs hrun => ?_⟩
  · have hkeeps := NullMechanism.ops_keeps o
    have hwatched := (hs.watched hkeeps (NullMechanism.asked_new hz hpipe hnew)).run hkeeps hrun
    exact ⟨hwatched.1.early, hwatched.1.ready⟩
  · have hkeeps := PlainServer.ops_keeps o
    have hasked : PlainServer.Asked o PlainServer.new s.zap :=
      ⟨fun _ => hz, by simp [PlainServer.new], by simp [PlainServer.new]⟩
    have hwatched := (hs.watched hkeeps hasked).run hkeeps hrun
    exact ⟨hwatched.1.early, hwatched.1.ready⟩
  · have hkeeps := CurveServer.ops_keeps o k
    have hasked : CurveServer.Asked o (CurveServer.new secretKey cnPublic cnSecret) s.zap :=
      CurveServer.asked_of_unasked hz (by simp [CurveServer.new]) (by simp [CurveServer.new])
    have hwatched := (hs.watched hkeeps hasked).run hkeeps hrun
    exact ⟨hwatched.1.early, hwatched.1.ready⟩

/-! ### A peer of a NULL socket -/

/-- A new mechanism, when `zap_connect` has returned this. -/
def nullPeerMechanism (zapConnected : Bool) : NullMechanism :=
  ⟨MechanismBase.init, false, false, false, false, zapConnected, false, false, []⟩

/-- The engine of a NULL socket whose peer has sent a READY command and a frame. -/
def nullPeer (zapConnected : Bool) (zap : Zap) : Engine V2State NullMechanism where
  connection := ⟨[4, 6, 5] ++ ascii "READY" ++ [0, 1, 65], .staysOpen⟩
  decoder := V2State.start
  input := []
  direct := false
  current := Engine.emptyMsg
  processMsg := .processHandshakeCommand
  nextMsg := .nextHandshakeCommand
  mechanism := some (nullPeerMechanism zapConnected)
  metadata := false
  recvIdentity := false
  subscriptionRequired := false
  inputStopped := false
  outputStopped := false
  ioError := false
  closed := none
  zap
  accepted := []
  pushes := 0
  refused := false
  outEvents := 0
  produced := []
  decodes := []
  reports := []
  early := []

/-- A step of it. -/
def nullPeerStep (zapDomain : List UInt8) : Engine V2State NullMechanism → EngineAct →
    Except EngineFault (Engine V2State NullMechanism) :=
  Engine.step ⟨fun _ => true, fun _ => [none]⟩
    (NullMechanism.ops ⟨.dealer, [], identity_nil_le, false, zapDomain, []⟩)
    (V2State.stages ⟨-1, 2 ^ 64 - 1, 29, 40, fun _ _ => true⟩)

/-- The frames of a reply that lets the peer in. -/
def successReply : List Msg :=
  [[], ascii "1.0", ascii "1", ascii "200", [], [], []].mapIdx fun i field => Zap.frame field (i ≠ 6)

/-- The handler answers after the request has been sent. -/
theorem no_unauthenticated_traffic_null :
    ∃ t, runSteps (nullPeerStep [1]) (nullPeer true ⟨some false, some [], [], [true], []⟩)
        [.outEvent, .zapFrames successReply, .zapMsgAvailable 0, .outEvent, .inEvent 100] = .ok t ∧
      MechanismStatus.ready ∈ t.reports ∧ t.early = [] ∧
      NullMechanism.Admits ⟨.dealer, [], Nat.zero_le _, false, [1], []⟩ t.zap := by
  refine okAnd.exists_imp (P := fun t => MechanismStatus.ready ∈ t.reports) (by decide +kernel) fun t hrun hready => ?_
  obtain ⟨hearly, hadmits⟩ := (no_unauthenticated_traffic _ _ _
    ⟨fun _ _ _ _ => none, fun _ _ _ _ => [], fun _ _ => [], fun _ _ _ => none, fun _ _ _ => [],
      fun _ _ _ => none, fun _ _ _ => [], fun _ => [], 32⟩ _).1 []
    ⟨some false, none, [], [], []⟩ (nullPeerMechanism true) _ _ ⟨rfl, rfl⟩ rfl (by rfl)
    ⟨rfl, rfl, rfl, rfl, rfl⟩ hrun
  exact ⟨hready, hearly, hadmits hready⟩

/-- Without a ZAP domain a frame of the peer is accepted although there is a handler, which has not been
asked. -/
theorem null_does_not_ask :
    ∃ t, runSteps (nullPeerStep []) (nullPeer false ⟨some false, none, [], [], []⟩)
        [.outEvent, .inEvent 100] = .ok t ∧
      MechanismStatus.ready ∈ t.reports ∧ t.zap.handler = some false ∧ t.zap.connects = [] ∧
      t.zap.verified = [] ∧ t.accepted = [⟨.data, .none, [65]⟩] :=
  okAnd.exists (by decide +kernel)

end Zmq
