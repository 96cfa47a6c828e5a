import Mathlib.Data.List.Chain
import ZeroMQ.Pattern.Req

/-!
# Whose reply a REQ socket takes

A frame that `xrecv` returns comes from the pipe the most recent request was written to, as long as the
socket has not been told that this pipe is terminated; after that it may come from any pipe. So in a run
in which no pipe is terminated while a request to it is being sent or its reply is awaited, replies come
from the pipe of the request. A strict socket sends requests and receives replies in turn.

The first part says what the functions of `req_t` do to the socket apart from its pipes, in the form of
one specification for each function; `Received` stands for what they do to the pipes.
-/

namespace Zmq

open Foundation List Ensures

/-! ### Specifications -/

/-- Frames are received one after the other. -/
def Dealer.Received : Dealer → Dealer → Prop := Relation.ReflTransGen fun d d' => ∃ f, d.recvpipe = .ok (f, d')

namespace Req

variable {s t : Req} {n k : ℕ} {m : Msg}

/-- `recv_reply_pipe` takes a frame from this pipe. -/
def TakesFrom (s : Req) (p : ℕ) : Prop := s.replyPipe = none ∨ s.replyPipe = some p

lemma recvReplyPipe_spec (n : ℕ) (s : Req) : Ensures (s.recvReplyPipe n) fun r =>
    ∃ d, s.dealer.Received d ∧ r.2 = { s with dealer := d } ∧ ∀ f ∈ r.1, s.TakesFrom f.2 := by
  induction n generalizing s with
  | zero => exact .error _
  | succ n ih =>
    rw [recvReplyPipe]
    split
    · exact .error _
    · next d hrecv => exact .ok ⟨d, .single ⟨_, hrecv⟩, rfl, by simp⟩
    · next m p d hrecv =>
      split
      · next htakes =>
        refine .ok ⟨d, .single ⟨_, hrecv⟩, rfl, fun f hf => ?_⟩
        rw [← Option.some.inj hf]
        exact htakes
      · refine (ih { s with dealer := d }).mono ?_
        rintro r ⟨d', hd', hr, hfrom⟩
        exact ⟨d', .head ⟨_, hrecv⟩ hd', hr, hfrom⟩

lemma skipRest_spec (n k : ℕ) (m : Msg) (s : Req) : Ensures (s.skipRest n k m) fun t =>
    ∃ d, s.dealer.Received d ∧ t = { s with dealer := d } := by
  induction k generalizing m s with
  | zero =>
    rw [skipRest]
    split
    · exact .error _
    · exact .ok ⟨s.dealer, .refl, rfl⟩
  | succ k ih =>
    rw [skipRest]
    split
    · split
      · exact .error _
      · exact .error _
      · next m' p t hrecv =>
        obtain ⟨d, hd, ht, -⟩ := recvReplyPipe_spec n s _ hrecv
        obtain rfl : t = { s with dealer := d } := ht
        refine (ih m' { s with dealer := d }).mono ?_
        rintro t' ⟨d', hd', ht'⟩
        exact ⟨d', hd.trans hd', ht'⟩
    · exact .ok ⟨s.dealer, .refl, rfl⟩

lemma skipMessage_spec (n : ℕ) (m : Msg) (s : Req) : Ensures (s.skipMessage n m) fun r =>
    ∃ d, s.dealer.Received d ∧ r = (.skipped, { s with dealer := d }) := by
  unfold skipMessage
  split
  · exact .error _
  · next t hskip =>
    obtain ⟨d, hd, rfl⟩ := skipRest_spec n n m s _ hskip
    exact .ok ⟨d, hd, rfl⟩

/-- What a round does to the socket: only the first frames of the right message end the loop. -/
def RoundSpec (s : Req) (r : Round × Req) : Prop :=
  ∃ d, s.dealer.Received d ∧
    r.2 = { s with dealer := d, messageBegins := if r.1 = .found then false else s.messageBegins }

lemma matchBottom_spec (n : ℕ) (s : Req) : Ensures (s.matchBottom n) s.RoundSpec := by
  unfold matchBottom
  split
  · exact .error _
  · next t hrecv =>
    obtain ⟨d, hd, ht, -⟩ := recvReplyPipe_spec n s _ hrecv
    exact .ok ⟨d, hd, ht⟩
  · next m p t hrecv =>
    obtain ⟨d, hd, ht, -⟩ := recvReplyPipe_spec n s _ hrecv
    obtain rfl : t = { s with dealer := d } := ht
    split
    · exact .ok ⟨d, hd, rfl⟩
    · refine (skipMessage_spec n m _).mono ?_
      rintro r ⟨d', hd', rfl⟩
      exact ⟨d', hd.trans hd', rfl⟩

lemma matchEnvelope_spec (n : ℕ) (s : Req) : Ensures (s.matchEnvelope n) s.RoundSpec := by
  unfold matchEnvelope
  split
  · split
    · exact .error _
    · next t hrecv =>
      obtain ⟨d, hd, ht, -⟩ := recvReplyPipe_spec n s _ hrecv
      exact .ok ⟨d, hd, ht⟩
    · next m p t hrecv =>
      obtain ⟨d, hd, ht, -⟩ := recvReplyPipe_spec n s _ hrecv
      obtain rfl : t = { s with dealer := d } := ht
      split
      · refine (matchBottom_spec n _).mono ?_
        rintro r ⟨d', hd', hr⟩
        exact ⟨d', hd.trans hd', hr⟩
      · refine (skipMessage_spec n m _).mono ?_
        rintro r ⟨d', hd', rfl⟩
        exact ⟨d', hd.trans hd', rfl⟩
  · exact matchBottom_spec n s

lemma matchLoop_spec (n k : ℕ) (s : Req) : Ensures (s.matchLoop n k) fun r =>
    ∃ d b, s.dealer.Received d ∧ r.2 = { s with dealer := d, messageBegins := b } ∧ (r.1 = true → b = false) := by
  induction k generalizing s with
  | zero =>
    rw [matchLoop]
    split
    · exact .error _
    · next hb => exact .ok ⟨s.dealer, s.messageBegins, .refl, rfl, fun _ => by simpa using hb⟩
  | succ k ih =>
    rw [matchLoop]
    split
    · split
      · exact .error _
      · next t hround =>
        obtain ⟨d, hd, ht⟩ := matchEnvelope_spec n s _ hround
        exact .ok ⟨d, s.messageBegins, hd, ht, by simp⟩
      · next round t hne hround =>
        obtain ⟨d, hd, ht⟩ := matchEnvelope_spec n s _ hround
        obtain ⟨b, rfl⟩ : ∃ b, t = { s with dealer := d, messageBegins := b } := ⟨_, ht⟩
        refine (ih { s with dealer := d, messageBegins := b }).mono ?_
        rintro r ⟨d', b', hd', hr, hb⟩
        exact ⟨d', b', hd.trans hd', hr, hb⟩
    · next hb => exact .ok ⟨s.dealer, s.messageBegins, .refl, rfl, fun _ => by simpa using hb⟩

/-- What `xrecv` does: it fails and the reply is still awaited, or it returns a frame of a pipe from which
it may take one. -/
inductive RecvSpec (s : Req) : Except ReqErrno FrameFrom × Req → Prop
  | refused : RecvSpec s (.error .efsm, s)
  | failed (d : Dealer) (b : Bool) (hrecv : s.receivingReply = true) (hd : s.dealer.Received d) :
      RecvSpec s (.error .eagain, { s with dealer := d, messageBegins := b })
  | frame (f : FrameFrom) (d : Dealer) (hrecv : s.receivingReply = true) (hd : s.dealer.Received d)
      (hfrom : s.TakesFrom f.2) (hmore : f.1.more = true) :
      RecvSpec s (.ok f, { s with dealer := d, messageBegins := false })
  | last (f : FrameFrom) (d : Dealer) (hrecv : s.receivingReply = true) (hd : s.dealer.Received d)
      (hfrom : s.TakesFrom f.2) (hmore : f.1.more = false) :
      RecvSpec s (.ok f, { s with dealer := d, receivingReply := false, messageBegins := true
                                  events := s.events ++ [.received] })

lemma xrecv_spec (n k : ℕ) (s : Req) : Ensures (s.xrecv n k) s.RecvSpec := by
  unfold xrecv
  split
  · next hrecv =>
    split
    · exact .error _
    · next t hloop =>
      obtain ⟨d, b, hd, ht, -⟩ := matchLoop_spec n k s _ hloop
      obtain rfl : t = { s with dealer := d, messageBegins := b } := ht
      exact .ok (.failed d b hrecv hd)
    · next t hloop =>
      obtain ⟨d, b, hd, ht, hb⟩ := matchLoop_spec n k s _ hloop
      obtain rfl : b = false := hb rfl
      obtain rfl : t = { s with dealer := d, messageBegins := false } := ht
      unfold recvBody
      split
      · exact .error _
      · next t hbody =>
        obtain ⟨d', hd', ht, -⟩ := recvReplyPipe_spec n _ _ hbody
        obtain rfl : t = { s with dealer := d', messageBegins := false } := ht
        exact .ok (.failed d' false hrecv (hd.trans hd'))
      · next m p t hbody =>
        obtain ⟨d', hd', ht, hfrom⟩ := recvReplyPipe_spec n _ _ hbody
        obtain rfl : t = { s with dealer := d', messageBegins := false } := ht
        have hp : s.TakesFrom p := hfrom (m, p) rfl
        split
        · next hm => exact .ok (.frame (m, p) d' hrecv (hd.trans hd') hp hm)
        · next hm =>
          exact .ok (.last (m, p) d' hrecv (hd.trans hd') hp (by simpa using hm))
  · exact .ok .refused

/-! ### Sending -/

lemma eat_spec (n : ℕ) (s : Req) : Ensures (s.eat n) fun t =>
    ∃ d, s.dealer.Received d ∧ t = { s with dealer := d } := by
  induction n generalizing s with
  | zero => exact .error _
  | succ n ih =>
    rw [eat]
    split
    · exact .error _
    · next d hrecv => exact .ok ⟨d, .single ⟨_, hrecv⟩, rfl⟩
    · next d hrecv =>
      refine (ih { s with dealer := d }).mono ?_
      rintro t ⟨d', hd', ht⟩
      exact ⟨d', .head ⟨_, hrecv⟩ hd', ht⟩

/-- The socket has a reply pipe only if the most recent request was written to it. -/
def Tracks (s : Req) : Prop := ∀ p, s.replyPipe = some p → s.requestPipe = some p

/-- The fields that sending a frame of the envelope leaves alone. -/
structure SameTalk (s t : Req) : Prop where
  receivingReply : t.receivingReply = s.receivingReply
  messageBegins : t.messageBegins = s.messageBegins
  gone : t.gone = s.gone
  events : t.events = s.events
  strict : t.strict = s.strict

lemma SameTalk.trans {u : Req} (h : SameTalk s t) (h' : SameTalk t u) : SameTalk s u :=
  ⟨h'.1.trans h.1, h'.2.trans h.2, h'.3.trans h.3, h'.4.trans h.4, h'.5.trans h.5⟩

lemma sendEnvelope_spec (h : s.Tracks) (m : Msg) :
    Ensures (s.sendEnvelope m) fun r => r.2.Tracks ∧ SameTalk s r.2 := by
  unfold sendEnvelope
  split
  · exact .error _
  · exact .ok ⟨h, rfl, rfl, rfl, rfl, rfl⟩
  · exact .ok ⟨h, rfl, rfl, rfl, rfl, rfl⟩
  · exact .ok ⟨fun _ hp => hp, rfl, rfl, rfl, rfl, rfl⟩

lemma sendId_spec (h : s.Tracks) : Ensures s.sendId fun r => r.2.Tracks ∧ SameTalk s r.2 := by
  unfold sendId
  split
  · refine (sendEnvelope_spec (s := { s with
      requestId := s.requestId + 1, increments := s.increments + 1 }) h _).mono ?_
    rintro r ⟨htracks, htalk⟩
    exact ⟨htracks, htalk.1, htalk.2, htalk.3, htalk.4, htalk.5⟩
  · exact .ok ⟨h, rfl, rfl, rfl, rfl, rfl⟩

lemma beginRequest_spec (n : ℕ) (s : Req) : Ensures (s.beginRequest n) fun r =>
    r.2.Tracks ∧ SameTalk s { r.2 with messageBegins := s.messageBegins } ∧
      (r.1 = false → r.2.messageBegins = s.messageBegins) ∧
      (r.1 = true → r.2.replyPipe ≠ none) := by
  have htracks : Tracks { s with replyPipe := none } := fun p hp => (by cases hp)
  unfold beginRequest
  split
  · exact .error _
  · next t hid =>
    obtain ⟨ht, htalk⟩ := sendId_spec htracks _ hid
    exact .ok ⟨ht, ⟨htalk.1, rfl, htalk.3, htalk.4, htalk.5⟩, fun _ => htalk.2, by simp⟩
  · next t hid =>
    obtain ⟨ht, htalk⟩ := sendId_spec htracks _ hid
    split
    · exact .error _
    · next u hbottom =>
      obtain ⟨hu, htalk'⟩ := sendEnvelope_spec ht _ _ hbottom
      have hall := htalk.trans htalk'
      exact .ok ⟨hu, ⟨hall.1, rfl, hall.3, hall.4, hall.5⟩, fun _ => hall.2, by simp⟩
    · next u hbottom =>
      obtain ⟨hu, htalk'⟩ := sendEnvelope_spec ht _ _ hbottom
      have hall := htalk.trans htalk'
      split
      · exact .error _
      next hne =>
      split
      · exact .error _
      · next v heat =>
        obtain ⟨d, -, rfl⟩ := eat_spec n _ _ heat
        exact .ok ⟨hu, ⟨hall.1, rfl, hall.3, hall.4, hall.5⟩, by simp, fun _ => hne⟩

lemma abandonReply_spec (s : Req) : Ensures s.abandonReply fun t =>
    ∃ d, t = { s with dealer := d, receivingReply := false
                      messageBegins := s.receivingReply || s.messageBegins } := by
  unfold abandonReply
  split
  · next hrecv =>
    have hterm : Ensures s.terminateReplyPipe fun t => ∃ d, t = { s with dealer := d } := by
      unfold terminateReplyPipe
      split
      · exact .ok ⟨s.dealer, rfl⟩
      · split
        · exact .error _
        · exact .ok ⟨_, rfl⟩
    split
    · exact .error _
    · next t ht =>
      obtain ⟨d, rfl⟩ := hterm _ ht
      exact .ok ⟨d, by simp [hrecv]⟩
  · next hrecv =>
    obtain hrecv : s.receivingReply = false := by simpa using hrecv
    refine .ok ⟨s.dealer, ?_⟩
    rw [hrecv, Bool.false_or, ← hrecv]

/-- What a step does to the socket apart from its pipes. -/
inductive StepSpec (s : Req) : ReqAct → Req → Prop
  | pipes (a : ReqAct) (d : Dealer) : StepSpec s a { s with dealer := d }
  | send (n : ℕ) (flags : MsgFlags) (body : List UInt8) (r : Except ReqErrno Unit × Req)
      (hsend : s.xsend n ⟨.data, flags, body⟩ = .ok r) : StepSpec s (.send n flags body) r.2
  | recv (n k : ℕ) (r : Except ReqErrno FrameFrom × Req) (hrecv : s.xrecv n k = .ok r) :
      StepSpec s (.recv n k) r.2
  | setCorrelate (value : Bool) :
      StepSpec s (.setCorrelate value) { s with requestIdFramesEnabled := value }
  | setRelaxed (value : Bool) : StepSpec s (.setRelaxed value) { s with strict := !value }
  | terminated (p : ℕ) (act : PipeAct) (d : Dealer)
      (hevent : s.dealer.owner p act = .ok (d, some .pipeTerminated)) :
      StepSpec s (.owner p act) ({ s with dealer := d }.xpipeTerminated p)

lemma step_spec (s : Req) (a : ReqAct) : Ensures (s.step a) (s.StepSpec a) := by
  cases a with
  | attach hwm0 hwm1 =>
    simp only [step]
    split
    · exact .error _
    · exact .ok (.pipes _ _)
  | send n flags body => exact map fun r hr => .send n flags body r hr
  | recv n k => exact map fun r hr => .recv n k r hr
  | hasIn =>
    refine map ?_
    unfold xhasIn
    split
    · split
      · exact .error _
      · exact .ok (.pipes _ _)
    · exact .ok (.pipes _ s.dealer)
  | hasOut =>
    refine map ?_
    unfold xhasOut
    split
    · exact .ok (.pipes _ s.dealer)
    · split
      · exact .error _
      · exact .ok (.pipes _ _)
  | setCorrelate value => exact .ok (.setCorrelate value)
  | setRelaxed value => exact .ok (.setRelaxed value)
  | setProbeRouter value => exact .ok (.pipes _ _)
  | owner p act =>
    simp only [step]
    split
    · split
      · exact .error _
      · next d hevent => exact .ok (.terminated p act d hevent)
      · exact .ok (.pipes _ _)
    · exact .ok (.pipes _ s.dealer)
  | peer _ _ | echo _ _ =>
    simp only [step]
    split
    · split
      · exact .error _
      · exact .ok (.pipes _ _)
    · exact .ok (.pipes _ s.dealer)

/-! ### The invariant -/

/-- A request is being sent or its reply is awaited. -/
def Busy (s : Req) : Prop := s.receivingReply = true ∨ s.messageBegins = false

instance (s : Req) : Decidable s.Busy := inferInstanceAs (Decidable (_ ∨ _))

/-- While a request is being sent or its reply is awaited, the socket has a reply pipe, unless the pipe of
the request and the pipes it knows to be terminated are in the relation `L`. -/
structure ReplyInv (L : Option ℕ → List ℕ → Prop) (s : Req) : Prop where
  tracks : s.Tracks
  lost : s.replyPipe = none → s.Busy → L s.requestPipe s.gone

namespace ReplyInv

variable {L : Option ℕ → List ℕ → Prop}

lemma new (requestId : UInt32) : ReplyInv L (Req.new requestId) :=
  ⟨fun p hp => (by cases hp), fun _ hbusy => (by simp [Req.new, Busy] at hbusy)⟩

lemma withDealer (h : ReplyInv L s) (d : Dealer) : ReplyInv L { s with dealer := d } := ⟨h.1, h.2⟩

lemma of_tracks (h : s.Tracks)
    (hs : s.replyPipe ≠ none ∨ s.receivingReply = false ∧ s.messageBegins = true) : ReplyInv L s := by
  refine ⟨h, fun hnone hwaits => ?_⟩
  rcases hs with hs | ⟨hrecv, hbegins⟩
  · exact absurd hnone hs
  · simp [Busy, hrecv, hbegins] at hwaits

lemma sendBody (htracks : s.Tracks) (hlost : s.replyPipe = none → L s.requestPipe s.gone) (m : Msg) :
    Ensures (s.sendBody m) fun r => ReplyInv L r.2 := by
  unfold Req.sendBody
  split
  · exact .error _
  · exact .ok ⟨htracks, fun hnone _ => hlost hnone⟩
  · split
    · exact .ok ⟨htracks, fun hnone _ => hlost hnone⟩
    · exact .ok ⟨htracks, fun hnone _ => hlost hnone⟩

lemma xsend (h : ReplyInv L s) (n : ℕ) (m : Msg) : Ensures (s.xsend n m) fun r => ReplyInv L r.2 := by
  unfold Req.xsend
  split
  · exact .ok h
  split
  · exact .error _
  · next t hab =>
    obtain ⟨d, rfl⟩ := abandonReply_spec s _ hab
    split
    · next hbegins =>
      split
      · exact .error _
      · next u hbegin =>
        obtain ⟨htracks, htalk, hb, -⟩ := beginRequest_spec n _ _ hbegin
        exact .ok (of_tracks htracks (.inr ⟨htalk.receivingReply, (hb rfl).trans hbegins⟩))
      · next u hbegin =>
        obtain ⟨htracks, -, -, hne⟩ := beginRequest_spec n _ _ hbegin
        exact sendBody htracks (fun hnone => absurd hnone (hne rfl)) m
    · next hbegins =>
      have hb : s.messageBegins = false := by
        simp only [Bool.or_eq_true, not_or, Bool.not_eq_true] at hbegins
        exact hbegins.2
      refine sendBody (s := { s with dealer := d, receivingReply := false
                                     messageBegins := s.receivingReply || s.messageBegins })
        h.tracks (fun hnone => h.lost hnone (.inr hb)) m

lemma xrecv (h : ReplyInv L s) (n k : ℕ) : Ensures (s.xrecv n k) fun r => ReplyInv L r.2 := by
  refine (xrecv_spec n k s).mono ?_
  intro r hr
  cases hr with
  | refused => exact h
  | failed d b hrecv | frame f d hrecv => exact ⟨h.tracks, fun hnone _ => h.lost hnone (.inl hrecv)⟩
  | last f d hrecv => exact of_tracks h.tracks (.inr ⟨rfl, rfl⟩)

lemma xpipeTerminated (h : ReplyInv L s) (p : ℕ)
    (hlost : s.Busy → s.replyPipe = some p ∨ L s.requestPipe s.gone → L s.requestPipe (s.gone ++ [p])) :
    ReplyInv L (s.xpipeTerminated p) := by
  unfold Req.xpipeTerminated
  constructor
  · intro q hq
    split at hq
    · cases hq
    · exact h.tracks q hq
  · intro hnone hwaits
    split at hnone
    · next heq => exact hlost hwaits (.inl heq)
    · exact hlost hwaits (.inr (h.lost hnone hwaits))

lemma step (h : ReplyInv L s) (a : ReqAct)
    (hlost : ∀ p act d, a = .owner p act → s.dealer.owner p act = .ok (d, some .pipeTerminated) → s.Busy →
      s.replyPipe = some p ∨ L s.requestPipe s.gone → L s.requestPipe (s.gone ++ [p])) :
    Ensures (s.step a) (ReplyInv L) := by
  refine (step_spec s a).mono ?_
  intro t ht
  cases ht with
  | pipes _ d => exact h.withDealer d
  | send n flags body r hsend => exact h.xsend n _ r hsend
  | recv n k r hrecv => exact h.xrecv n k r hrecv
  | setCorrelate value | setRelaxed value => exact ⟨h.tracks, h.lost⟩
  | terminated p act d hevent => exact (h.withDealer d).xpipeTerminated p (hlost p act d rfl hevent)

/-- The socket has no reply pipe only if it knows that the pipe of the request is terminated. -/
lemma step_known (h : ReplyInv (fun q gone => ∃ p, q = some p ∧ p ∈ gone) s) (a : ReqAct) :
    Ensures (s.step a) (ReplyInv fun q gone => ∃ p, q = some p ∧ p ∈ gone) := by
  refine h.step a fun p act d _ _ _ hor => ?_
  rcases hor with heq | ⟨q, hq, hgone⟩
  · exact ⟨p, h.tracks p heq, by simp⟩
  · exact ⟨q, hq, by simp [hgone]⟩

end ReplyInv

/-- The step does not report the end of the pipe of a request that is being sent or whose reply is
awaited. -/
def Kept (s : Req) : ReqAct → Prop
  | .owner p act => s.Busy → s.replyPipe = some p →
    ¬okAnd (s.dealer.owner p act) fun r => r.2 = some .pipeTerminated
  | _ => True

instance (s : Req) (a : ReqAct) : Decidable (s.Kept a) :=
  match a with
  | .owner _ _ => inferInstanceAs (Decidable (_ → _ → ¬_))
  | .attach _ _ | .send _ _ _ | .recv _ _ | .hasIn | .hasOut | .setCorrelate _ | .setRelaxed _
  | .setProbeRouter _ | .peer _ _ | .echo _ _ => inferInstanceAs (Decidable True)

/-- The socket has a reply pipe while it needs one. -/
lemma ReplyInv.step_kept (h : ReplyInv (fun _ _ => False) s) (a : ReqAct) (ha : s.Kept a) :
    Ensures (s.step a) (ReplyInv fun _ _ => False) := by
  refine h.step a fun p act d heq hevent hbusy hor => ?_
  subst heq
  refine ha hbusy (hor.resolve_right id) ?_
  rw [hevent]
  exact rfl

/-! ### Turns -/

/-- A request is sent first, and then requests and replies take turns. -/
def Alternates (events : List ReqEvent) : Prop := List.IsChain (· ≠ ·) (.received :: events)

/-- A strict socket waits for a reply exactly if the last event was a request. -/
structure TurnInv (s : Req) : Prop where
  strict : s.strict = true
  alternates : Alternates s.events
  turn : (ReqEvent.received :: s.events).getLast? = some (if s.receivingReply then .sent else .received)

namespace TurnInv

lemma of_same (h : TurnInv s) (hstrict : t.strict = s.strict) (hevents : t.events = s.events)
    (hrecv : t.receivingReply = s.receivingReply) : TurnInv t := by
  refine ⟨hstrict.trans h.strict, ?_, ?_⟩
  · rw [hevents]
    exact h.alternates
  · rw [hevents, hrecv]
    exact h.turn

lemma next (h : TurnInv s) {e : ReqEvent} (hstrict : t.strict = s.strict)
    (hevents : t.events = s.events ++ [e]) (hrecv : t.receivingReply = !s.receivingReply)
    (he : e = if t.receivingReply then .sent else .received) : TurnInv t := by
  refine ⟨hstrict.trans h.strict, ?_, ?_⟩
  · rw [hevents, Alternates, ← cons_append]
    refine isChain_append.mpr ⟨h.alternates, isChain_singleton _, ?_⟩
    intro x hx y hy
    rw [h.turn] at hx
    rw [head?_cons] at hy
    rw [← Option.some.inj hx, ← Option.some.inj hy, he, hrecv]
    cases s.receivingReply <;> decide
  · rw [hevents, ← cons_append, getLast?_concat, he]

lemma sendBody (h : TurnInv s) (hrecv : s.receivingReply = false) (m : Msg) :
    Ensures (s.sendBody m) fun r => TurnInv r.2 := by
  unfold Req.sendBody
  split
  · exact .error _
  · exact .ok (h.of_same rfl rfl rfl)
  · split
    · exact .ok (h.of_same rfl rfl rfl)
    · exact .ok (h.next (e := .sent) rfl rfl (by rw [hrecv]; rfl) rfl)

lemma xsend (h : TurnInv s) (n : ℕ) (m : Msg) : Ensures (s.xsend n m) fun r => TurnInv r.2 := by
  unfold Req.xsend
  split
  · exact .ok h
  next hturn =>
  have hrecv : s.receivingReply = false := by
    cases hr : s.receivingReply with
    | false => rfl
    | true => exact absurd ⟨hr, h.strict⟩ hturn
  split
  · exact .error _
  next t hab =>
  obtain ⟨d, rfl⟩ := abandonReply_spec s _ hab
  have ht : TurnInv { s with dealer := d, receivingReply := false
                             messageBegins := s.receivingReply || s.messageBegins } :=
    h.of_same rfl rfl hrecv.symm
  split
  · split
    · exact .error _
    · next u hbegin =>
      obtain ⟨-, htalk, -⟩ := beginRequest_spec n _ _ hbegin
      exact .ok (ht.of_same htalk.strict htalk.events htalk.receivingReply)
    · next u hbegin =>
      obtain ⟨-, htalk, -⟩ := beginRequest_spec n _ _ hbegin
      have hu : TurnInv u := ht.of_same htalk.strict htalk.events htalk.receivingReply
      exact sendBody hu htalk.receivingReply m
  · exact sendBody ht rfl m

lemma xrecv (h : TurnInv s) (n k : ℕ) : Ensures (s.xrecv n k) fun r => TurnInv r.2 := by
  refine (xrecv_spec n k s).mono ?_
  intro r hr
  cases hr with
  | refused => exact h
  | failed d b | frame f d => exact h.of_same rfl rfl rfl
  | last f d hrecv => exact h.next (e := .received) rfl rfl (by rw [hrecv]; rfl) rfl

lemma step (h : TurnInv s) {a : ReqAct} (ha : a ≠ .setRelaxed true) : Ensures (s.step a) TurnInv := by
  refine (step_spec s a).mono ?_
  intro t ht
  cases ht with
  | pipes _ d | setCorrelate value | terminated p act d => exact h.of_same rfl rfl rfl
  | send n flags body r hsend => exact h.xsend n _ r hsend
  | recv n k r hrecv => exact h.xrecv n k r hrecv
  | setRelaxed value =>
    cases value with
    | false => exact h.of_same h.strict.symm rfl rfl
    | true => exact absurd rfl ha

end TurnInv

/-- A frame comes from the pipe of the request, or that pipe is lost. -/
lemma ReplyInv.from_requestPipe {L : Option ℕ → List ℕ → Prop} (h : ReplyInv L s) {f : FrameFrom} {s' : Req}
    (hrecv : s.xrecv n k = .ok (.ok f, s')) : s.requestPipe = some f.2 ∨ L s.requestPipe s.gone := by
  have hboth : s.receivingReply = true ∧ s.TakesFrom f.2 := by
    cases xrecv_spec n k s _ hrecv with
    | frame _ d hwaits hd hfrom | last _ d hwaits hd hfrom => exact ⟨hwaits, hfrom⟩
  rcases hboth.2 with hnone | hsome
  · exact .inr (h.lost hnone (.inl hboth.1))
  · exact .inl (h.tracks _ hsome)

end Req

open Req in
/-- In every run of a REQ socket, a frame `xrecv` returns comes from the pipe to which the most recent
request was written, unless the socket knows that this pipe is terminated; it always comes from that pipe
if no step of the run has reported the end of the pipe of a request that was being sent or whose reply was
awaited; and as long as the socket is strict, requests and replies take turns. -/
theorem req_reply_matches_request (requestId : UInt32) (acts : List ReqAct) (s : Req)
    (h : (Req.new requestId).run acts = .ok s) :
    (∀ n k f s', s.xrecv n k = .ok (.ok f, s') → ∃ p, s.requestPipe = some p ∧ (f.2 = p ∨ p ∈ s.gone)) ∧
    (StepsMeet Req.step Req.Kept (Req.new requestId) acts →
      ∀ n k f s', s.xrecv n k = .ok (.ok f, s') → s.requestPipe = some f.2) ∧
    ((∀ a ∈ acts, a ≠ .setRelaxed true) → Alternates s.events) := by
  refine ⟨fun n k f s' hrecv => ?_, fun hkept n k f s' hrecv => ?_, fun hacts => ?_⟩
  · have hmeet : StepsMeet Req.step (fun _ _ => True) (Req.new requestId) acts :=
      stepsMeet_of_forall (fun _ _ _ => trivial) _
    have hinv := runSteps_preserves (fun s a s' hs _ hstep => ReplyInv.step_known hs a s' hstep)
      (.new requestId) hmeet h
    rcases hinv.from_requestPipe hrecv with hfrom | ⟨p, hp, hgone⟩
    · exact ⟨f.2, hfrom, .inl rfl⟩
    · exact ⟨p, hp, .inr hgone⟩
  · have hinv := runSteps_preserves (fun s a s' hs ha hstep => ReplyInv.step_kept hs a ha s' hstep)
      (.new requestId) hkept h
    exact (hinv.from_requestPipe hrecv).resolve_right id
  · have hnew : TurnInv (Req.new requestId) := ⟨rfl, isChain_singleton _, rfl⟩
    have hmeet : StepsMeet Req.step (fun _ a => a ≠ .setRelaxed true) (Req.new requestId) acts :=
      stepsMeet_of_forall (fun a ha _ => hacts a ha) _
    have hinv : TurnInv s := runSteps_preserves (fun s a s' hs ha hstep => hs.step ha s' hstep) hnew hmeet h
    exact hinv.alternates

/-- The next command of a pipe is processed. -/
def PipeAct.deliver : PipeAct := ⟨.deliver, trivial, trivial⟩

/-- The peer of a pipe sends a reply of one frame. -/
def replyActs (p : ℕ) (body : List UInt8) : List ReqAct :=
  [.peer p (.write (frameFlags true) []), .peer p (.write (frameFlags false) body), .peer p .flush,
    .owner p .deliver]

/-- A request is sent to the first of two pipes, and a reply comes back. -/
def requestAndReply : List ReqAct := [.attach 0 0, .attach 0 0, .send 3 (frameFlags false) [1]] ++ replyActs 0 [7]

theorem req_reply_matches_request_first :
    ∃ s, (Req.new 0).run requestAndReply = .ok s ∧
      (∃ s', s.xrecv 3 3 = .ok (.ok (⟨.data, frameFlags false, [7]⟩, 0), s')) ∧
      (∀ n k f s', s.xrecv n k = .ok (.ok f, s') → s.requestPipe = some f.2) ∧ Req.Alternates s.events := by
  obtain ⟨s, hrun, hframe⟩ : ∃ s, (Req.new 0).run requestAndReply = .ok s ∧
      okAnd (s.xrecv 3 3) fun r => r.1 = .ok (⟨.data, frameFlags false, [7]⟩, 0) :=
    okAnd.exists (by decide +kernel)
  obtain ⟨⟨f, s'⟩, hrecv, hf⟩ := hframe.exists
  obtain ⟨-, hfrom, hturns⟩ := req_reply_matches_request 0 requestAndReply s hrun
  refine ⟨s, hrun, ⟨s', ?_⟩, hfrom (by decide +kernel), hturns ?_⟩
  · rw [hrecv, show f = _ from hf]
  · simp [requestAndReply, replyActs]

/-- A request is sent to the first of two pipes, that pipe is terminated by its peer, and the other peer
sends something that looks like a reply. -/
def requestAndStrayReply : List ReqAct :=
  [.attach 0 0, .attach 0 0, .send 3 (frameFlags false) [1], .peer 0 (.terminate false),
    .owner 0 .deliver, .owner 0 .deliver, .recv 3 3, .peer 0 .deliver, .owner 0 .deliver] ++ replyActs 1 [7]

/-- It is taken for the reply. -/
theorem req_reply_of_another_pipe :
    ∃ s s', (Req.new 0).run requestAndStrayReply = .ok s ∧ s.requestPipe = some 0 ∧
      s.xrecv 3 3 = .ok (.ok (⟨.data, frameFlags false, [7]⟩, 1), s') := by
  obtain ⟨s, hrun, hpipe, hframe⟩ : ∃ s, (Req.new 0).run requestAndStrayReply = .ok s ∧
      s.requestPipe = some 0 ∧
      okAnd (s.xrecv 3 3) fun r => r.1 = .ok (⟨.data, frameFlags false, [7]⟩, 1) :=
    okAnd.exists (by decide +kernel)
  obtain ⟨⟨f, s'⟩, hrecv, hf⟩ := hframe.exists
  refine ⟨s, s', hrun, hpipe, ?_⟩
  rw [hrecv, show f = _ from hf]

end Zmq
