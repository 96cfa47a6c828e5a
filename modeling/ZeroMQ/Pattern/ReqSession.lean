import ZeroMQ.Foundation.Run
import ZeroMQ.Msg

/-!
# The input filter of a REQ session

A REQ socket puts an envelope in front of a request: the request id, if `ZMQ_REQ_CORRELATE` is set, and
an empty frame. A REP peer sends the envelope back in front of its reply, and `req_session_t` looks at
every frame the engine pushes before it lets the frame into the pipe.

The filter is a machine of two states. It changes its state before it knows whether the pipe takes the
frame, it knows no request ids, and it does not know the frame with the credential of the peer, which
the engine pushes in front of all others. `req_session_takes_replies_iff` says which streams of replies
get through.
-/

namespace Zmq

open Foundation List Prod

/-! ### The envelope -/

/-- The bytes of a `uint32_t` in memory, least significant byte first. -/
def uint32Bytes (value : UInt32) : List UInt8 :=
  [value.toUInt8, (value >>> 8).toUInt8, (value >>> 16).toUInt8, (value >>> 24).toUInt8]

/-- The frame `req_t::xsend` makes of the request id. -/
def requestIdFrame (id : UInt32) : Msg := ⟨.data, frameFlags true, uint32Bytes id⟩

/-- The empty frame `req_t::xsend` puts in front of the request. -/
def bottomFrame : Msg := ⟨.data, frameFlags true, []⟩

/-- A reply of a REP peer: the envelope of a request, with or without a request id, and the frames of the
reply, which are one at least. -/
structure Reply where
  id : Option UInt32
  body : List (List UInt8)
  last : List UInt8
  deriving DecidableEq, Repr

namespace Reply

/-- The frames behind the request id. -/
def tail (r : Reply) : List Msg :=
  bottomFrame :: r.body.map (⟨.data, frameFlags true, ·⟩) ++ [⟨.data, frameFlags false, r.last⟩]

/-- The frames of a reply. -/
def frames (r : Reply) : List Msg := (r.id.map requestIdFrame).toList ++ r.tail

end Reply

/-- The frame `write_credential` makes of the user id of the peer, if there is one. -/
def userIdFrames (userId : List UInt8) : List Msg :=
  if userId = [] then [] else [⟨.data, { MsgFlags.none with credential := true }, userId⟩]

/-- What the engine pushes. -/
def replyStream (userId : List UInt8) (replies : List Reply) : List Msg :=
  userIdFrames userId ++ replies.flatMap Reply.frames

/-! ### The session -/

/-- The values of `req_session_t::state`. -/
inductive ReqSessionState
  | bottom
  | body
  deriving DecidableEq, Repr

/-- `req_session_t`, with the frames it has written to its pipe. -/
structure ReqSession where
  state : ReqSessionState
  pushed : List Msg
  deriving DecidableEq, Repr

/-- What `push_msg` returns. -/
inductive PushResult
  | ok
  | eagain
  | efault
  deriving DecidableEq, Repr

namespace ReqSession

/-- `session_base_t::push_msg`; `takes` is what `pipe->write` returns. -/
def basePushMsg (takes : Bool) (m : Msg) (s : ReqSession) : PushResult × ReqSession :=
  if takes then (.ok, { s with pushed := s.pushed ++ [m] }) else (.eagain, s)

/-- `req_session_t::push_msg`. -/
def pushMsg (takes : Bool) (m : Msg) (s : ReqSession) : PushResult × ReqSession :=
  match s.state with
  | .bottom =>
    if m.flags = frameFlags true ∧ m.body = [] then { s with state := .body }.basePushMsg takes m
    else (.efault, s)
  | .body =>
    if m.flags = frameFlags true then s.basePushMsg takes m
    else if m.flags = .none then { s with state := .bottom }.basePushMsg takes m
    else (.efault, s)

/-- `req_session_t::reset`. -/
def reset (s : ReqSession) : ReqSession := { s with state := .bottom }

/-- One call of `push_msg`, with what the pipe answers. `EFAULT` makes the engine give up. -/
def push (s : ReqSession) (call : Msg × Bool) : Except PushResult ReqSession :=
  match s.pushMsg call.2 call.1 with
  | (.efault, _) => .error .efault
  | (_, s) => .ok s

/-- The calls for a frame the pipe refuses a number of times before it takes it. -/
def calls (offer : Msg × ℕ) : List (Msg × Bool) := List.replicate offer.2 (offer.1, false) ++ [(offer.1, true)]

/-- Every frame is pushed until the pipe takes it, one after the other. -/
def pushAll (s : ReqSession) (offers : List (Msg × ℕ)) : Except PushResult ReqSession :=
  runSteps push s (offers.flatMap calls)

/-! ### One frame -/

variable {pushed : List Msg} {m : Msg} {n : ℕ}

/-- A frame that is let in and does not move the filter to another state may be refused any number of
times. -/
lemma pushAll_of_stable {s : ReqSession} (hrefused : s.push (m, false) = .ok s) :
    s.pushAll [(m, n)] = s.pushAll [(m, 0)] := by
  simp only [pushAll, flatMap_cons, flatMap_nil, append_nil, calls]
  induction n with
  | zero => rfl
  | succ n ih => rw [replicate_succ, cons_append, runSteps_cons_ok hrefused, ih]

lemma pushAll_unrefused (s : ReqSession) : s.pushAll [(m, 0)] = s.push (m, true) := by
  simp only [pushAll, flatMap_cons, flatMap_nil, append_nil, calls, replicate_zero, nil_append, runSteps]
  cases s.push (m, true) <;> rfl

lemma pushAll_body (hm : m.flags = frameFlags true) :
    pushAll ⟨.body, pushed⟩ [(m, n)] = .ok ⟨.body, pushed ++ [m]⟩ := by
  have hrefused : push ⟨.body, pushed⟩ (m, false) = .ok ⟨.body, pushed⟩ := by
    simp [push, pushMsg, basePushMsg, hm]
  rw [pushAll_of_stable hrefused, pushAll_unrefused]
  simp [push, pushMsg, basePushMsg, hm]

/-- The empty frame is let in. If it is refused the filter goes on to the next state, in which it lets
the frame in as well. -/
lemma pushAll_bottom : pushAll ⟨.bottom, pushed⟩ [(bottomFrame, n)] = .ok ⟨.body, pushed ++ [bottomFrame]⟩ := by
  cases n with
  | zero => rfl
  | succ n =>
    have hrefused : push ⟨.bottom, pushed⟩ (bottomFrame, false) = .ok ⟨.body, pushed⟩ := rfl
    have hretried : pushAll ⟨.body, pushed⟩ [(bottomFrame, n)] = .ok ⟨.body, pushed ++ [bottomFrame]⟩ :=
      pushAll_body rfl
    simp only [pushAll, flatMap_cons, flatMap_nil, append_nil, calls] at hretried ⊢
    rw [replicate_succ, cons_append, runSteps_cons_ok hrefused, hretried]

/-- The last frame of a reply is let in if the pipe takes it at once. If the pipe refuses it the filter
already expects the next reply, and the second attempt is an error. -/
lemma pushAll_last (hm : m.flags = MsgFlags.none) :
    pushAll ⟨.body, pushed⟩ [(m, n)] =
      if n = 0 then .ok ⟨.bottom, pushed ++ [m]⟩ else .error .efault := by
  have hmore : MsgFlags.none ≠ frameFlags true := by decide
  have hretried : ∀ takes, push ⟨.bottom, pushed⟩ (m, takes) = .error .efault := by
    intro takes
    simp [push, pushMsg, hm, hmore]
  cases n with
  | zero =>
    rw [pushAll_unrefused]
    simp [push, pushMsg, basePushMsg, hm, hmore]
  | succ n =>
    have hrefused : push ⟨.body, pushed⟩ (m, false) = .ok ⟨.bottom, pushed⟩ := by
      simp [push, pushMsg, basePushMsg, hm, hmore]
    simp only [pushAll, flatMap_cons, flatMap_nil, append_nil, calls, replicate_succ, cons_append]
    rw [runSteps_cons_ok hrefused]
    cases n with
    | zero => simp [runSteps, hretried]
    | succ n => simp [replicate_succ, runSteps, hretried]

lemma pushAll_wrong (hm : ¬(m.flags = frameFlags true ∧ m.body = [])) :
    pushAll ⟨.bottom, pushed⟩ [(m, n)] = .error .efault := by
  have hpush : ∀ takes, push ⟨.bottom, pushed⟩ (m, takes) = .error .efault := by
    intro takes
    simp [push, pushMsg, hm]
  simp only [pushAll, flatMap_cons, flatMap_nil, append_nil, calls]
  cases n with
  | zero => simp [runSteps, hpush]
  | succ n => simp [replicate_succ, runSteps, hpush]

/-! ### Many frames -/

variable {s s' : ReqSession} {offers rest : List (Msg × ℕ)}

lemma pushAll_append (h : s.pushAll offers = .ok s') (rest : List (Msg × ℕ)) :
    s.pushAll (offers ++ rest) = s'.pushAll rest := by
  rw [pushAll, flatMap_append]
  exact runSteps_append h _

lemma pushAll_append_error {e : PushResult} (h : s.pushAll offers = .error e)
    (rest : List (Msg × ℕ)) :
    s.pushAll (offers ++ rest) = .error e := by
  rw [pushAll, flatMap_append]
  exact runSteps_append_error h _

lemma pushAll_bodies (h : ∀ o ∈ offers, o.1.flags = frameFlags true) :
    pushAll ⟨.body, pushed⟩ offers = .ok ⟨.body, pushed ++ offers.map fst⟩ := by
  induction offers generalizing pushed with
  | nil => simp [pushAll, runSteps]
  | cons o offers ih =>
    have hhead : pushAll ⟨.body, pushed⟩ [o] = .ok ⟨.body, pushed ++ [o.1]⟩ := pushAll_body (h o mem_cons_self)
    rw [← singleton_append, pushAll_append hhead]
    rw [ih fun o ho => h o (mem_cons_of_mem _ ho)]
    simp

/-- No frame that ends a message is refused. -/
def TakesLast (offers : List (Msg × ℕ)) : Prop := ∀ o ∈ offers, o.1.more = false → o.2 = 0

instance (offers : List (Msg × ℕ)) : Decidable (TakesLast offers) :=
  inferInstanceAs (Decidable (∀ o ∈ offers, o.1.more = false → o.2 = 0))

lemma takesLast_append : TakesLast (offers ++ rest) ↔ TakesLast offers ∧ TakesLast rest := by
  simp only [TakesLast, mem_append, or_imp, forall_and]

/-- A reply without a request id gets through if its last frame is not refused, and leads to an error if
it is. -/
lemma pushAll_tail {r : Reply} (h : offers.map fst = r.tail) :
    pushAll ⟨.bottom, pushed⟩ offers =
      if TakesLast offers then .ok ⟨.bottom, pushed ++ r.tail⟩ else .error .efault := by
  rw [Reply.tail, cons_append] at h
  obtain ⟨⟨m, n⟩, offers, rfl, hbottom, h⟩ := map_eq_cons_iff.mp h
  obtain ⟨body, last, rfl, hbody, hlast⟩ := map_eq_append_iff.mp h
  obtain ⟨⟨m', k⟩, last, rfl, hm', hnil⟩ := map_eq_cons_iff.mp hlast
  rw [map_eq_nil_iff] at hnil
  subst hbottom hm' hnil
  have hmore : ∀ o ∈ body, o.1.flags = frameFlags true := by
    intro o ho
    have hmem : o.1 ∈ body.map fst := mem_map_of_mem ho
    rw [hbody] at hmem
    obtain ⟨bytes, -, hframe⟩ := mem_map.mp hmem
    rw [← hframe]
  have hbodies : TakesLast body := by
    intro o ho hlast
    rw [Msg.more, hmore o ho] at hlast
    cases hlast
  have htakes : TakesLast ((bottomFrame, n) :: (body ++ [(⟨.data, frameFlags false, r.last⟩, k)])) ↔ k = 0 := by
    rw [← singleton_append, takesLast_append, takesLast_append]
    have hfirst : TakesLast [(bottomFrame, n)] := by
      simp [TakesLast, bottomFrame, frameFlags, Msg.more]
    have hlast : TakesLast [(⟨.data, frameFlags false, r.last⟩, k)] ↔ k = 0 := by
      simp [TakesLast, frameFlags, Msg.more]
    simp only [hfirst, hbodies, hlast, true_and]
  have hbottom : pushAll ⟨.bottom, pushed⟩ [(bottomFrame, n)] = .ok ⟨.body, pushed ++ [bottomFrame]⟩ :=
    pushAll_bottom
  have hrun := pushAll_append hbottom (body ++ [(⟨.data, frameFlags false, r.last⟩, k)])
  rw [singleton_append, pushAll_append (pushAll_bodies hmore), hbody,
    pushAll_last (m := ⟨.data, frameFlags false, r.last⟩) rfl] at hrun
  rw [hrun]
  simp only [htakes, Reply.tail, append_assoc, cons_append, nil_append]

lemma pushAll_frames {r : Reply} (h : offers.map fst = r.frames) :
    pushAll ⟨.bottom, pushed⟩ offers =
      if r.id = none ∧ TakesLast offers then .ok ⟨.bottom, pushed ++ r.frames⟩
      else .error .efault := by
  cases hid : r.id with
  | none =>
    have hframes : r.frames = r.tail := by simp [Reply.frames, hid]
    rw [hframes] at h ⊢
    rw [pushAll_tail h]
    simp
  | some id =>
    have hframes : r.frames = requestIdFrame id :: r.tail := by simp [Reply.frames, hid]
    rw [hframes] at h
    obtain ⟨⟨m, n⟩, offers, rfl, hm, -⟩ := map_eq_cons_iff.mp h
    subst hm
    have hwrong : ¬((requestIdFrame id).flags = frameFlags true ∧ (requestIdFrame id).body = []) := by
      simp [requestIdFrame, uint32Bytes]
    rw [← singleton_append, pushAll_append_error (pushAll_wrong hwrong)]
    simp

lemma pushAll_replies {replies : List Reply} (h : offers.map fst = replies.flatMap Reply.frames) :
    pushAll ⟨.bottom, pushed⟩ offers =
      if (∀ r ∈ replies, r.id = none) ∧ TakesLast offers then
        .ok ⟨.bottom, pushed ++ replies.flatMap Reply.frames⟩
      else .error .efault := by
  induction replies generalizing pushed offers with
  | nil =>
    rw [flatMap_nil, map_eq_nil_iff] at h
    subst h
    simp [pushAll, runSteps, TakesLast]
  | cons r replies ih =>
    rw [flatMap_cons] at h
    obtain ⟨first, offers, rfl, hfirst, hoffers⟩ := map_eq_append_iff.mp h
    have hr : pushAll ⟨.bottom, pushed⟩ first = _ := pushAll_frames hfirst
    by_cases hgood : r.id = none ∧ TakesLast first
    · rw [if_pos hgood] at hr
      rw [pushAll_append hr, ih hoffers]
      simp [takesLast_append, hgood.1, hgood.2]
    · rw [if_neg hgood] at hr
      rw [pushAll_append_error hr, if_neg]
      intro hall
      exact hgood ⟨hall.1 r mem_cons_self, (takesLast_append.mp hall.2).1⟩

end ReqSession

open ReqSession in
/-- A session that waits for a reply, in its first connection or after a reset, lets a stream of replies
in, every frame once and in order and without `EFAULT`, if and only if the engine has no credential to
push, no reply has a request id, and the pipe never refuses the last frame of a reply. -/
theorem req_session_takes_replies_iff (s : ReqSession) (userId : List UInt8) (replies : List Reply)
    (offers : List (Msg × ℕ)) (h : offers.map fst = replyStream userId replies) :
    (∃ s', s.reset.pushAll offers = .ok s' ∧ s'.pushed = s.pushed ++ replyStream userId replies) ↔
      userId = [] ∧ (∀ r ∈ replies, r.id = none) ∧ TakesLast offers := by
  by_cases huser : userId = []
  · have hstream : replyStream userId replies = replies.flatMap Reply.frames := by
      simp [replyStream, userIdFrames, huser]
    rw [hstream] at h ⊢
    rw [reset, pushAll_replies h]
    split
    · next hgood => simpa [huser] using hgood
    · next hbad => simpa [huser] using hbad
  · have hstream : replyStream userId replies =
        ⟨.data, { MsgFlags.none with credential := true }, userId⟩ :: replies.flatMap Reply.frames := by
      simp [replyStream, userIdFrames, huser]
    rw [hstream] at h
    obtain ⟨⟨m, n⟩, offers, rfl, hm, -⟩ := map_eq_cons_iff.mp h
    have hwrong : ¬(m.flags = frameFlags true ∧ m.body = []) := by
      rw [show m = _ from hm]
      simp [huser]
    rw [← singleton_append, reset, pushAll_append_error (pushAll_wrong hwrong)]
    simp [huser]

/-- Two replies, whose first frames are refused once and twice. -/
theorem req_session_takes_two_replies :
    let replies : List Reply := [⟨none, [[1], [2]], [3]⟩, ⟨none, [], []⟩]
    let offers := (replyStream [] replies).zip [1, 0, 3, 0, 2, 0]
    ∃ s', (⟨.bottom, []⟩ : ReqSession).reset.pushAll offers = .ok s' ∧ s'.pushed = [] ++ replyStream [] replies :=
  (req_session_takes_replies_iff ⟨.bottom, []⟩ [] _ _ (by decide)).mpr (by decide)

/-- A reply of one frame that is refused once, a reply with a request id, and a reply behind a
credential. -/
theorem req_session_refuses_replies :
    (⟨.bottom, []⟩ : ReqSession).reset.pushAll ((replyStream [] [⟨none, [], [7]⟩]).zip [0, 1]) = .error .efault ∧
      (⟨.bottom, []⟩ : ReqSession).reset.pushAll
        ((replyStream [] [⟨some 5, [], [7]⟩]).zip [0, 0, 0]) = .error .efault ∧
      (⟨.bottom, []⟩ : ReqSession).reset.pushAll
        ((replyStream [117] [⟨none, [], [7]⟩]).zip [0, 0, 0]) = .error .efault := by
  decide

end Zmq
