import ZeroMQ.Pattern.ReqReply

/-!
# Request ids

With `ZMQ_REQ_CORRELATE` a request begins with a frame that holds the request id, and a reply is taken
only if it begins with the id of the latest request. The frame does not hold the id, it points to the
field of the socket; so what leaves the pipe is the id the socket has at that time, and a frame that a
peer in the same process sends back always matches.

The id is the right one as long as no request is begun while the id frame of an earlier one is still in
a pipe, frames are sent back as they are only while their request is the latest, and ids do not repeat
before the counter wraps around. `req_correlates` shows that under these conditions every id frame leaves
with the id of its request and that of all replies to requests that were sent exactly those to the latest
one are taken.
-/

namespace Zmq

open Foundation List Ensures

/-! ### Ids -/

lemma toNat_uint32Bytes (a : UInt32) : (uint32Bytes a).map UInt8.toNat =
    [a.toNat % 256, a.toNat / 2 ^ 8 % 256, a.toNat / 2 ^ 16 % 256, a.toNat / 2 ^ 24 % 256] := by
  simp only [uint32Bytes, map_cons, map_nil, UInt32.toNat_toUInt8,
    UInt32.toNat_shiftRight, Nat.shiftRight_eq_div_pow]
  rfl

lemma uint32Bytes_injective : Function.Injective uint32Bytes := by
  intro a b h
  have hmap := congrArg (map UInt8.toNat) h
  rw [toNat_uint32Bytes, toNat_uint32Bytes] at hmap
  simp only [cons.injEq, and_true] at hmap
  obtain ⟨h0, h1, h2, h3⟩ := hmap
  have ha := a.toNat_lt
  have hb := b.toNat_lt
  apply UInt32.toNat.inj
  omega

lemma add_ofNat_eq_iff (start : UInt32) {i j : ℕ} (hi : i < 2 ^ 32) (hj : j < 2 ^ 32) :
    start + UInt32.ofNat i = start + UInt32.ofNat j ↔ i = j := by
  refine ⟨fun h => ?_, fun h => by rw [h]⟩
  have hnat := congrArg UInt32.toNat ((UInt32.add_right_inj start).mp h)
  rwa [UInt32.toNat_ofNat_of_lt' hi, UInt32.toNat_ofNat_of_lt' hj] at hnat

namespace Req

variable {s t : Req} {n k : ℕ} {m : Msg}

/-- The frame holds what was there when it was made, as far as this depends on the request id. -/
def Fresh (id : UInt32) (m : Msg) : Prop := m.type = .cmsg → m.body = uint32Bytes id

/-- No pipe holds an id frame. -/
def IdsLeft (s : Req) : Prop := s.dealer.Holds fun m => m.type ≠ .cmsg

/-- The call of `xsend` increases the request id. -/
def BeginsWithId (s : Req) : Prop :=
  ¬(s.receivingReply = true ∧ s.strict = true) ∧ (s.receivingReply = true ∨ s.messageBegins = true) ∧
    s.requestIdFramesEnabled = true

/-- A request is begun only when no id frame is left in a pipe, and the counter does not wrap around; an
id frame is sent back as it is only if its request is the latest. -/
def Spaced (s : Req) : ReqAct → Prop
  | .send _ _ _ => s.BeginsWithId → s.IdsLeft ∧ s.increments + 1 < 2 ^ 32
  | .echo _ id => id = s.requestId
  | _ => True

instance (s : Req) (a : ReqAct) : Decidable (s.Spaced a) :=
  match a with
  | .send _ _ _ => inferInstanceAs (Decidable (_ ∧ _ ∧ _ → (∀ p < _, _) ∧ _))
  | .echo _ _ => inferInstanceAs (Decidable (_ = _))
  | .attach _ _ | .recv _ _ | .hasIn | .hasOut | .setCorrelate _ | .setRelaxed _ | .setProbeRouter _
  | .owner _ _ | .peer _ _ => inferInstanceAs (Decidable True)

lemma content_of_fresh (h : Fresh s.requestId m) : s.content m = m.body := by
  unfold content
  split
  · next hc => exact (h hc).symm
  · rfl

/-- Every id frame in a pipe points to the id of its request, and the ids are counted. -/
structure IdInv (start : UInt32) (s : Req) : Prop where
  fresh : s.dealer.Holds (Fresh s.requestId)
  counted : s.requestId = start + UInt32.ofNat s.increments
  bounded : s.increments < 2 ^ 32

namespace IdInv

variable {start : UInt32}

lemma fresh_delimiter (id : UInt32) : Fresh id Msg.initDelimiter := fun h => (by cases h)

lemma fresh_data (id : UInt32) (flags : MsgFlags) (body : List UInt8) :
    Fresh id ⟨.data, flags, body⟩ := fun h => (by cases h)

lemma withDealer (h : IdInv start s) {d : Dealer} (hd : d.Holds (Fresh s.requestId)) :
    IdInv start { s with dealer := d } := ⟨hd, h.counted, h.bounded⟩

lemma of_same (h : IdInv start s) (hdealer : t.dealer = s.dealer) (hid : t.requestId = s.requestId)
    (hinc : t.increments = s.increments) : IdInv start t := by
  refine ⟨?_, ?_, ?_⟩
  · rw [hdealer, hid]
    exact h.fresh
  · rw [hid, hinc]
    exact h.counted
  · rw [hinc]
    exact h.bounded

lemma received {P : Msg → Prop} {d d' : Dealer} (hd : d.Received d') (h : d.Holds P) : d'.Holds P := by
  induction hd with
  | refl => exact h
  | tail _ hstep ih =>
    obtain ⟨f, hrecv⟩ := hstep
    exact Dealer.recvpipe_holds ih _ hrecv

/-! ### Sending -/

lemma sendEnvelope (h : IdInv start s) (hm : Fresh s.requestId m) :
    Ensures (s.sendEnvelope m) fun r => IdInv start r.2 := by
  unfold Req.sendEnvelope
  split
  · exact .error _
  · next d hsend => exact .ok (h.withDealer (Dealer.sendpipe_holds h.fresh hm _ hsend))
  · next d hsend => exact .ok (h.withDealer (Dealer.sendpipe_holds h.fresh hm _ hsend))
  · next p d hsend =>
    exact .ok ((h.withDealer (Dealer.sendpipe_holds h.fresh hm _ hsend)).of_same rfl rfl rfl)

lemma sendId (h : IdInv start s)
    (hspaced : s.requestIdFramesEnabled = true → s.IdsLeft ∧ s.increments + 1 < 2 ^ 32) :
    Ensures s.sendId fun r => IdInv start r.2 := by
  unfold Req.sendId
  split
  · next henabled =>
    obtain ⟨hleft, hbound⟩ := hspaced henabled
    have hnext : IdInv start { s with requestId := s.requestId + 1, increments := s.increments + 1 } := by
      refine ⟨fun p hp => ?_, ?_, hbound⟩
      · obtain ⟨hnear, hfar⟩ := hleft p hp
        exact ⟨fun m hm hc => absurd hc (hnear m hm), fun m hm hc => absurd hc (hfar m hm)⟩
      · simp only [h.counted, UInt32.ofNat_add]
        exact UInt32.add_assoc _ _ _
    exact hnext.sendEnvelope fun _ => rfl
  · exact .ok h

lemma eat (h : IdInv start s) (n : ℕ) : Ensures (s.eat n) (IdInv start) := by
  refine (eat_spec n s).mono ?_
  rintro t ⟨d, hd, rfl⟩
  exact h.withDealer (received hd h.fresh)

lemma beginRequest (h : IdInv start s)
    (hspaced : s.requestIdFramesEnabled = true → s.IdsLeft ∧ s.increments + 1 < 2 ^ 32) (n : ℕ) :
    Ensures (s.beginRequest n) fun r => IdInv start r.2 := by
  have hs : IdInv start { s with replyPipe := none } := h.of_same rfl rfl rfl
  unfold Req.beginRequest
  split
  · exact .error _
  · next t hid => exact .ok (hs.sendId hspaced _ hid)
  · next t hid =>
    have ht : IdInv start t := hs.sendId hspaced _ hid
    split
    · exact .error _
    · next u hbottom => exact .ok (ht.sendEnvelope (fresh_data _ _ _) _ hbottom)
    · next u hbottom =>
      have hu : IdInv start u := ht.sendEnvelope (fresh_data _ _ _) _ hbottom
      split
      · exact .error _
      split
      · exact .error _
      · next v heat =>
        have hv : IdInv start { u with messageBegins := false } := hu.of_same rfl rfl rfl
        exact .ok (hv.eat n _ heat)

lemma sendBody (h : IdInv start s) (flags : MsgFlags) (body : List UInt8) :
    Ensures (s.sendBody ⟨.data, flags, body⟩) fun r => IdInv start r.2 := by
  unfold Req.sendBody
  split
  · exact .error _
  · next d hsend =>
    exact .ok (h.withDealer (Dealer.sendpipe_holds h.fresh (fresh_data _ _ _) _ hsend))
  · next r d _ hsend =>
    have hd : IdInv start { s with dealer := d } :=
      h.withDealer (Dealer.sendpipe_holds h.fresh (fresh_data _ _ _) _ hsend)
    split
    · exact .ok hd
    · exact .ok (hd.of_same rfl rfl rfl)

lemma abandonReply_holds {P : Msg → Prop} (hdelim : P Msg.initDelimiter) (h : s.dealer.Holds P) :
    Ensures s.abandonReply fun t => t.dealer.Holds P := by
  unfold abandonReply
  split
  · split
    · exact .error _
    · next t hterm =>
      unfold terminateReplyPipe at hterm
      split at hterm
      · cases hterm
        exact .ok h
      split at hterm
      · cases hterm
      · next d hd =>
        cases hterm
        exact .ok (Dealer.terminate_holds h hdelim _ _ _ hd)
  · exact .ok h

lemma xsend (h : IdInv start s) (n : ℕ) (flags : MsgFlags) (body : List UInt8)
    (hspaced : s.Spaced (.send n flags body)) :
    Ensures (s.xsend n ⟨.data, flags, body⟩) fun r => IdInv start r.2 := by
  unfold Req.xsend
  split
  · exact .ok h
  next hturn =>
  split
  · exact .error _
  next t hab =>
  have hfresh := abandonReply_holds (fresh_delimiter s.requestId) h.fresh t hab
  have hleft : s.IdsLeft → t.IdsLeft := fun hids => abandonReply_holds (by decide) hids t hab
  obtain ⟨d, rfl⟩ := abandonReply_spec s _ hab
  have ht : IdInv start { s with dealer := d, receivingReply := false
                                 messageBegins := s.receivingReply || s.messageBegins } :=
    (h.withDealer hfresh).of_same rfl rfl rfl
  split
  · next hbegins =>
    have hspaced' := fun henabled => hspaced ⟨hturn, by simpa using hbegins, henabled⟩
    have hbegin := ht.beginRequest (fun henabled => ⟨hleft (hspaced' henabled).1, (hspaced' henabled).2⟩) n
    split
    · exact .error _
    · next u heq => exact .ok (hbegin _ heq)
    · next u heq => exact sendBody (hbegin _ heq) flags body
  · exact ht.sendBody flags body

lemma xrecv (h : IdInv start s) (n k : ℕ) : Ensures (s.xrecv n k) fun r => IdInv start r.2 := by
  refine (xrecv_spec n k s).mono ?_
  intro r hr
  cases hr with
  | refused => exact h
  | failed d b _ hd | frame f d _ hd | last f d _ hd => exact (h.withDealer (received hd h.fresh)).of_same rfl rfl rfl

lemma step (h : IdInv start s) (a : ReqAct) (ha : s.Spaced a) : Ensures (s.step a) (IdInv start) := by
  have hdelim := fresh_delimiter s.requestId
  cases a with
  | attach hwm0 hwm1 =>
    simp only [Req.step]
    split
    · exact .error _
    · next d hd => exact .ok (h.withDealer (Dealer.xattachPipe_holds h.fresh (fresh_data _ _ _) _ _ _ hd))
  | send n flags body => exact map (h.xsend n flags body ha)
  | recv n k => exact map (h.xrecv n k)
  | hasIn =>
    refine map ?_
    unfold xhasIn
    split
    · split
      · exact .error _
      · next b d hd => exact .ok (h.withDealer (Dealer.xhasIn_holds h.fresh _ hd))
    · exact .ok h
  | hasOut =>
    refine map ?_
    unfold xhasOut
    split
    · exact .ok h
    · split
      · exact .error _
      · next b d hd => exact .ok (h.withDealer (Dealer.xhasOut_holds h.fresh _ hd))
  | setCorrelate value | setRelaxed value => exact .ok (h.of_same rfl rfl rfl)
  | setProbeRouter value => exact .ok (h.withDealer h.fresh)
  | owner p act =>
    simp only [Req.step]
    split
    · split
      · exact .error _
      · next d hd =>
        exact .ok ((h.withDealer (Dealer.owner_holds h.fresh hdelim p act _ hd)).of_same rfl rfl rfl)
      · next d e _ hd => exact .ok (h.withDealer (Dealer.owner_holds h.fresh hdelim p act _ hd))
    · exact .ok h
  | peer p act =>
    simp only [Req.step]
    split
    · split
      · exact .error _
      · next d hd =>
        exact .ok (h.withDealer (Dealer.peer_holds h.fresh hdelim (fresh_data _) p act _ hd))
    · exact .ok h
  | echo p id =>
    obtain rfl : id = s.requestId := ha
    simp only [Req.step]
    split
    · split
      · exact .error _
      · next d hd => exact .ok (h.withDealer (Dealer.echo_holds h.fresh (fun _ => rfl) p _ hd))
    · exact .ok h

end IdInv

end Req

/-! ### Replies -/

/-- These frames are received next. -/
inductive Dealer.Yields : Dealer → List FrameFrom → Dealer → Prop
  | nil (d : Dealer) : Yields d [] d
  | cons {d d₁ d₂ : Dealer} {f : FrameFrom} {fs : List FrameFrom} (hrecv : d.recvpipe = .ok (some f, d₁))
      (hrest : Yields d₁ fs d₂) : Yields d (f :: fs) d₂

namespace Req

variable {s : Req} {n k p : ℕ} {d d' : Dealer} {m : Msg} {fs : List Msg}

/-- A frame with which a reply to the request begins: a copy of the id frame, or the frame itself. -/
def IdFrame (id : UInt32) (m : Msg) : Prop := m = requestIdFrame id ∨ m = idMsg id

lemma recvReplyPipe_takes (hp : s.TakesFrom p) (hrecv : s.dealer.recvpipe = .ok (some (m, p), d))
    (hn : 0 < n) : s.recvReplyPipe n = .ok (some (m, p), { s with dealer := d }) := by
  obtain ⟨n, rfl⟩ : ∃ n', n = n' + 1 := ⟨n - 1, by omega⟩
  rw [recvReplyPipe, hrecv]
  exact if_pos hp

lemma skipRest_whole (hp : s.TakesFrom p) (hfs : s.dealer.Yields (fs.map (·, p)) d')
    (hwhole : Whole Msg.more (m :: fs)) (hn : 0 < n) (hk : fs.length ≤ k) :
    s.skipRest n k m = .ok { s with dealer := d' } := by
  obtain ⟨first, last, hsplit, hfirst, hlast⟩ := hwhole
  induction fs generalizing s m k first with
  | nil =>
    obtain ⟨rfl, rfl⟩ : first = [] ∧ m = last := by
      cases first with
      | nil => simpa using hsplit
      | cons f first => simp at hsplit
    cases hfs
    cases k <;> rw [skipRest, hlast] <;> rfl
  | cons f fs ih =>
    obtain ⟨k, rfl⟩ : ∃ k', k = k' + 1 := ⟨k - 1, by simp at hk; omega⟩
    cases first with
    | nil => simp at hsplit
    | cons m' first =>
      obtain ⟨rfl, hrest⟩ := cons.inj hsplit
      cases hfs with
      | @cons _ d1 _ _ _ hrecv htail =>
        rw [skipRest, if_pos (hfirst m mem_cons_self), recvReplyPipe_takes hp hrecv hn]
        have := ih (s := { s with dealer := d1 }) (m := f) (k := k) hp htail (by simpa using hk) first hrest
          (fun x hx => hfirst x (mem_cons_of_mem _ hx))
        exact this

/-- A reply from a pipe from which frames are taken: if it begins with the request id, its first frame is
returned, and otherwise it is skipped as a whole. -/
lemma xrecv_reply {id : UInt32} {r : Reply} (hmore : m.more = true) (hid : s.content m = uint32Bytes id)
    (hwaits : s.receivingReply = true) (hbegins : s.messageBegins = true)
    (henabled : s.requestIdFramesEnabled = true) (hp : s.TakesFrom p)
    (hyields : s.dealer.Yields ((m :: r.tail).map (·, p)) d') (hn : r.tail.length < n) :
    if id = s.requestId then ∃ f s', r.tail[1]? = some f ∧ s.xrecv n (k + 1) = .ok (.ok (f, p), s')
    else s.xrecv n (k + 1) = { s with dealer := d' }.xrecv n k := by
  have hpos : 0 < n := by omega
  rw [map_cons] at hyields
  cases hyields with
  | @cons _ d1 _ _ _ hrecv htail =>
  have hfirst := recvReplyPipe_takes hp hrecv hpos
  split
  · next heq =>
    -- the id and the empty frame are right, and the next frame is returned
    obtain ⟨f, rest, hparts⟩ : ∃ f rest, r.tail = bottomFrame :: f :: rest := by
      rw [Reply.tail, cons_append]
      cases hbody : r.body.map (fun x => (⟨.data, frameFlags true, x⟩ : Msg)) with
      | nil => exact ⟨_, [], rfl⟩
      | cons f rest => exact ⟨f, rest ++ [_], rfl⟩
    rw [hparts, map_cons, map_cons] at htail
    cases htail with
    | @cons _ d2 _ _ _ hrecv2 htail =>
    cases htail with
    | @cons _ d3 _ _ _ hrecv3 _ =>
    have hbottom := recvReplyPipe_takes (s := { s with dealer := d1 }) hp hrecv2 hpos
    have hbody := recvReplyPipe_takes (s := { s with dealer := d2, messageBegins := false }) hp hrecv3 hpos
    have henvelope : s.matchEnvelope n = .ok (.found, { s with dealer := d2, messageBegins := false }) := by
      have hmatches : MatchesId m { s with dealer := d1 } := ⟨hmore, hid.trans (heq ▸ rfl)⟩
      have hempty : matchBottom n { s with dealer := d1 } =
          .ok (.found, { s with dealer := d2, messageBegins := false }) := by
        rw [matchBottom, hbottom]
        exact if_pos ⟨rfl, rfl⟩
      rw [matchEnvelope, if_pos henabled, hfirst]
      exact (if_pos hmatches).trans hempty
    have hdone : matchLoop n k { s with dealer := d2, messageBegins := false } =
        .ok (true, { s with dealer := d2, messageBegins := false }) := by
      cases k <;> simp [matchLoop]
    have hloop : s.matchLoop n (k + 1) = .ok (true, { s with dealer := d2, messageBegins := false }) := by
      rw [matchLoop, if_pos hbegins, henvelope]
      exact hdone
    refine ⟨f, ?_⟩
    simp only [xrecv, if_pos hwaits, hloop, recvBody, hbody]
    split
    · exact ⟨_, by simp [hparts], rfl⟩
    · exact ⟨_, by simp [hparts], rfl⟩
  · next hne =>
    have hwhole : Whole Msg.more (m :: r.tail) := by
      refine ⟨m :: bottomFrame :: r.body.map (⟨.data, frameFlags true, ·⟩),
        ⟨.data, frameFlags false, r.last⟩, rfl, ?_, rfl⟩
      intro f hf
      simp only [mem_cons, mem_map] at hf
      rcases hf with rfl | rfl | ⟨x, -, rfl⟩
      · exact hmore
      · rfl
      · rfl
    have hskip := skipRest_whole (s := { s with dealer := d1 }) (n := n) (k := n) hp htail hwhole hpos
      hn.le
    have henvelope : s.matchEnvelope n = .ok (.skipped, { s with dealer := d' }) := by
      have hmatches : ¬MatchesId m { s with dealer := d1 } :=
        fun h => hne (uint32Bytes_injective (hid.symm.trans h.2))
      have hskipped : skipMessage n m { s with dealer := d1 } =
          .ok (.skipped, { s with dealer := d' }) := by
        rw [skipMessage, hskip]
      rw [matchEnvelope, if_pos henabled, hfirst]
      exact (if_neg hmatches).trans hskipped
    have hloop : s.matchLoop n (k + 1) = matchLoop n k { s with dealer := d' } := by
      rw [matchLoop, if_pos hbegins, henvelope]
    simp only [xrecv, if_pos hwaits, hloop]

end Req

open Req in
/-- In every run in which no request is begun while the id frame of an earlier one is still in a pipe, an
id frame is sent back as it is only while its request is the latest, and the counter of ids does not wrap
around, an id frame that leaves a pipe holds the id of its request; and a reply to a request, with the
frames of that request's envelope in front, is taken if it is the latest request and skipped if it is
not. -/
theorem req_correlates (start : UInt32) (acts : List ReqAct) (s : Req)
    (hmeet : StepsMeet Req.step Req.Spaced (Req.new start) acts)
    (hrun : (Req.new start).run acts = .ok s) :
    (∀ p < s.dealer.count, ∀ m l, (s.dealer.links p).swap.read = .ok (some m, l) → s.content m = m.body) ∧
    (s.receivingReply = true → s.messageBegins = true → s.requestIdFramesEnabled = true →
      ∀ j ≤ s.increments, ∀ (m : Msg) (r : Reply) (p : ℕ) (d' : Dealer) (n k : ℕ),
        IdFrame (start + UInt32.ofNat j) m → p < s.dealer.count → s.TakesFrom p →
        s.dealer.Yields ((m :: r.tail).map (·, p)) d' → r.tail.length < n →
        if j = s.increments then ∃ f s', r.tail[1]? = some f ∧ s.xrecv n (k + 1) = .ok (.ok (f, p), s')
        else s.xrecv n (k + 1) = { s with dealer := d' }.xrecv n k) := by
  have hnew : IdInv start (Req.new start) := by
    refine ⟨fun p hp => absurd hp (Nat.not_lt_zero p), ?_, Nat.two_pow_pos 32⟩
    exact (UInt32.add_zero start).symm
  have hinv : IdInv start s := runSteps_preserves (fun s a s' hs ha hstep => hs.step a ha s' hstep) hnew hmeet hrun
  constructor
  · intro p hp m l hread
    exact content_of_fresh (((hinv.fresh p hp).swap.read _ hread).2 m rfl)
  · intro hwaits hbegins henabled j hj m r p d' n k hm hp htakes hyields hn
    have hfresh : Fresh s.requestId m := by
      cases hyields with
      | cons hrecv _ => exact Dealer.recvpipe_frame hinv.fresh hp hrecv
    have hid : m.more = true ∧ s.content m = uint32Bytes (start + UInt32.ofNat j) := by
      rw [content_of_fresh hfresh]
      rcases hm with rfl | rfl <;> exact ⟨rfl, rfl⟩
    have hlatest : start + UInt32.ofNat j = s.requestId ↔ j = s.increments := by
      rw [hinv.counted]
      exact add_ofNat_eq_iff start (lt_of_le_of_lt hj hinv.bounded) hinv.bounded
    have hreply := xrecv_reply (k := k) hid.1 hid.2 hwaits hbegins henabled htakes hyields hn
    simpa only [hlatest] using hreply

/-- A request is sent, its frames leave the pipe, the reply is received with the id frame itself, another
request is sent, and the first reply comes once more, with a copy of the id frame. -/
def twoRequests : List ReqAct :=
  [.setCorrelate true, .attach 0 0, .send 3 (frameFlags false) [1], .peer 0 .read, .peer 0 .read,
    .peer 0 .read, .echo 0 1] ++ replyActs 0 [7] ++ [.recv 4 4, .send 3 (frameFlags false) [2],
    .peer 0 (.write (frameFlags true) [1, 0, 0, 0])] ++ replyActs 0 [7]

/-- The second request leaves with its own id, and the reply to the first one is skipped. -/
theorem req_correlates_two_requests :
    ∃ s d', (Req.new 0).run twoRequests = .ok s ∧
      (∃ l, (s.dealer.links 0).swap.read = .ok (some (Req.idMsg 2), l)) ∧
      s.content (Req.idMsg 2) = uint32Bytes 2 ∧ s.xrecv 4 2 = { s with dealer := d' }.xrecv 4 1 := by
  obtain ⟨s, hrun, hcount, hframe, hwaits, hinc, hfirst⟩ : ∃ s, (Req.new 0).run twoRequests = .ok s ∧
      0 < s.dealer.count ∧ (okAnd (s.dealer.links 0).swap.read fun r => r.1 = some (Req.idMsg 2)) ∧
      (s.receivingReply = true ∧ s.messageBegins = true ∧ s.requestIdFramesEnabled = true) ∧
      s.increments = 2 ∧ (s.replyPipe = none ∨ s.replyPipe = some 0) ∧
      okAnd s.dealer.recvpipe fun r => r.1 = some (requestIdFrame 1, 0) ∧
        okAnd r.2.recvpipe fun r => r.1 = some (bottomFrame, 0) ∧
          okAnd r.2.recvpipe fun r => r.1 = some (⟨.data, frameFlags false, [7]⟩, 0) :=
    okAnd.exists (by decide +kernel)
  obtain ⟨⟨m, l⟩, hread, hm⟩ := hframe.exists
  obtain rfl : m = some (Req.idMsg 2) := hm
  obtain ⟨htakes, hfirst⟩ := hfirst
  obtain ⟨⟨_, d1⟩, hrecv1, rfl, hsecond⟩ := hfirst.exists
  obtain ⟨⟨_, d2⟩, hrecv2, rfl, hthird⟩ := hsecond.exists
  obtain ⟨⟨_, d3⟩, hrecv3, rfl⟩ := hthird.exists
  obtain ⟨hleaves, hreplies⟩ := req_correlates 0 twoRequests s (by decide +kernel) hrun
  refine ⟨s, d3, hrun, ⟨l, hread⟩, hleaves 0 hcount _ l hread, ?_⟩
  have hskipped := hreplies hwaits.1 hwaits.2.1 hwaits.2.2 1 (by omega) (requestIdFrame 1) ⟨none, [], [7]⟩ 0 d3
    4 1 (.inl rfl) hcount htakes (.cons hrecv1 (.cons hrecv2 (.cons hrecv3 (.nil d3)))) (by decide)
  rwa [if_neg (by omega)] at hskipped

/-- A relaxed socket sends a second request before the first one has left its pipe. -/
def hastyRequests : List ReqAct :=
  [.setCorrelate true, .setRelaxed true, .attach 0 0, .attach 0 0, .send 3 (frameFlags false) [1],
    .send 3 (frameFlags false) [2]]

/-- The first request leaves with the id of the second. -/
theorem req_id_overwritten :
    ∃ s l, (Req.new 0).run hastyRequests = .ok s ∧
      (s.dealer.links 0).swap.read = .ok (some (Req.idMsg 1), l) ∧
      s.content (Req.idMsg 1) = uint32Bytes 2 ∧ uint32Bytes 2 ≠ uint32Bytes 1 := by
  obtain ⟨s, hrun, hcontent, hframe⟩ : ∃ s, (Req.new 0).run hastyRequests = .ok s ∧
      s.content (Req.idMsg 1) = uint32Bytes 2 ∧
      okAnd (s.dealer.links 0).swap.read fun r => r.1 = some (Req.idMsg 1) :=
    okAnd.exists (by decide +kernel)
  obtain ⟨⟨m, l⟩, hread, hm⟩ := hframe.exists
  obtain rfl : m = some (Req.idMsg 1) := hm
  exact ⟨s, l, hrun, hread, hcontent, by decide⟩

end Zmq
