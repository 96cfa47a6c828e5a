import Mathlib.Data.List.Sublists
import ZeroMQ.Pipe.Inbound

/-!
# Reading across hiccups

The end of a session reads from its pipe and replaces it by a hiccup when its connection is lost. From
then on nothing is in the pipe it reads, until the peer hears of the hiccup and writes to the new pipe;
whatever is in the pipes before it is lost.

`Traffic` is what has happened to the messages of the peer so far, and `Reads` says that the messages the
near end has taken are messages of the peer, whole and in their order, and that it is `pulling` the first
frames of another one.
-/

namespace Zmq

open Foundation List

/-- The messages of the peer, and what the near end has taken of them. -/
structure Traffic where
  /-- The whole messages the peer has written. -/
  written : List (List Msg)
  /-- The frames of the message it is writing. -/
  writing : List Msg
  /-- The whole messages the near end has taken. -/
  pulled : List (List Msg)
  /-- The frames of the message it is taking. -/
  pulling : List Msg
  deriving DecidableEq

namespace Traffic

/-- Nothing has happened. -/
def none : Traffic := ⟨[], [], [], []⟩

/-- The near end takes a frame. -/
def take (g : Traffic) (m : Msg) : Traffic :=
  if m.more then { g with pulling := g.pulling ++ [m] }
  else { g with pulled := g.pulled ++ [g.pulling ++ [m]], pulling := [] }

/-- The peer acts. -/
def far (g : Traffic) (s : Link) (a : EndAct) : Traffic :=
  { g with written := (s.publish a g.written g.writing).1,
           writing := (s.publish a g.written g.writing).2 }

end Traffic

/-- The calls of a socket on its end: it never hiccups, and it writes no credentials. -/
def EndAct.OfSocket : EndAct → Prop
  | .hiccup => False
  | .write flags _ => flags.credential = false
  | _ => True

lemma EndAct.OfSocket.credentialBetween {a : EndAct} (h : a.OfSocket) (pending : List Msg) :
    a.CredentialBetween pending := by
  cases a with
  | write flags body =>
    intro hcred
    rw [(h : flags.credential = false)] at hcred
    exact absurd hcred (by decide)
  | _ => trivial

/-! ### The end and its peer are parted -/

/-- The near end has hiccuped and the peer has not heard of it: nothing is in the pipe the near end
reads. -/
structure Parted (s : Link) : Prop where
  shutdown : ShutdownInv s
  underway : hiccups s.far.inbox ≠ []
  flushed : s.near.frees = 0 → s.inQueue.flushed = []
  complete : s.near.frees = 0 → s.inQueue.complete = []
  incomplete : s.near.frees = 0 → s.inQueue.incomplete = []

namespace Link

variable {s t : Link} {a : EndAct} {e : Option SinkEvent}

lemma Move.frees_eq (hmove : s.Move a t e) (he : e ≠ some .pipeTerminated) :
    t.near.frees = s.near.frees := by
  cases hmove with
  | readFrame credential creds m ms hcan hfl hcreds hm =>
    rw [countRead_near]
    rfl
  | writeFrame i flags body ho hst hfull hi =>
    rw [countWrite_eq]
    rfl
  | flush i hi => split <;> rfl
  | terminate delay i hi hst | terminateWaiting i hi hst =>
    rw [closeOut_near]
    rfl
  | hiccup hst => simp [Link.hiccup, hst]
  | ackAnswer | ackLast => exact absurd rfl he
  | _ => rfl

/-- The next command for the end is a hiccup. -/
def hiccupNext (x : Endpoint) : Bool :=
  match x.inbox with
  | .hiccup _ :: _ => true
  | _ => false

lemma Move.of_hiccuped (hmove : s.Move a t e) (he : e = some .hiccuped) :
    a = .deliver ∧ hiccupNext s.near = true := by
  cases hmove with
  | plug cs i j hin hi => exact ⟨rfl, by simp [hiccupNext, hin]⟩
  | activateRead | activateWrite => split at he <;> simp at he
  | _ => simp at he

lemma Move.hiccups_inbox (hmove : s.Move a t e) :
    (hiccups t.near.inbox = hiccups s.near.inbox) ∨
    (a = .deliver ∧ hiccupNext s.near = true) := by
  have hpop : ∀ {c cs}, s.near.inbox = c :: cs → hiccups [c] = [] →
      hiccups cs = hiccups s.near.inbox := by
    intro c cs hin hc
    have hsplit : hiccups ([c] ++ cs) = hiccups [c] ++ hiccups cs := filterMap_append
    rw [hin, ← singleton_append, hsplit, hc, nil_append]
  cases hmove with
  | readFrame credential creds m ms hcan hfl hcreds hm =>
    rw [countRead_near]
    exact .inl rfl
  | writeFrame i flags body ho hst hfull hi =>
    rw [countWrite_eq]
    exact .inl rfl
  | flush i hi =>
    left
    split <;> exact rfl
  | terminate delay i hi hst | terminateWaiting i hi hst =>
    rw [closeOut_near]
    exact .inl rfl
  | hiccup hst =>
    left
    simp [Link.hiccup, hst]
  | activateRead cs hin | activateWrite cs n hin | pipeTermWait cs hin hst hdelay | pipeTermAck cs hin hst
  | pipeTermCross cs hin hst | ackAnswer cs hin hst | ackLast cs hin hst => exact .inl (hpop hin rfl)
  | plug cs i j hin hi =>
    right
    simp [hiccupNext, hin]
  | _ => exact .inl rfl

end Link

namespace Parted

variable {s t : Link} {a : EndAct} {e : Option SinkEvent}

open Link

lemma hiccups_append_ne {cs ds : List Command} (h : hiccups cs ≠ []) : hiccups (cs ++ ds) ≠ [] := by
  rw [hiccups, filterMap_append]
  intro hnil
  exact h (append_eq_nil_iff.mp hnil).1

lemma of_hiccup (h : ShutdownInv s) (halive : s.near.frees = 0) (hst : s.near.pipe.state = .active) :
    Parted s.hiccup := by
  have hq : s.hiccup.inQueue = Upipe.empty := by simp [inQueue, Link.hiccup, hst]
  refine ⟨h.hiccup halive, ?_, fun _ => by rw [hq]; rfl, fun _ => by rw [hq]; rfl,
    fun _ => by rw [hq]; rfl⟩
  simp [Link.hiccup, hst, hiccups, filterMap_append]

lemma keep (h : Parted s) (halive : s.near.frees = 0) (ha : a.KeepsInput) (hmove : s.Move a t e) :
    Parted t := by
  obtain ⟨cs, hfar⟩ := hmove.far_eq
  have hframe := hmove.inFrame h.shutdown halive ha
  refine ⟨h.shutdown.move halive hmove, ?_, fun ht => ?_, fun ht => ?_, fun ht => ?_⟩
  · rw [hfar]
    exact hiccups_append_ne h.underway
  · rw [hframe.queue ht]
    exact h.flushed halive
  · rw [hframe.queue ht]
    exact h.complete halive
  · rw [hframe.queue ht]
    exact h.incomplete halive

lemma of_empty (h : Parted s) (halive : s.near.frees = 0) (hmove : t = s ∨ s.Move a t none)
    (hq : t.inQueue = { s.inQueue with flushed := [], asleep := true }) : Parted t := by
  rcases hmove with rfl | hmove
  · exact h
  obtain ⟨cs, hfar⟩ := hmove.far_eq
  refine ⟨h.shutdown.move halive hmove, ?_, fun _ => ?_, fun _ => ?_, fun _ => ?_⟩
  · rw [hfar]
    exact hiccups_append_ne h.underway
  · rw [hq]
  · rw [hq]
    exact h.complete halive
  · rw [hq]
    exact h.incomplete halive

lemma read (h : Parted s) (halive : s.near.frees = 0) :
    ∃ t, s.read = .ok (none, t) ∧ Parted t ∧ t.near.frees = 0 := by
  have hk : (skipCredentials s.near.pipe.credential
      (s.upipes s.near.pipe.inpipe).queue.flushed).2 = [] := by
    have hfl : (s.upipes s.near.pipe.inpipe).queue.flushed = [] := h.flushed halive
    rw [hfl]
    rfl
  obtain ⟨-, heq⟩ | ⟨-, -, heq⟩ | ⟨-, m, ms, hm, -⟩ | ⟨-, m, ms, hm, -⟩ :=
    read_cases (h.shutdown.inpipe_live halive)
  · exact ⟨s, heq, h, halive⟩
  · refine ⟨_, heq, h.of_empty halive (move_of_read h.shutdown halive heq) ?_, halive⟩
    exact setInQueue_inQueue s _ _
  · exact absurd (hk.symm.trans hm) (by simp)
  · exact absurd (hk.symm.trans hm) (by simp)

lemma checkRead (h : Parted s) (halive : s.near.frees = 0) :
    ∃ b t, s.checkRead = .ok (b, t) ∧ Parted t ∧ t.near.frees = 0 := by
  have hfl : (s.upipes s.near.pipe.inpipe).queue.flushed = [] := h.flushed halive
  obtain ⟨-, heq⟩ | ⟨-, -, heq⟩ | ⟨-, m, ms, hm, -⟩ | ⟨-, m, ms, hm, -⟩ :=
    checkRead_cases (h.shutdown.inpipe_live halive)
  · exact ⟨false, s, heq, h, halive⟩
  · refine ⟨false, _, heq, h.of_empty halive (move_of_checkRead h.shutdown halive heq) ?_, halive⟩
    exact Inbound.store_inQueue_self s _
  · exact absurd (hfl.symm.trans hm) (by simp)
  · exact absurd (hfl.symm.trans hm) (by simp)

lemma far_outpipe (h : Parted s) (halive : s.near.frees = 0) :
    s.far.pipe.outpipe ≠ some s.near.pipe.inpipe := by
  intro hout
  have hlast := h.shutdown.near_last halive
  have hroute : route s.far s.near = s.near.pipe.inpipe :: hiccups s.far.inbox := by
    rw [route, hout]
  rw [hroute] at hlast
  obtain ⟨j, js, hjs⟩ := exists_cons_of_ne_nil h.underway
  rw [hjs, getLast?_cons_cons] at hlast
  have hnodup := (nodup_append.mp h.shutdown.nodup).2.1
  rw [hroute, hjs] at hnodup
  exact (nodup_cons.mp hnodup).1 (mem_of_getLast? hlast)

lemma far_queue (h : Parted s) (hmove : s.swap.Move a t e) (hnear : s.near.frees = 0) :
    t.swap.inQueue.flushed = [] ∧ t.swap.inQueue.complete = [] ∧ t.swap.inQueue.incomplete = [] := by
  obtain ⟨cs, hfar⟩ := hmove.far_eq
  have hpipe : t.far.pipe = s.near.pipe := by rw [hfar]; rfl
  have hq : t.swap.inQueue = (t.upipes s.near.pipe.inpipe).queue := by
    rw [inQueue, swap_near, hpipe]
    rfl
  rw [hq]
  obtain ⟨hfl, hcomplete, hincomplete⟩ | ⟨hfresh, hempty⟩ :=
    hmove.queue_of_ne (j := s.near.pipe.inpipe) (h.far_outpipe hnear)
  · refine ⟨?_, hcomplete.trans (h.complete hnear), hincomplete.trans (h.incomplete hnear)⟩
    have hnil : (s.upipes s.near.pipe.inpipe).queue.flushed = [] := h.flushed hnear
    rw [swap_upipes, hnil] at hfl
    exact suffix_nil.mp hfl
  · rw [hempty]
    exact ⟨rfl, rfl, rfl⟩

lemma far_move (h : Parted s) (halive : s.far.frees = 0) (hmove : s.swap.Move a t e) :
    Parted t.swap ∨ (a = .deliver ∧ hiccupNext s.far = true ∧ Inbound t.swap [] [] [] []) := by
  obtain ⟨cs, hfar⟩ := hmove.far_eq
  have hfrees : t.far.frees = s.near.frees := by rw [hfar]; rfl
  have hshut := (h.shutdown.swap.move halive hmove).swap
  have hparted : hiccups t.near.inbox ≠ [] → Parted t.swap := by
    intro hne
    refine ⟨hshut, hne, fun hnear => ?_, fun hnear => ?_, fun hnear => ?_⟩
    · exact (h.far_queue hmove (hfrees ▸ hnear)).1
    · exact (h.far_queue hmove (hfrees ▸ hnear)).2.1
    · exact (h.far_queue hmove (hfrees ▸ hnear)).2.2
  by_cases hleft : hiccups t.near.inbox = []
  swap
  · exact .inl (hparted hleft)
  obtain hsame | ⟨rfl, hnext⟩ := hmove.hiccups_inbox
  · rw [hsame] at hleft
    exact absurd hleft h.underway
  refine .inr ⟨rfl, hnext, hshut, fun p hp => ?_, nil_prefix, fun hnear => ?_⟩
  · -- a hiccup carries a pipe, so it would be in the list of pipes
    obtain ⟨j, rfl⟩ := Option.ne_none_iff_exists'.mp (hshut.far.hiccup_some p hp)
    have hmem : j ∈ hiccups t.near.inbox := mem_filterMap.mpr ⟨_, hp, rfl⟩
    rw [hleft] at hmem
    exact absurd hmem (by simp)
  · obtain ⟨hfl, hcomplete, hincomplete⟩ := h.far_queue hmove (hfrees ▸ hnear)
    refine ⟨?_, by rw [hfl]; rfl, by rw [hcomplete]; rfl, fun _ => ⟨hincomplete, by simp⟩⟩
    rw [Upipe.readable, hfl, hcomplete]
    exact Feeds.nil

end Parted

/-! ### Whole messages -/

/-- What the near end has taken are whole messages of the peer, in their order, and the frames it is
pulling. The messages before the last hiccup are `lost` or `taken`; the peer has `published` messages
since it heard of it, and the near end is `done` with the first of them. -/
def Reads (s : Link) (g : Traffic) : Prop :=
  ∃ lost taken published done, g.written = lost ++ published ∧ g.pulled = taken ++ done ∧
    taken <+ lost ∧ (Inbound s published done g.writing g.pulling ∨
      (Parted s ∧ published = [] ∧ done = [] ∧ g.pulling = []))

namespace Inbound

variable {s : Link} {published done : List (List Msg)} {pending cur : List Msg}

open Link

lemma checkRead_mid (h : Inbound s published done pending cur) (halive : s.near.frees = 0)
    (hcur : cur ≠ []) : ∃ b, s.checkRead = .ok (b, s) := by
  have halign := (h.flow halive).flushed
  have hempty : (!cur.isEmpty) = true := by
    cases cur with
    | nil => exact absurd rfl hcur
    | cons => rfl
  rw [hempty] at halign
  obtain ⟨-, heq⟩ | ⟨-, hfl, -⟩ | ⟨-, m, ms, hfl, hm, -⟩ | ⟨-, m, ms, hfl, -, heq⟩ :=
    checkRead_cases (h.shutdown.inpipe_live halive)
  · exact ⟨false, heq⟩
  · rw [inQueue, hfl] at halign
    exact absurd halign (by simp [Aligned])
  · rw [inQueue, hfl] at halign
    exact absurd (halign.1 (by simp [Msg.isPayload, hm])).1 (by simp)
  · rw [store_self] at heq
    exact ⟨true, heq⟩

end Inbound

namespace Reads

variable {s t : Link} {a : EndAct} {e : Option SinkEvent} {g : Traffic}

open Link

lemma sublist (h : Reads s g) : g.pulled <+ g.written := by
  obtain ⟨lost, taken, published, done, hw, hp, hlost, hin | ⟨-, rfl, rfl, -⟩⟩ := h
  · rw [hw, hp]
    exact hlost.append hin.taken.sublist
  · rw [hw, hp]
    exact hlost.append (List.Sublist.refl _)

lemma shutdown (h : Reads s g) : ShutdownInv s := by
  obtain ⟨_, _, _, _, _, _, _, hin | ⟨hpart, _⟩⟩ := h
  · exact hin.shutdown
  · exact hpart.shutdown

lemma pipepair (hwm0 hwm1 : ℤ) : Reads (Link.pipepair hwm0 hwm1) Traffic.none :=
  ⟨[], [], [], [], rfl, rfl, List.Sublist.refl _, .inl (Inbound.pipepair hwm0 hwm1)⟩

lemma keep (h : Reads s g) (halive : s.near.frees = 0) (ha : a.KeepsInput) (hmove : s.Move a t e) :
    Reads t g := by
  obtain ⟨lost, taken, published, done, hw, hp, hlost, hin | ⟨hpart, hrest⟩⟩ := h
  · exact ⟨lost, taken, published, done, hw, hp, hlost, .inl (hin.keep halive ha hmove)⟩
  · exact ⟨lost, taken, published, done, hw, hp, hlost, .inr ⟨hpart.keep halive ha hmove, hrest⟩⟩

lemma read (h : Reads s g) (halive : s.near.frees = 0)
    (hcur : g.pulling ≠ [] → s.near.pipe.inActive = true) :
    (∃ t, s.read = .ok (none, t) ∧ Reads t g ∧ t.near.frees = 0 ∧
      (g.pulling ≠ [] → reading s.near.pipe = false ∧ t = s)) ∨
    (∃ m t, s.read = .ok (some m, t) ∧ Reads t (g.take m) ∧ t.near.frees = 0 ∧
      t.near.pipe.inActive = true) := by
  obtain ⟨lost, taken, published, done, hw, hp, hlost, hin | ⟨hpart, hrest⟩⟩ := h
  swap
  · obtain ⟨t, heq, ht, hfrees⟩ := hpart.read halive
    exact .inl ⟨t, heq, ⟨lost, taken, published, done, hw, hp, hlost, .inr ⟨ht, hrest⟩⟩, hfrees,
      fun hne => absurd hrest.2.2 hne⟩
  by_cases hstop : g.pulling ≠ [] ∧ reading s.near.pipe = false
  · have hcan : canRead s.near.pipe = false := by
      have := hstop.2
      simp only [reading] at this
      simp [canRead, this]
    have heq : s.read = .ok (none, s) := by
      simp only [Link.read, hcan, Bool.not_false, ↓reduceIte]
      rfl
    exact .inl ⟨s, heq, ⟨lost, taken, published, done, hw, hp, hlost, .inl hin⟩, halive,
      fun _ => ⟨hstop.2, rfl⟩⟩
  have hcan : g.pulling ≠ [] → canRead s.near.pipe = true := by
    intro hne
    have hread : reading s.near.pipe = true := by
      by_contra hno
      exact hstop ⟨hne, by simpa using hno⟩
    simp only [reading] at hread
    simp [canRead, hcur hne, hread]
  obtain ⟨t, heq, hnil, ht, hfrees⟩ | ⟨m, t, heq, ht, hfrees, hact⟩ := hin.read halive hcan
  · exact .inl ⟨t, heq, ⟨lost, taken, published, done, hw, hp, hlost, .inl ht⟩, hfrees,
      fun hne => absurd hnil hne⟩
  refine .inr ⟨m, t, heq, ⟨lost, taken, published, if m.more then done else done ++ [g.pulling ++ [m]],
    ?_, ?_, hlost, .inl ?_⟩, hfrees, hact⟩
  · unfold Traffic.take
    split <;> exact hw
  · unfold Traffic.take
    split
    · exact hp
    · simp [hp]
  · cases hm : m.more with
    | true | false => simpa [Traffic.take, hm] using ht

lemma checkRead (h : Reads s g) (halive : s.near.frees = 0) :
    ∃ b t, s.checkRead = .ok (b, t) ∧ Reads t g ∧ t.near.frees = 0 ∧ (g.pulling ≠ [] → t = s) := by
  obtain ⟨lost, taken, published, done, hw, hp, hlost, hin | ⟨hpart, hrest⟩⟩ := h
  · by_cases hcur : g.pulling = []
    · rw [hcur] at hin
      obtain ⟨b, t, heq, ht, hfrees, -⟩ := hin.checkRead halive
      refine ⟨b, t, heq, ⟨lost, taken, published, done, hw, hp, hlost, .inl ?_⟩, hfrees,
        fun hne => absurd hcur hne⟩
      rw [hcur]
      exact ht
    · obtain ⟨b, heq⟩ := hin.checkRead_mid halive hcur
      exact ⟨b, s, heq, ⟨lost, taken, published, done, hw, hp, hlost, .inl hin⟩, halive, fun _ => rfl⟩
  · obtain ⟨b, t, heq, ht, hfrees⟩ := hpart.checkRead halive
    exact ⟨b, t, heq, ⟨lost, taken, published, done, hw, hp, hlost, .inr ⟨ht, hrest⟩⟩, hfrees,
      fun hne => absurd hrest.2.2 hne⟩

lemma hiccup (h : Reads s g) (halive : s.near.frees = 0) (hcur : g.pulling = []) :
    Reads s.hiccup g := by
  by_cases hst : s.near.pipe.state = .active
  · exact ⟨g.written, g.pulled, [], [], by simp, by simp, h.sublist,
      .inr ⟨Parted.of_hiccup h.shutdown halive hst, rfl, rfl, hcur⟩⟩
  · rwa [Link.hiccup, if_pos hst]

lemma far (h : Reads s g) (ha : a.OfSocket)
    (hbetween : a = .deliver → hiccupNext s.far = true → g.writing = []) :
    ∃ t e, s.swap.act a = .ok (t, e) ∧ Reads t.swap (g.far s a) ∧
      t.swap.near.pipe = s.near.pipe ∧ t.swap.near.frees = s.near.frees := by
  have hpub : ∀ published, (s.publish a (published) g.writing).2 =
      (s.publish a g.written g.writing).2 := by
    intro published
    cases a with
    | write flags body =>
      simp only [Link.publish]
      split
      · split <;> rfl
      · rfl
    | _ => rfl
  have happ : ∀ lost published, (s.publish a (lost ++ published) g.writing).1 =
      lost ++ (s.publish a published g.writing).1 := by
    intro lost published
    cases a with
    | write flags body =>
      simp only [Link.publish]
      split
      · split
        · rfl
        · simp
      · rfl
    | _ => rfl
  obtain ⟨lost, taken, published, done, hw, hp, hlost, hin | ⟨hpart, rfl, rfl, hcur⟩⟩ := h
  · obtain ⟨t, e, hact, ht, hpipe, hfrees⟩ := hin.far (ha.credentialBetween g.writing)
    refine ⟨t, e, hact, ⟨lost, taken, (s.publish a published g.writing).1, done, ?_, hp, hlost,
      .inl ?_⟩, hpipe, hfrees⟩
    · rw [Traffic.far, ← happ, hw]
    · rw [hpub published] at ht
      exact ht
  · have hstay : ∀ {u : Link}, Parted u → Reads u (g.far s a) := by
      intro u hu
      refine ⟨(g.far s a).written, taken, [], [], by simp, hp, ?_, .inr ⟨hu, rfl, rfl, hcur⟩⟩
      have hpre : g.written <+: (g.far s a).written := Inbound.prefix_publish s a g.written g.writing
      rw [hw, append_nil] at hpre
      exact hlost.trans hpre.sublist
    obtain ⟨t, e, hact, ⟨rfl, -⟩ | ⟨halive, hmove⟩⟩ := hpart.shutdown.swap.exists_move a
    · exact ⟨s.swap, e, hact, hstay hpart, rfl, rfl⟩
    obtain ⟨cs, hfar⟩ := hmove.far_eq
    refine ⟨t, e, hact, ?_, ?_, ?_⟩
    · obtain ht | ⟨rfl, hnext, ht⟩ := hpart.far_move halive hmove
      · exact hstay ht
      · have hnil : g.writing = [] := hbetween rfl hnext
        refine ⟨lost, taken, [], [], hw, hp, hlost, .inl ?_⟩
        change Inbound t.swap [] [] g.writing g.pulling
        rw [hnil, hcur]
        exact ht
    · rw [swap_near, hfar]
      rfl
    · rw [swap_near, hfar]
      rfl

end Reads

end Zmq
