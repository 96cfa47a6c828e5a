import ZeroMQ.Pipe.Outbound

/-!
# What a socket does with a pipe

Sockets that send leave writing to a load balancer or a distributor. What else they do with a pipe may
have an event as its result, which the load balancer or the distributor has to be told. `SocketFrame`
says what such an act means for it.
-/

namespace Zmq

namespace Link

/-- An act of the socket on its end of a pipe. Unless the socket is a subscriber a pipe hiccups only if
`ZMQ_IMMEDIATE` is set, and then `socket_base_t::hiccuped` terminates it. -/
def socketAct (s : Link) (a : EndAct) : Except PipeFault (Link × Option SinkEvent) :=
  match s.act a with
  | .error e => .error e
  | .ok (t, some .hiccuped) => (t.terminate false).map (·, none)
  | .ok (t, e) => .ok (t, e)

end Link

/-- What an act of the socket on a pipe means for the outbound side. -/
structure SocketFrame (s : Link) (a : EndAct) (t : Link) (e : Option SinkEvent) : Prop where
  dead : s.near.frees ≠ 0 → t = s ∧ e = none
  gone : s.near.frees = 0 → (t.near.frees ≠ 0 ↔ e = some .pipeTerminated)
  ack : e = some .pipeTerminated → a = .deliver ∧ s.near.inbox.head? = some .pipeTermAck
  keeps : Link.unblocks s.near.pipe = false → Link.unblocks t.near.pipe = false
  unblocked : e = some .writeActivated → Link.unblocks s.near.pipe = true ∧ Link.unblocks t.near.pipe = false
  ready : Ready s.near.pipe → Ready t.near.pipe
  active : t.near.pipe.state = .active → s.near.pipe.state = .active
  reopened : t.near.pipe.state = .active → t.near.pipe.outActive = true →
    s.near.pipe.outActive = true ∨ e = some .writeActivated
  not_hiccuped : e ≠ some .hiccuped

namespace Link

variable {s t : Link} {a : EndAct} {e : Option SinkEvent}

lemma unblocks_eq_false {p : Pipe} : unblocks p = false ↔ (p.state = .active → p.outActive = true) := by
  cases ho : p.outActive <;> by_cases hst : p.state = .active <;> simp [unblocks, ho, hst]

lemma OutFrame.keeps (h : OutFrame s t e) (hs : unblocks s.near.pipe = false) : unblocks t.near.pipe = false := by
  rw [unblocks_eq_false] at hs ⊢
  intro hst
  exact h.outActive hst (hs (h.active hst))

lemma OutFrame.ready (h : OutFrame s t e) (hroom : HasRoom s.near.pipe → HasRoom t.near.pipe)
    (hs : Ready s.near.pipe) : Ready t.near.pipe := by
  intro hst
  obtain ⟨ho, hr⟩ := hs (h.active hst)
  exact ⟨h.outActive hst ho, hroom hr⟩

end Link

open Link

lemma ShutdownInv.socketAct {s : Link} {a : EndAct} (h : ShutdownInv s) (hahead : Ahead s)
    (ha : a.KeepsOutput) :
    ∃ t e, s.socketAct a = .ok (t, e) ∧ ShutdownInv t ∧ Ahead t ∧ SocketFrame s a t e := by
  obtain ⟨t, e, hact, ⟨rfl, rfl⟩ | ⟨halive, hmove⟩⟩ := h.exists_move a
  · refine ⟨_, none, by simp only [Link.socketAct, hact], h, hahead, ?_⟩
    exact ⟨fun _ => ⟨rfl, rfl⟩, by simp, by simp, id, by simp, id, id, fun _ => .inl, by simp⟩
  have hframe := hmove.outFrame halive ha
  have ht := h.move halive hmove
  have hahead' := hahead.near hmove
  by_cases he : e = some .hiccuped
  · -- the new pipe knows nothing of the message in progress, but the end is closed at once
    have hst := hframe.hiccuped he
    have halive' : t.near.frees = 0 := by
      by_contra hne
      exact absurd (he.symm.trans (hframe.gone.mp hne)) (by simp)
    obtain ⟨t', hterm, hmove', hst', hfrees⟩ := terminate_of_active ht halive' hst false
    have hna : t'.near.pipe.state ≠ .active := by
      rw [hst']
      decide
    refine ⟨t', none, by simp only [Link.socketAct, hact, he, hterm]; rfl, ht.move halive' hmove',
      hahead'.near hmove', ?_⟩
    refine ⟨fun hne => absurd halive hne, fun _ => by simp [hfrees, halive'], by simp, fun _ => ?_,
      by simp, fun _ hact => absurd hact hna, fun hact => absurd hact hna,
      fun hact => absurd hact hna, by simp⟩
    rw [unblocks_eq_false]
    exact fun hact => absurd hact hna
  · refine ⟨t, e, ?_, ht, hahead', ?_⟩
    · simp only [Link.socketAct, hact]
    · refine ⟨fun hne => absurd halive hne, fun _ => hframe.gone, hmove.of_pipeTerminated,
        hframe.keeps, hframe.unblocked, hframe.ready (hahead.room hmove ha), hframe.active,
        fun hst ho => ?_, he⟩
      exact (hframe.reopened hst ho).imp_right fun hor => hor.resolve_right he

end Zmq
