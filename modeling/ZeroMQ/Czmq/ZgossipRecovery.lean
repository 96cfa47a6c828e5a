import ZeroMQ.Czmq.ZgossipSync

/-!
# Gossip after a client has been forgotten

A node forgets a client that it has not heard of for some time. It answers the next message with `INVALID`, and
then the source says hello again and is told all tuples. But the source does not announce its own tuples again, so
what was answered with `INVALID` is lost, unless it is a tuple that the target has anyway.
-/

namespace Czmq

open Foundation List Except

variable {N : Type} [DecidableEq N]

/-! ### A link that is renewed -/

/-- The client is known, or the source has been told that it is not, or it has said hello. -/
def GossipLink.Renewed (l : GossipLink N) : Prop :=
  l.client ≠ none ∨ ZgossipMsg.encode .invalid ∈ l.down ∨ ZgossipMsg.encode .hello ∈ l.up

lemma Tuple.frame_ne_hello (t : Tuple) : t.frame ≠ ZgossipMsg.encode .hello := by
  intro h
  simp [Tuple.frame, ZgossipMsg.encode] at h

lemma Tuple.frame_ne_invalid (t : Tuple) : t.frame ≠ ZgossipMsg.encode .invalid := by
  intro h
  simp [Tuple.frame, ZgossipMsg.encode] at h

namespace GossipLink

variable {act : GossipAct N} {i : ℕ} {node node' : N → GossipNode} {l l' : GossipLink N}

lemma Renewed.told (h : l.Renewed) (n : N) (t : Tuple) : (l.told n t).Renewed := by
  rcases h with h | h | h
  · exact .inl h
  · exact .inr (.inl (mem_down_told.mpr (.inl h)))
  · exact .inr (.inr (mem_up_told.mpr (.inl h)))

omit [DecidableEq N] in
lemma Renewed.dropDown (h : l.Renewed) {t : Tuple} {down : List (List UInt8)} (hdown : l.down = t.frame :: down) :
    ({ l with down } : GossipLink N).Renewed := by
  rcases h with h | h | h
  · exact .inl h
  · rw [hdown] at h
    rcases mem_cons.mp h with h | h
    · exact absurd h.symm t.frame_ne_invalid
    · exact .inr (.inl h)
  · exact .inr (.inr h)

omit [DecidableEq N] in
lemma renewed_reject : l.reject.Renewed := .inr (.inl (mem_append_right _ (mem_singleton_self _)))

lemma Evolves.renewed (hlink : l.Evolves act i node node' l') (h : l.Renewed) (hact : act ≠ .expire i) :
    l'.Renewed := by
  cases hlink with
  | stay _ => exact h
  | told _ _ _ => exact h.told _ _
  | sameUp _ _ hclient _ _ | takeUp _ _ hclient _ _ => exact .inl (by change l.client ≠ none; rw [hclient]; exact nofun)
  | missed _ _ _ _ _ | reset _ _ _ => exact renewed_reject
  | greeted _ _ _ _ _ => exact .inl nofun
  | sameDown hdown _ _ _ => exact h.dropDown hdown
  | takeDown hdown _ _ _ => exact (h.dropDown hdown).told _ _
  | answered _ _ => exact .inr (.inr (mem_append_right _ (mem_singleton_self _)))
  | expired hexpire _ => exact absurd hexpire hact

end GossipLink

namespace GossipNet

variable {net net' : GossipNet N} {act : GossipAct N}

/-! ### Runs -/

/-- What is sent is received as it is, and the target of a link misses only what it has. -/
def Meets (net : GossipNet N) (act : GossipAct N) : Prop := net.Plain act ∧ net.Recovers act

lemma Synced.publish (h : net.Synced) {n : N} {t : Tuple} (hplain : net.Plain (.publish n t))
    (hstep : net.step (.publish n t) = .ok net') : (net'.node n).Holds t := by
  have hsend : ∀ l ∈ net.links, l.Joined n → Sendable t := fun l hl hjoined => hplain t ⟨rfl, l, hl, hjoined⟩
  rw [step, h.wired.running, if_pos rfl, serverAccept_eq (fun l hl => (h.wired.links l hl).settled) hsend] at hstep
  obtain rfl := ok.inj hstep
  split
  · assumption
  · exact lookup_storeAt_self.trans (if_pos rfl)

/-- What a run makes of a network and one of its links. -/
structure Leads (net : GossipNet N) (acts : List (GossipAct N)) (i : ℕ) (l : GossipLink N) (net' : GossipNet N)
    (l' : GossipLink N) : Prop where
  synced : net'.Synced
  link : net'.links[i]? = some l'
  source : l'.source = l.source
  target : l'.target = l.target
  renewed : l.Renewed → .expire i ∉ acts → l'.Renewed
  heard : ∀ t, l.Heard net.node t ∨ .publish l.source t ∈ acts → l'.Heard net'.node t

instance (net : GossipNet N) (act : GossipAct N) : Decidable (net.Plain act) :=
  match act with
  | .connect source _ _ => decidable_of_iff (∀ t ∈ (net.node source).tuples.entries, Sendable t) Iff.rfl
  | .publish n tuple => decidable_of_iff ((∃ l ∈ net.links, l.source = n ∨ l.target = n ∧ l.client ≠ none) →
      Sendable tuple) ⟨fun h _ ht => ht.1 ▸ h ht.2, fun h hl => h tuple ⟨rfl, hl⟩⟩
  | .deliverUp i _ => decidable_of_iff (∀ l ∈ net.links[i]?, l.client = none →
      l.up.head? = some (ZgossipMsg.encode .hello) → ∀ t ∈ (net.node l.target).tuples.entries, Sendable t)
      ⟨fun h t ⟨l, hl, hclient, hup, ht⟩ => h l hl hclient hup t ht,
        fun h l hl hclient hup t ht => h t ⟨l, hl, hclient, hup, ht⟩⟩
  | .deliverDown _ | .expire _ => isTrue nofun

instance (net : GossipNet N) (act : GossipAct N) : Decidable (net.Recovers act) :=
  match act with
  | .deliverUp i _ => decidable_of_iff (∀ l ∈ net.links[i]?, l.client = none → ∀ t ∈ l.nextTuple,
      (net.node l.target).Holds t) Iff.rfl
  | .connect _ _ _ | .publish _ _ | .deliverDown _ | .expire _ => isTrue trivial

instance (net : GossipNet N) (act : GossipAct N) : Decidable (net.Meets act) :=
  inferInstanceAs (Decidable (net.Plain act ∧ net.Recovers act))

end GossipNet

end Czmq
