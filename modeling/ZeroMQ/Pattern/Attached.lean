import ZeroMQ.Pattern.Ring
import ZeroMQ.Pipe.Model

/-!
# The pipes attached to a socket

A load balancer and a fair queue know the pipes of a socket by their addresses. `Attached` relates the
ring of addresses to the pipes themselves: the ring holds those that are not deallocated, something is
known about each of them, and something more about the active ones. The lemmas say how this is kept
when something happens to one pipe.
-/

namespace Zmq

open Function Nat

/-- What can go wrong in a load balancer or a fair queue. -/
inductive PatternFault
  | pipe (fault : PipeFault)
  /-- `zmq_assert (!more)` fails. -/
  | assertFailed
  /-- The array of pipes is accessed outside of its bounds. -/
  | outOfBounds
  deriving DecidableEq, Repr

/-- The pipes of a socket with their peers, by their addresses. -/
abbrev Pipes := ℕ → Link

/-- The ring holds the pipes that are not gone, `I` holds of every pipe and `A` of the active ones. -/
structure Attached (I : ℕ → Link → Prop) (A : Link → Prop) (r : Ring ℕ) (links : Pipes)
    (count : ℕ) : Prop where
  ring : r.WF
  mem_iff : ∀ p, r.Mem p ↔ p < count ∧ (links p).near.frees = 0
  inv : ∀ p < count, I p (links p)
  active : ∀ p, r.IsActive p → A (links p)

namespace Attached

variable {I I' : ℕ → Link → Prop} {A : Link → Prop} {r r' : Ring ℕ} {links : Pipes} {count p : ℕ}
  {l : Link}

lemma empty (I : ℕ → Link → Prop) (A : Link → Prop) (links : Pipes) : Attached I A Ring.empty links 0 where
  ring := Ring.empty_wf
  mem_iff := by simp [Ring.empty, Ring.Mem, PipeArray.empty]
  inv p hp := absurd hp (not_lt_zero p)
  active := by
    rintro p ⟨i, hi, -⟩
    exact absurd hi (not_lt_zero i)

lemma lt_count (h : Attached I A r links count) (hp : r.IsActive p) : p < count := ((h.mem_iff p).mp hp.mem).1

lemma alive (h : Attached I A r links count) (hp : r.IsActive p) : (links p).near.frees = 0 :=
  ((h.mem_iff p).mp hp.mem).2

lemma count_notMem (h : Attached I A r links count) : ¬r.Mem count := fun hmem =>
  absurd ((h.mem_iff count).mp hmem).1 (lt_irrefl _)

lemma inv_update (h : ∀ q < count, q ≠ p → I q (links q)) (hI : ∀ q k, q ≠ p → I q k → I' q k)
    (hl : p < count → I' p l) : ∀ q < count, I' q (update links p l q) := by
  intro q hq
  by_cases hqp : q = p
  · subst hqp
    rw [update_self]
    exact hl hq
  · rw [update_of_ne hqp]
    exact hI q _ hqp (h q hq hqp)

lemma set (h : Attached I A r links count) {active : ℕ → Prop} (hr : r'.Holds r.Mem active)
    (hfrees : l.near.frees = (links p).near.frees) (hl : p < count → I' p l)
    (hI : ∀ q k, q ≠ p → I q k → I' q k) (hactive : ∀ q, active q → q ≠ p → r.IsActive q)
    (hp : active p → A l) : Attached I' A r' (update links p l) count where
  ring := hr.wf
  mem_iff q := by
    rw [hr.mem_iff, h.mem_iff]
    by_cases hq : q = p
    · rw [hq, update_self, hfrees]
    · rw [update_of_ne hq]
  inv := inv_update (fun q hq _ => h.inv q hq) hI hl
  active q hq := by
    rw [hr.active_iff] at hq
    by_cases hqp : q = p
    · subst hqp
      rw [update_self]
      exact hp hq
    · rw [update_of_ne hqp]
      exact h.active q (hactive q hq hqp)

lemma update (h : Attached I A r links count) (hfrees : l.near.frees = (links p).near.frees)
    (hl : p < count → I' p l) (hI : ∀ q k, q ≠ p → I q k → I' q k) (hp : r.IsActive p → A l) :
    Attached I' A r (update links p l) count :=
  h.set ⟨h.ring, fun _ => Iff.rfl, fun _ => Iff.rfl⟩ hfrees hl hI (fun _ hq _ => hq) hp

lemma remove (h : Attached I A r links count)
    (hr : r'.Holds (fun q => r.Mem q ∧ q ≠ p) (fun q => r.IsActive q ∧ q ≠ p))
    (hfrees : l.near.frees ≠ 0) (hl : p < count → I p l) :
    Attached I A r' (Function.update links p l) count where
  ring := hr.wf
  mem_iff q := by
    rw [hr.mem_iff, h.mem_iff]
    by_cases hq : q = p
    · subst hq
      simp [hfrees]
    · simp [hq]
  inv := inv_update (fun q hq _ => h.inv q hq) (fun _ _ _ hk => hk) hl
  active q hq := by
    obtain ⟨hq, hqp⟩ := (hr.active_iff q).mp hq
    rw [update_of_ne hqp]
    exact h.active q hq

lemma attach (h : Attached I A r links count)
    (hr : r'.Holds (fun q => r.Mem q ∨ q = count) (fun q => r.IsActive q ∨ q = count))
    (hfrees : l.near.frees = 0) (hl : I count l) (hact : A l) :
    Attached I A r' (Function.update links count l) (count + 1) where
  ring := hr.wf
  mem_iff q := by
    rw [hr.mem_iff, h.mem_iff]
    by_cases hq : q = count
    · subst hq
      simp [hfrees]
    rw [update_of_ne hq]
    simp only [hq, or_false]
    constructor
    · rintro ⟨hlt, hf⟩
      exact ⟨lt_succ_of_lt hlt, hf⟩
    · rintro ⟨hlt, hf⟩
      exact ⟨by omega, hf⟩
  inv := inv_update (fun q hq hne => h.inv q (by omega)) (fun _ _ _ hk => hk) fun _ => hl
  active q hq := by
    by_cases hqp : q = count
    · subst hqp
      rw [update_self]
      exact hact
    · rw [update_of_ne hqp]
      rcases (hr.active_iff q).mp hq with hq | hq
      · exact h.active q hq
      · exact absurd hq hqp

/-- Looking for a pipe that can be used. A pipe in vain is changed in a way that keeps what holds of
it, and is taken from the active ones. -/
lemma search {β : Type} (h : Attached I A r links count)
    {probe : ℕ → Pipes → Except PatternFault (Option β × Pipes)} {drop : Ring ℕ → Option (Ring ℕ)}
    {Q : β → ℕ → Ring ℕ → Pipes → Prop}
    (hdrop : ∀ (r : Ring ℕ) p, r.WF → r.IsCurrent p → drop r = r.deactivate)
    (hprobe : ∀ r' links' p, Attached I A r' links' count →
      (∀ q, (links' q).near.frees = (links q).near.frees) → r'.IsCurrent p →
      (∃ b links'', probe p links' = .ok (some b, links'') ∧ Q b p r' links'') ∨
      (∃ l, probe p links' = .ok (none, Function.update links' p l) ∧
        l.near.frees = (links' p).near.frees ∧ I p l)) :
    (∃ b p r' links', Ring.search .outOfBounds probe (.ok ()) drop r.active r links =
        .ok (some b, r', links') ∧ Q b p r' links') ∨
    (∃ r' links', Ring.search .outOfBounds probe (.ok ()) drop r.active r links =
        .ok (none, r', links') ∧ Attached I A r' links' count ∧
      ∀ q, (links' q).near.frees = (links q).near.frees) := by
  have hround : ∀ r' links' p, r'.WF → (Attached I A r' links' count ∧
        ∀ q, (links' q).near.frees = (links q).near.frees) → r'.IsCurrent p →
      (∃ b links'', probe p links' = .ok (some b, links'') ∧ Q b p r' links'') ∨
      (∃ links'', probe p links' = .ok (none, links'') ∧
        (.ok () : Except PatternFault Unit) = .ok () ∧
        ∀ r'' : Ring ℕ, r''.Holds r'.Mem (fun q => r'.IsActive q ∧ q ≠ p) →
          Attached I A r'' links'' count ∧
          ∀ q, (links'' q).near.frees = (links q).near.frees) := by
    rintro r' links' p - ⟨hatt, hfrees⟩ hp
    obtain hfound | ⟨l, heq, hl, hI⟩ := hprobe r' links' p hatt hfrees hp
    · exact .inl hfound
    refine .inr ⟨_, heq, rfl, fun r'' hr => ⟨?_, fun q => ?_⟩⟩
    · exact hatt.set hr hl (fun _ => hI) (fun _ _ _ hk => hk) (fun q hq _ => hq.1) (fun hq => absurd rfl hq.2)
    · rw [← hfrees q]
      by_cases hq : q = p
      · rw [hq, update_self, hl]
      · rw [update_of_ne hq]
  obtain ⟨b, p, r', links', hs, -, -, hQ⟩ | ⟨r', links', hs, -, -, hatt, hfrees⟩ :=
    Ring.search_rule .outOfBounds hdrop hround h.ring ⟨h, fun _ => rfl⟩
  · exact .inl ⟨b, p, r', links', hs, hQ⟩
  · exact .inr ⟨r', links', hs, hatt, hfrees⟩

end Attached

lemma Pipes.update_of_imp {links : Pipes} {p q : ℕ} {l : Link} {P : Link → Prop}
    (hl : P (links p) → P l) (hq : P (links q)) : P (update links p l q) := by
  by_cases hqp : q = p
  · subst hqp
    rw [update_self]
    exact hl hq
  · rw [update_of_ne hqp]
    exact hq

end Zmq
