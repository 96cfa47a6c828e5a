import Mathlib.Data.List.Infix

/-!
# Messages in a stream of frames

A message is a list of frames of which every one but the last announces that more will come. Messages
are published one after the other, and a reader takes their frames one by one from a stream. `Feeds`
relates the messages published, the messages taken as a whole, the frames taken of the next one and the
frames that are still in the stream.
-/

namespace Foundation

open List

variable {α : Type} {more : α → Bool} {published done : List (List α)} {cur stream : List α} {m : α}

/-- All frames but the last announce more. -/
def Whole (more : α → Bool) (g : List α) : Prop :=
  ∃ first last, g = first ++ [last] ∧ (∀ f ∈ first, more f = true) ∧ more last = false

/-- The messages `done` and the frames `cur` were taken from the published messages, and `stream` is
what is left. -/
structure Feeds (more : α → Bool) (published done : List (List α)) (cur stream : List α) : Prop where
  whole : ∀ g ∈ published, Whole more g
  announced : ∀ f ∈ cur, more f = true
  rest : ∃ rest, published = done ++ rest ∧ cur ++ stream = rest.flatten

namespace Feeds

lemma nil : Feeds more [] [] [] [] := ⟨by simp, by simp, [], rfl, rfl⟩

lemma publish (h : Feeds more published done cur stream) {g : List α} (hg : Whole more g) :
    Feeds more (published ++ [g]) done cur (stream ++ g) := by
  obtain ⟨rest, hpub, hflat⟩ := h.rest
  refine ⟨fun g' hg' => ?_, h.announced, rest ++ [g], ?_, ?_⟩
  · rcases mem_append.mp hg' with hg' | hg'
    · exact h.whole g' hg'
    · rw [mem_singleton.mp hg']
      exact hg
  · rw [hpub, append_assoc]
  · rw [← append_assoc, hflat, flatten_append]
    simp

lemma take_more (h : Feeds more published done cur (m :: stream)) (hm : more m = true) :
    Feeds more published done (cur ++ [m]) stream := by
  obtain ⟨rest, hpub, hflat⟩ := h.rest
  refine ⟨h.whole, fun f hf => ?_, rest, hpub, by simpa using hflat⟩
  rcases mem_append.mp hf with hf | hf
  · exact h.announced f hf
  · rw [mem_singleton.mp hf]
    exact hm

/-- Two lists that begin with frames that announce more up to one that does not are cut at the same
place. -/
lemma cut_unique {l l' r r' : List α} {m' : α} (h : l ++ m :: r = l' ++ m' :: r')
    (hl : ∀ f ∈ l, more f = true) (hl' : ∀ f ∈ l', more f = true) (hm : more m = false)
    (hm' : more m' = false) : l = l' ∧ m = m' ∧ r = r' := by
  induction l generalizing l' with
  | nil =>
    cases l' with
    | nil => simpa using h
    | cons f l' =>
      obtain ⟨rfl, -⟩ := cons.inj h
      exact absurd (hl' m mem_cons_self) (by simp [hm])
  | cons f l ih =>
    cases l' with
    | nil =>
      obtain ⟨rfl, -⟩ := cons.inj h
      exact absurd (hl f mem_cons_self) (by simp [hm'])
    | cons f' l' =>
      obtain ⟨rfl, htail⟩ := cons.inj h
      obtain ⟨rfl, heq⟩ := ih htail (fun x hx => hl x (mem_cons_of_mem _ hx))
        (fun x hx => hl' x (mem_cons_of_mem _ hx))
      exact ⟨rfl, heq⟩

lemma take_last (h : Feeds more published done cur (m :: stream)) (hm : more m = false) :
    Feeds more published (done ++ [cur ++ [m]]) [] stream := by
  obtain ⟨rest, hpub, hflat⟩ := h.rest
  cases rest with
  | nil => simp at hflat
  | cons g rest =>
    obtain ⟨first, last, rfl, hfirst, hlast⟩ := h.whole g (by rw [hpub]; simp)
    rw [flatten_cons, append_assoc, singleton_append] at hflat
    obtain ⟨rfl, rfl, hstream⟩ := cut_unique hflat h.announced hfirst hm hlast
    exact ⟨h.whole, by simp, rest, by rw [hpub, append_assoc]; rfl, hstream⟩

lemma forget {old : List (List α)} (h : Feeds more (old ++ published) (old ++ done) cur stream) :
    Feeds more published done cur stream := by
  obtain ⟨rest, hpub, hflat⟩ := h.rest
  refine ⟨fun g hg => h.whole g (mem_append_right _ hg), h.announced, rest, ?_, hflat⟩
  rw [append_assoc] at hpub
  exact append_cancel_left hpub

lemma prefix_done (h : Feeds more published done cur stream) : done <+: published := by
  obtain ⟨rest, hpub, -⟩ := h.rest
  exact ⟨rest, hpub.symm⟩

/-- The frames taken of the next message are its first ones, and some are missing. -/
lemma prefix_cur (h : Feeds more published done cur stream) (hne : cur ≠ []) :
    ∃ tail, tail ≠ [] ∧ done ++ [cur ++ tail] <+: published := by
  obtain ⟨rest, hpub, hflat⟩ := h.rest
  cases rest with
  | nil =>
    rw [flatten_nil, append_eq_nil_iff] at hflat
    exact absurd hflat.1 hne
  | cons g rest =>
    obtain ⟨first, last, rfl, hfirst, hlast⟩ := h.whole g (by rw [hpub]; simp)
    have hlast' : last ∉ cur := fun hmem => by
      rw [h.announced last hmem] at hlast
      exact absurd hlast (by decide)
    have hpre : cur <+: first ++ [last] ++ rest.flatten := ⟨stream, hflat⟩
    rcases prefix_or_prefix_of_prefix hpre (prefix_append _ rest.flatten) with
      ⟨tail, htail⟩ | hsub
    · refine ⟨tail, ?_, rest, by rw [htail, hpub, append_assoc]; rfl⟩
      rintro rfl
      rw [append_nil] at htail
      exact hlast' (by rw [htail]; simp)
    · exact absurd (hsub.subset (by simp)) hlast'

end Feeds

end Foundation
