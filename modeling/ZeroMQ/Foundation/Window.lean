import Mathlib.Data.List.Basic

/-!
# A counter reported through a channel

One party counts up and reports its counter over a channel that keeps the order, every time the
counter reaches a multiple of a period. Another party knows the last report it has received.
`Reports` relates the two and the reports in flight, which never decrease; `Window` adds that they are
multiples of the period and that the newest of them is less than one period behind. Hence an observer
that is a whole period behind has a newer report on its way.
-/

namespace Foundation

open List

/-- The counter is at `now`, the observer has `seen` the last report it received, and the reports
`flight` are on their way, oldest first: they never decrease. -/
structure Reports (now seen : ℕ) (flight : List ℕ) : Prop where
  sorted : (seen :: flight).Pairwise (· ≤ ·)
  le_now : ∀ n ∈ seen :: flight, n ≤ now

/-- The reports are multiples of a period, and the newest of them is less than one period behind. -/
structure Window (period now seen : ℕ) (flight : List ℕ) : Prop extends Reports now seen flight where
  dvd : ∀ n ∈ seen :: flight, period ∣ n
  newest : ∃ n ∈ seen :: flight, now < n + period

namespace Reports

variable {now seen n : ℕ} {flight : List ℕ}

lemma zero : Reports 0 0 [] where
  sorted := pairwise_singleton _ _
  le_now := by simp

lemma seen_le_now (h : Reports now seen flight) : seen ≤ now := h.le_now seen mem_cons_self

lemma receive (h : Reports now seen (n :: flight)) : Reports now n flight where
  sorted := (pairwise_cons.mp h.sorted).2
  le_now k hk := h.le_now k (mem_cons_of_mem _ hk)

lemma seen_le_head (h : Reports now seen (n :: flight)) : seen ≤ n :=
  (pairwise_cons.mp h.sorted).1 n mem_cons_self

lemma grow (h : Reports now seen flight) {k : ℕ} (hle : now ≤ k) : Reports k seen flight where
  sorted := h.sorted
  le_now a ha := Nat.le_trans (h.le_now a ha) hle

lemma report (h : Reports now seen flight) : Reports now seen (flight ++ [now]) where
  sorted := by
    rw [← cons_append]
    refine pairwise_append.mpr ⟨h.sorted, pairwise_singleton _ _, ?_⟩
    intro a ha b hb
    obtain rfl := mem_singleton.mp hb
    exact h.le_now a ha
  le_now a ha := by
    rw [← cons_append] at ha
    rcases mem_append.mp ha with ha | ha
    · exact h.le_now a ha
    · exact Nat.le_of_eq (mem_singleton.mp ha)

end Reports

namespace Window

variable {period now seen n : ℕ} {flight : List ℕ}

lemma zero (hp : 0 < period) : Window period 0 0 [] where
  toReports := Reports.zero
  dvd := by simp
  newest := ⟨0, by simp, by omega⟩

lemma receive (h : Window period now seen (n :: flight)) : Window period now n flight := by
  have hle := h.seen_le_head
  refine ⟨h.toReports.receive, fun k hk => h.dvd k (mem_cons_of_mem _ hk), ?_⟩
  obtain ⟨k, hk, hlt⟩ := h.newest
  rcases mem_cons.mp hk with rfl | hk
  · exact ⟨n, mem_cons_self, by omega⟩
  · exact ⟨k, hk, hlt⟩

/-- The counter moves on by at most one, and reports a multiple of the period. -/
lemma report (h : Window period now seen flight) (hp : 0 < period) {k : ℕ} (hle : now ≤ k)
    (hdvd : period ∣ k) : Window period k seen (flight ++ [k]) := by
  refine ⟨(h.grow hle).report, ?_, k, by simp, by omega⟩
  intro a ha
  rw [← cons_append] at ha
  rcases mem_append.mp ha with ha | ha
  · exact h.dvd a ha
  · exact mem_singleton.mp ha ▸ hdvd

/-- The counter moves on by at most one to a number that is not a multiple of the period. -/
lemma tick (h : Window period now seen flight) {k : ℕ} (hle : now ≤ k) (hstep : k ≤ now + 1)
    (hdvd : ¬period ∣ k) : Window period k seen flight := by
  refine ⟨h.grow hle, h.dvd, ?_⟩
  obtain ⟨a, ha, hlt⟩ := h.newest
  refine ⟨a, ha, ?_⟩
  -- reaching `a + period` would be reaching a multiple
  have hne : k ≠ a + period := fun heq => hdvd (heq ▸ Nat.dvd_add (h.dvd a ha) (Nat.dvd_refl period))
  omega

lemma exists_newer (h : Window period now seen flight) (hbehind : seen + period ≤ now) :
    ∃ a ∈ flight, seen < a := by
  obtain ⟨a, ha, hlt⟩ := h.newest
  rcases mem_cons.mp ha with rfl | ha
  · omega
  · exact ⟨a, ha, by omega⟩

end Window

end Foundation
