import Mathlib.Data.List.Basic

/-!
# Replicas that lag behind

A replica follows an original by applying the same updates, which are on their way to it in a queue.
Not every update makes sense in every state. `Follows` says that the updates in the queue, one after the
other, take the replica to the state of the original, and that each of them makes sense when its turn
comes.
-/

namespace Foundation

variable {σ α : Type}

/-- The updates lead from one state to the other, and each is valid where it is applied. -/
def Follows (apply : σ → α → σ) (valid : σ → α → Prop) : σ → List α → σ → Prop
  | a, [], b => a = b
  | a, u :: us, b => valid a u ∧ Follows apply valid (apply a u) us b

namespace Follows

variable {apply : σ → α → σ} {valid : σ → α → Prop} {a b : σ} {us : List α}

lemma snoc (h : Follows apply valid a us b) {u : α} (hu : valid b u) :
    Follows apply valid a (us ++ [u]) (apply b u) := by
  induction us generalizing a with
  | nil =>
    obtain rfl : a = b := h
    exact ⟨hu, rfl⟩
  | cons v us ih => exact ⟨h.1, ih h.2⟩

lemma of_forall (h : ∀ u ∈ us, ∀ c, valid c u) (a : σ) : Follows apply valid a us (us.foldl apply a) := by
  induction us generalizing a with
  | nil => rfl
  | cons u us ih =>
    refine ⟨h u List.mem_cons_self a, ?_⟩
    exact ih (fun v hv => h v (List.mem_cons_of_mem u hv)) (apply a u)

end Follows

end Foundation
