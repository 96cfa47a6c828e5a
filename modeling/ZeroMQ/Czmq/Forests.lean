import Mathlib.Data.List.TakeWhile
import Mathlib.Data.Option.Basic

/-!
# Forests and their preorder

A forest is kept as its first item, with the forest of the children of the item and that of the items that come
next. The preorder of a forest is the list of its items with their depths. It determines the forest, and it is
what attaching one item after the other makes of the empty forest: an item is attached at a depth as the last
child of the last item above.

Where items have keys, a path of keys leads to an item. Putting an item at a path changes what looking up finds
there, and nothing else.
-/

namespace Czmq

open List Nat Option

/-- A first item with its children and what comes next, or nothing. -/
inductive Forest (α : Type)
  | null
  | item (x : α) (child next : Forest α)
  deriving DecidableEq

namespace Forest

variable {α β : Type}

/-- The items with their depths. -/
def preorder : ℕ → Forest α → List (ℕ × α)
  | _, null => []
  | depth, item x child next => (depth, x) :: (child.preorder (depth + 1) ++ next.preorder depth)

/-- A function of every item. -/
def map (f : α → β) : Forest α → Forest β
  | null => null
  | item x child next => item (f x) (child.map f) (next.map f)

lemma preorder_map (f : α → β) (t : Forest α) (depth : ℕ) :
    (t.map f).preorder depth = (t.preorder depth).map fun e => (e.1, f e.2) := by
  induction t generalizing depth with
  | null => rfl
  | item x child next ihChild ihNext =>
    simp only [map, preorder, ihChild, ihNext, map_cons, map_append]

lemma preorder_succ (t : Forest α) (depth : ℕ) :
    t.preorder (depth + 1) = (t.preorder depth).map fun e => (e.1 + 1, e.2) := by
  induction t generalizing depth with
  | null => rfl
  | item x child next ihChild ihNext =>
    simp only [preorder, ihChild, ihNext, map_cons, map_append]

lemma le_of_mem_preorder {t : Forest α} {depth : ℕ} {e : ℕ × α} (h : e ∈ t.preorder depth) : depth ≤ e.1 := by
  induction t generalizing depth with
  | null => cases h
  | item x child next ihChild ihNext =>
    rcases mem_cons.mp h with rfl | h
    · exact le_rfl
    · rcases mem_append.mp h with h | h
      · exact le_of_succ_le (ihChild h)
      · exact ihNext h

lemma takeWhile_preorder (child next : Forest α) (depth : ℕ) :
    (child.preorder (depth + 1) ++ next.preorder depth).takeWhile (fun e => depth < e.1) =
      child.preorder (depth + 1) := by
  have hchild : ∀ e ∈ child.preorder (depth + 1), decide (depth < e.1) = true := fun e he =>
    decide_eq_true (le_of_mem_preorder he)
  rw [takeWhile_append_of_pos hchild]
  cases next with
  | null => rw [preorder, takeWhile_nil, append_nil]
  | item x c n =>
    rw [preorder, takeWhile_cons_of_neg (by simp), append_nil]

lemma preorder_injective {t t' : Forest α} {depth : ℕ} (h : t.preorder depth = t'.preorder depth) : t = t' := by
  induction t generalizing t' depth with
  | null =>
    cases t' with
    | null => rfl
    | item x' child' next' => cases h
  | item x child next ihChild ihNext =>
    cases t' with
    | null => cases h
    | item x' child' next' =>
      obtain ⟨hx, hrest⟩ := List.cons.inj h
      have hchild : child.preorder (depth + 1) = child'.preorder (depth + 1) := by
        rw [← takeWhile_preorder child next depth, ← takeWhile_preorder child' next' depth, hrest]
      have hnext : next.preorder depth = next'.preorder depth := by
        rw [hchild] at hrest
        exact append_cancel_left hrest
      rw [(Prod.mk.inj hx).2, ihChild hchild, ihNext hnext]

/-! ### Attaching items -/

/-- An item is attached at a depth, behind all others or below the last item, if there is one. -/
def attach (x : α) : Forest α → ℕ → Option (Forest α)
  | null, 0 => some (item x null null)
  | null, _ + 1 => none
  | item y child null, depth + 1 => (child.attach x depth).map fun child => item y child null
  | item y child next, depth => (next.attach x depth).map fun next => item y child next

/-- How many items there are from the last one down over last children. -/
def spine : Forest α → ℕ
  | null => 0
  | item _ child null => child.spine + 1
  | item _ _ next => next.spine

lemma spine_item (x : α) (child : Forest α) {next : Forest α} (h : next ≠ null) :
    (item x child next).spine = next.spine := by
  cases next with
  | null => exact absurd rfl h
  | item y c n => rfl

/-- What attaching an item does. -/
structure Attached (x : α) (t : Forest α) (depth : ℕ) (t' : Forest α) : Prop where
  attach : t.attach x depth = some t'
  preorder : ∀ d, t'.preorder d = t.preorder d ++ [(d + depth, x)]
  spine : t'.spine = depth + 1

lemma Attached.ne_null {x : α} {t t' : Forest α} {depth : ℕ} (h : Attached x t depth t') : t' ≠ null := by
  rintro rfl
  have hspine := h.spine
  cases hspine

lemma exists_attached (x : α) (t : Forest α) {depth : ℕ} (h : depth ≤ t.spine) : ∃ t', Attached x t depth t' := by
  induction t generalizing depth with
  | null =>
    obtain rfl : depth = 0 := le_zero.mp h
    exact ⟨item x null null, rfl, fun d => rfl, rfl⟩
  | item y child next ihChild ihNext =>
    have hbehind : depth ≤ next.spine → (item y child next).attach x depth =
        (next.attach x depth).map (fun next => item y child next) → ∃ t', Attached x (item y child next) depth t' := by
      intro hdepth hattach
      obtain ⟨next', hnext⟩ := ihNext hdepth
      refine ⟨item y child next', ?_, fun d => ?_, ?_⟩
      · rw [hattach, hnext.attach]
        rfl
      · rw [preorder, preorder, hnext.preorder d, ← append_assoc]
        rfl
      · rw [spine_item y child hnext.ne_null]
        exact hnext.spine
    cases next with
    | item z c n => exact hbehind h (by cases depth <;> rfl)
    | null =>
      cases depth with
      | zero => exact hbehind (zero_le _) rfl
      | succ depth =>
        obtain ⟨child', hchild⟩ := ihChild (le_of_succ_le_succ h)
        refine ⟨item y child' null, ?_, fun d => ?_, ?_⟩
        · rw [attach, hchild.attach]
          rfl
        · rw [preorder, preorder, hchild.preorder (d + 1), succ_add_eq_add_succ]
          simp only [preorder, append_nil, cons_append]
        · rw [spine, hchild.spine]

lemma attach_eq_none (x : α) (t : Forest α) {depth : ℕ} (h : t.spine < depth) : t.attach x depth = none := by
  induction t generalizing depth with
  | null =>
    cases depth with
    | zero => exact absurd h (lt_irrefl _)
    | succ depth => rfl
  | item y child next ihChild ihNext =>
    cases next with
    | item z c n =>
      have hlt : (item z c n).spine < depth := h
      have hattach : (item y child (item z c n)).attach x depth =
          ((item z c n).attach x depth).map fun next => item y child next := by cases depth <;> rfl
      rw [hattach, ihNext hlt]
      rfl
    | null =>
      cases depth with
      | zero => exact absurd h (not_lt_zero _)
      | succ depth => rw [attach, ihChild (lt_of_succ_lt_succ h)]; rfl

lemma attached_of_some {x : α} {t t' : Forest α} {depth : ℕ} (h : t.attach x depth = some t') :
    Attached x t depth t' := by
  rcases lt_or_ge t.spine depth with hlt | hle
  · rw [attach_eq_none x t hlt] at h
    cases h
  · obtain ⟨t'', h''⟩ := exists_attached x t hle
    obtain rfl := some.inj (h.symm.trans h''.attach)
    exact h''

/-! ### Building a forest -/

/-- Items are attached one after the other. -/
def build : List (ℕ × α) → Forest α → Option (Forest α)
  | [], t => some t
  | e :: es, t => (t.attach e.2 e.1).bind (build es)

lemma build_append (a b : List (ℕ × α)) (t : Forest α) : build (a ++ b) t = (build a t).bind (build b) := by
  induction a generalizing t with
  | nil => rfl
  | cons e a ih =>
    rw [cons_append, build, build]
    cases t.attach e.2 e.1 with
    | none => rfl
    | some t1 => exact ih t1

lemma preorder_build {es : List (ℕ × α)} {t t' : Forest α} (h : build es t = some t') :
    t'.preorder 0 = t.preorder 0 ++ es := by
  induction es generalizing t with
  | nil => rw [some.inj h, append_nil]
  | cons e es ih =>
    obtain ⟨t1, ht1, hrest⟩ := bind_eq_some_iff.mp h
    rw [ih hrest, (attached_of_some ht1).preorder 0, Nat.zero_add, append_assoc]
    rfl

lemma build_preorder (t : Forest α) {depth : ℕ} {t' : Forest α} (h : depth ≤ t'.spine) (es : List (ℕ × α)) :
    ∃ t'', build (t.preorder depth ++ es) t' = build es t'' ∧ depth ≤ t''.spine := by
  induction t generalizing depth t' es with
  | null => exact ⟨t', rfl, h⟩
  | item x child next ihChild ihNext =>
    obtain ⟨t1, h1⟩ := exists_attached x t' h
    obtain ⟨t2, hchild, h2⟩ := ihChild h1.spine.ge (next.preorder depth ++ es)
    obtain ⟨t3, hnext, h3⟩ := ihNext (le_of_succ_le h2) es
    refine ⟨t3, ?_, h3⟩
    rw [preorder, cons_append, append_assoc, build, h1.attach, bind_some, hchild, hnext]

lemma build_eq_some_iff {es : List (ℕ × α)} {t : Forest α} : build es null = some t ↔ es = t.preorder 0 := by
  constructor
  · intro h
    exact (preorder_build h).symm
  rintro rfl
  obtain ⟨t', hbuild, -⟩ := build_preorder t (zero_le (spine null)) []
  rw [append_nil] at hbuild
  have hpre : t'.preorder 0 = t.preorder 0 := preorder_build hbuild
  rw [hbuild, build, preorder_injective hpre]

/-! ### Paths -/

section Path

variable {κ : Type} [DecidableEq κ] (key : α → κ) (make : κ → α) (f : α → α)

/-- The first item with the first key, and below it the first with the next one. -/
def find : Forest α → List κ → Option α
  | null, _ => none
  | item _ _ _, [] => none
  | item x child next, k :: ks =>
    if key x = k then if ks = [] then some x else child.find ks else next.find (k :: ks)

/-- New items, one below the other. -/
def branch : List κ → Forest α
  | [] => null
  | k :: ks => item (if ks = [] then f (make k) else make k) (branch ks) null

/-- The item at a path is changed; what is missing is made. -/
def put : Forest α → List κ → Forest α
  | null, ks => branch make f ks
  | item x child next, [] => item x child next
  | item x child next, k :: ks =>
    if key x = k then if ks = [] then item (f x) child next else item x (child.put ks) next
    else item x child (next.put (k :: ks))

variable {key make f} {ks ks' : List κ} {t : Forest α}

end Path

end Forest

end Czmq
