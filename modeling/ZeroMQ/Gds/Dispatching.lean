import Mathlib.Data.List.Basic
import Mathlib.Order.Lattice

/-!
# Serving a list by kind

There are requests of several kinds, and a list of servers, each of which serves one kind and has been seen at
some time. A turn looks for a server of whose kind there is a request: it takes the first in the list and
moves to the one of the same kind behind it that has been seen last; if there is no request of that kind it
goes on behind that one. The server that is found is taken off the list with a request, and turns are taken
until nothing is found.

Who stands between a server and the later one of its kind is passed over. `Starves` says of the list and of
the requests when this leaves a server without work although there is a request of its kind, and
`starving_serve_iff` that this is exactly when it happens.
-/

namespace Gds

open List Nat

section Serving

variable {α κ τ : Type} [DecidableEq κ] [LinearOrder τ] (key : α → κ) (seen : α → τ)

/-- Move to a later server of the same kind that has been seen later. A position is a server with those
behind it. -/
def recent : α × List α → List α → α × List α
  | wrk, [] => wrk
  | wrk, q :: next =>
    recent (if key wrk.1 = key q ∧ seen q > seen wrk.1 then (q, next) else wrk) next

/-- Look for a server of whose kind there is a request. -/
def find (requests : κ → ℕ) : ℕ → List α → Option (α × List α)
  | 0, _ => none
  | _ + 1, [] => none
  | fuel + 1, p :: next =>
    if 0 < requests (key (recent key seen (p, next) next).1) then some (recent key seen (p, next) next)
    else find requests fuel (recent key seen (p, next) next).2

/-- A request of a kind is taken. -/
def takeOne (requests : κ → ℕ) (kind : κ) : κ → ℕ := Function.update requests kind (requests kind - 1)

/-- Take turns until nothing is found. -/
def serve : ℕ → List α → (κ → ℕ) → List α × (κ → ℕ)
  | 0, l, requests => (l, requests)
  | fuel + 1, l, requests =>
    match find key seen requests l.length l with
    | none => (l, requests)
    | some (q, rest) => serve fuel (l.take (l.length - rest.length - 1) ++ rest) (takeOne requests (key q))

/-- A server has no work although there is a request of its kind. -/
def Starving (state : List α × (κ → ℕ)) : Prop := ∃ x ∈ state.1, 0 < state.2 (key x)

/-- The first among those of a kind that have been seen last, with those before and behind it. -/
structure IsRecent (kind : κ) (l before : List α) (q : α) (rest : List α) : Prop where
  split : l = before ++ q :: rest
  key_eq : key q = kind
  before : ∀ x ∈ before, key x = kind → seen x < seen q
  behind : ∀ x ∈ rest, key x = kind → seen x ≤ seen q

/-- How many servers there are of a kind. -/
def countKind (kind : κ) (l : List α) : ℕ := l.countP fun x => key x = kind

/-- Servers will be left without work. -/
inductive Starves : (κ → ℕ) → List α → Prop
  /-- There is a request for the first kind, and it happens after that has been served. -/
  | served {requests : κ → ℕ} {p q : α} {next before rest : List α}
      (hrecent : IsRecent key seen (key p) (p :: next) before q rest) (hrequest : 0 < requests (key p))
      (hlater : Starves (takeOne requests (key p)) (before ++ rest)) : Starves requests (p :: next)
  /-- There is none, and among those that are passed over is one for whose kind there are more requests than
  there are servers left to come. -/
  | passed {requests : κ → ℕ} {p q y : α} {next before rest : List α}
      (hrecent : IsRecent key seen (key p) (p :: next) before q rest) (hrequest : requests (key p) = 0)
      (hy : y ∈ before) (hmore : countKind key (key y) rest < requests (key y)) : Starves requests (p :: next)
  /-- There is none, and it happens among those left to come. -/
  | later {requests : κ → ℕ} {p q : α} {next before rest : List α}
      (hrecent : IsRecent key seen (key p) (p :: next) before q rest) (hrequest : requests (key p) = 0)
      (hlater : Starves requests rest) : Starves requests (p :: next)

variable {key seen}

lemma recent_isRecent {l : List α} (next : List α) (wrk : α × List α) (before passed : List α)
    (hl : l = before ++ wrk.1 :: wrk.2) (hnext : wrk.2 = passed ++ next)
    (hbefore : ∀ x ∈ before, key x = key wrk.1 → seen x < seen wrk.1)
    (hpassed : ∀ x ∈ passed, key x = key wrk.1 → seen x ≤ seen wrk.1) :
    ∃ before', IsRecent key seen (key wrk.1) l before' (recent key seen wrk next).1
      (recent key seen wrk next).2 := by
  induction next generalizing before wrk passed with
  | nil =>
    rw [append_nil] at hnext
    exact ⟨before, hl, rfl, hbefore, by rw [recent, hnext]; exact hpassed⟩
  | cons q next ih =>
    rw [recent]
    by_cases hmove : key wrk.1 = key q ∧ seen q > seen wrk.1
    · have hsplit : l = (before ++ wrk.1 :: passed) ++ q :: next := by
        rw [hl, hnext, append_assoc]
        rfl
      have hold : ∀ x ∈ before ++ wrk.1 :: passed, key x = key q → seen x < seen q := fun x hx hkey => by
        have hkey' : key x = key wrk.1 := hkey.trans hmove.1.symm
        rcases mem_append.mp hx with hx | hx
        · exact lt_trans (hbefore x hx hkey') hmove.2
        rcases mem_cons.mp hx with rfl | hx
        · exact hmove.2
        · exact lt_of_le_of_lt (hpassed x hx hkey') hmove.2
      rw [if_pos hmove, hmove.1]
      exact ih (q, next) _ [] hsplit rfl hold fun x hx => (by cases hx)
    · rw [if_neg hmove]
      refine ih wrk before (passed ++ [q]) hl (by rw [hnext, append_assoc]; rfl) hbefore fun x hx hkey => ?_
      rcases mem_append.mp hx with hx | hx
      · exact hpassed x hx hkey
      · obtain rfl := mem_singleton.mp hx
        exact le_of_not_gt fun hlt => hmove ⟨hkey.symm, hlt⟩

variable (key seen) in
lemma recent_spec (p : α) (next : List α) : ∃ before, IsRecent key seen (key p) (p :: next) before
    (recent key seen (p, next) next).1 (recent key seen (p, next) next).2 :=
  recent_isRecent next (p, next) [] [] rfl rfl (fun x hx => (by cases hx)) fun x hx => (by cases hx)

omit [DecidableEq κ] in
lemma IsRecent.others_subset {kind : κ} {l before rest : List α} {q : α}
    (h : IsRecent key seen kind l before q rest) : before ++ rest ⊆ l := by
  rw [h.split]
  exact List.Subset.trans (subset_cons_self q _) (perm_middle.symm.subset)

omit [DecidableEq κ] in
lemma IsRecent.unique {kind : κ} {l before before' rest rest' : List α} {q q' : α}
    (h : IsRecent key seen kind l before q rest) (h' : IsRecent key seen kind l before' q' rest') :
    before = before' ∧ q = q' ∧ rest = rest' := by
  have hsplit : before ++ q :: rest = before' ++ q' :: rest' := h.split.symm.trans h'.split
  have hfirst : ∀ {b b' r r' : List α} {x x' : α}, IsRecent key seen kind l b x r →
      IsRecent key seen kind l b' x' r' → ∀ {t}, b' = b ++ x :: t → False := by
    intro b b' r r' x x' hx hx' t ht
    have hlt : seen x < seen x' := hx'.before x (by rw [ht]; simp) hx.key_eq
    have hr : r = t ++ x' :: r' := by
      have heq := hx.split.symm.trans hx'.split
      rw [ht, append_assoc, append_cancel_left_eq] at heq
      exact (cons.inj heq).2
    exact absurd (hx.behind x' (by rw [hr]; simp) hx'.key_eq) (not_le_of_gt hlt)
  rcases append_eq_append_iff.mp hsplit with ⟨t, hb, hr⟩ | ⟨t, hb, hr⟩
  · cases t with
    | nil =>
      rw [nil_append] at hr
      obtain ⟨rfl, rfl⟩ := cons.inj hr
      exact ⟨by rw [hb, append_nil], rfl, rfl⟩
    | cons x t =>
      obtain ⟨rfl, -⟩ := cons.inj hr
      exact (hfirst h h' hb).elim
  · cases t with
    | nil =>
      rw [nil_append] at hr
      obtain ⟨rfl, rfl⟩ := cons.inj hr
      exact ⟨by rw [hb, append_nil], rfl, rfl⟩
    | cons x t =>
      obtain ⟨rfl, -⟩ := cons.inj hr
      exact (hfirst h' h hb).elim

/-! ### What has been passed over -/

/-- Looking for a server passes over a part of the list: there is no request of the kind of those it stops at,
and it goes on behind the last of that kind. -/
inductive Passed (key : α → κ) (seen : α → τ) (requests : κ → ℕ) : List α → List α → Prop
  | nil (rest : List α) : Passed key seen requests [] rest
  | cons (p q : α) (next before passed rest : List α)
      (hrecent : IsRecent key seen (key p) (p :: next) before q (passed ++ rest)) (hrequest : requests (key p) = 0)
      (hpassed : Passed key seen requests passed rest) : Passed key seen requests (before ++ q :: passed) rest

omit [DecidableEq κ] in
lemma Passed.snoc {requests : κ → ℕ} {passed : List α} {p q : α} {next before rest : List α}
    (h : Passed key seen requests passed (p :: next))
    (hrecent : IsRecent key seen (key p) (p :: next) before q rest) (hrequest : requests (key p) = 0) :
    Passed key seen requests (passed ++ (before ++ [q])) rest := by
  have hlist : p :: next = (before ++ [q]) ++ rest := by
    rw [hrecent.split, append_assoc]
    rfl
  generalize hl : p :: next = l at h
  induction h with
  | nil rest' => exact .cons p q next before [] rest hrecent hrequest (.nil rest)
  | cons p' q' next' before' passed rest' hrecent' hrequest' _ ih =>
    rw [append_assoc, cons_append]
    refine .cons p' q' next' before' _ rest ?_ hrequest' (ih hl)
    rw [append_assoc, ← hlist, hl]
    exact hrecent'

omit [DecidableEq κ] in
lemma IsRecent.of_subset {kind : κ} {p q : α} {next before rest rest' : List α}
    (h : IsRecent key seen kind (p :: next) before q rest) (hsubset : rest' ⊆ rest) :
    ∃ next', IsRecent key seen kind (p :: next') before q rest' := by
  have hhead : ∃ next', before ++ q :: rest' = p :: next' := by
    have hsplit := h.split
    cases before with
    | nil => exact ⟨rest', by rw [(cons.inj hsplit).1]; rfl⟩
    | cons x before => exact ⟨before ++ q :: rest', by rw [(cons.inj hsplit).1]; rfl⟩
  obtain ⟨next', hnext'⟩ := hhead
  exact ⟨next', hnext'.symm, h.key_eq, h.before, fun x hx => h.behind x (hsubset hx)⟩

omit [DecidableEq κ] in
lemma Passed.of_subset {requests requests' : κ → ℕ} {passed rest rest' : List α}
    (h : Passed key seen requests passed rest) (hsubset : rest' ⊆ rest)
    (hrequests : ∀ kind, requests kind = 0 → requests' kind = 0) : Passed key seen requests' passed rest' := by
  induction h with
  | nil rest => exact .nil rest'
  | cons p q next before passed rest hrecent hrequest _ ih =>
    have hbehind : passed ++ rest' ⊆ passed ++ rest := fun x hx =>
      mem_append.mpr ((mem_append.mp hx).imp_right fun hmem => hsubset hmem)
    obtain ⟨next', hrecent'⟩ := hrecent.of_subset hbehind
    exact .cons p q next' before passed rest' hrecent' (hrequests _ hrequest) (ih hsubset)

lemma IsRecent.recent_eq {p q : α} {next before rest : List α}
    (h : IsRecent key seen (key p) (p :: next) before q rest) : recent key seen (p, next) next = (q, rest) := by
  obtain ⟨before', h'⟩ := recent_spec key seen p next
  obtain ⟨-, hq, hrest⟩ := h.unique h'
  rw [hq, hrest]

lemma Passed.find_eq {requests : κ → ℕ} {passed rest : List α} (h : Passed key seen requests passed rest)
    (fuel : ℕ) (hfuel : (passed ++ rest).length ≤ fuel) : ∃ fuel', rest.length ≤ fuel' ∧
      find key seen requests fuel (passed ++ rest) = find key seen requests fuel' rest := by
  induction h generalizing fuel with
  | nil rest => exact ⟨fuel, hfuel, rfl⟩
  | cons p q next before passed rest hrecent hrequest _ ih =>
    have hlist : before ++ q :: passed ++ rest = p :: next := by
      rw [hrecent.split, append_assoc]
      rfl
    rw [hlist] at hfuel ⊢
    cases fuel with
    | zero => exact absurd hfuel (by simp)
    | succ fuel =>
      have hlen : (passed ++ rest).length ≤ fuel := by
        have hsplit := congrArg length hrecent.split
        rw [length_append, length_cons, length_cons] at hsplit
        rw [length_cons] at hfuel
        omega
      obtain ⟨fuel', hfuel', hfind⟩ := ih fuel hlen
      refine ⟨fuel', hfuel', ?_⟩
      rw [find, hrecent.recent_eq, if_neg (by rw [hrecent.key_eq, hrequest]; exact lt_irrefl 0)]
      exact hfind

/-! ### A turn -/

lemma find_nil (requests : κ → ℕ) (fuel : ℕ) : find key seen requests fuel [] = none := by
  cases fuel <;> rfl

lemma Passed.serve_nil {requests : κ → ℕ} {passed : List α} (h : Passed key seen requests passed [])
    (fuel : ℕ) : serve key seen fuel (passed ++ []) requests = (passed ++ [], requests) := by
  cases fuel with
  | zero => rfl
  | succ fuel =>
    obtain ⟨fuel', -, hfind⟩ := h.find_eq _ (le_refl _)
    rw [serve, hfind, find_nil]

lemma Passed.serve_cons {requests : κ → ℕ} {passed : List α} {p q : α} {next before rest : List α}
    (h : Passed key seen requests passed (p :: next))
    (hrecent : IsRecent key seen (key p) (p :: next) before q rest) (hrequest : 0 < requests (key p)) (fuel : ℕ) :
    serve key seen (fuel + 1) (passed ++ p :: next) requests =
      serve key seen fuel (passed ++ (before ++ rest)) (takeOne requests (key p)) := by
  obtain ⟨fuel', hfuel', hfind⟩ := h.find_eq _ (le_refl _)
  have hfound : find key seen requests fuel' (p :: next) = some (q, rest) := by
    cases fuel' with
    | zero => exact absurd hfuel' (by simp)
    | succ fuel' => rw [find, hrecent.recent_eq, if_pos (by rw [hrecent.key_eq]; exact hrequest)]
  have htake : (passed ++ p :: next).take ((passed ++ p :: next).length - rest.length - 1) = passed ++ before := by
    rw [hrecent.split, ← append_assoc]
    refine take_left' ?_
    simp only [length_append, length_cons]
    omega
  rw [serve, hfind, hfound]
  change serve key seen fuel (_ ++ rest) (takeOne requests (key q)) = _
  rw [htake, hrecent.key_eq, append_assoc]

omit [LinearOrder τ] in
lemma countKind_middle (kind : κ) (before rest : List α) (q : α) :
    countKind key kind (before ++ q :: rest) =
      countKind key kind (before ++ rest) + if key q = kind then 1 else 0 := by
  rw [countKind, countKind, countP_append, countP_cons, countP_append]
  by_cases hkey : key q = kind
  · simp only [hkey, decide_true, if_true]
    omega
  · simp [hkey]

omit [LinearOrder τ] in
lemma countKind_le_append (kind : κ) (before rest : List α) :
    countKind key kind rest ≤ countKind key kind (before ++ rest) := by
  rw [countKind, countKind, countP_append]
  omega

/-! ### When servers are left without work -/

lemma IsRecent.starves_served {requests : κ → ℕ} {p q : α} {next before rest : List α}
    (h : IsRecent key seen (key p) (p :: next) before q rest) (hrequest : 0 < requests (key p)) :
    Starves key seen requests (p :: next) ↔ Starves key seen (takeOne requests (key p)) (before ++ rest) := by
  constructor
  · intro hstarves
    cases hstarves with
    | served h' _ hlater =>
      obtain ⟨rfl, rfl, rfl⟩ := h.unique h'
      exact hlater
    | passed _ hzero | later _ hzero => exact absurd hzero (ne_of_gt hrequest)
  · exact fun hlater => .served h hrequest hlater

lemma IsRecent.starves_passed {requests : κ → ℕ} {p q : α} {next before rest : List α}
    (h : IsRecent key seen (key p) (p :: next) before q rest) (hrequest : requests (key p) = 0) :
    Starves key seen requests (p :: next) ↔
      (∃ y ∈ before, countKind key (key y) rest < requests (key y)) ∨ Starves key seen requests rest := by
  constructor
  · intro hstarves
    cases hstarves with
    | served _ hpos => exact absurd hrequest (ne_of_gt hpos)
    | passed h' _ hy hmore =>
      obtain ⟨rfl, rfl, rfl⟩ := h.unique h'
      exact .inl ⟨_, hy, hmore⟩
    | later h' _ hlater =>
      obtain ⟨rfl, rfl, rfl⟩ := h.unique h'
      exact .inr hlater
  · rintro (⟨y, hy, hmore⟩ | hlater)
    · exact .passed h hrequest hy hmore
    · exact .later h hrequest hlater

/-- There are at most as many requests as servers left to come, for the kinds that have been passed over. -/
def Covered (key : α → κ) (requests : κ → ℕ) (passed rest : List α) : Prop :=
  ∀ y ∈ passed, requests (key y) ≤ countKind key (key y) rest

omit [LinearOrder τ] in
lemma covered_served {requests : κ → ℕ} {passed before rest : List α} {q : α}
    (hrequest : 0 < requests (key q)) : Covered key (takeOne requests (key q)) passed (before ++ rest) ↔
      Covered key requests passed (before ++ q :: rest) := by
  refine forall₂_congr fun y _ => ?_
  rw [countKind_middle, takeOne, Function.update_apply]
  by_cases hkey : key y = key q
  · rw [if_pos hkey, if_pos hkey.symm, hkey]
    omega
  · rw [if_neg hkey, if_neg (Ne.symm hkey), Nat.add_zero]

omit [LinearOrder τ] in
lemma Covered.exists_before {requests : κ → ℕ} {passed before rest : List α} {q y : α}
    (h : Covered key requests passed (before ++ q :: rest)) (hrequest : requests (key q) = 0)
    (hy : y ∈ passed ++ (before ++ [q])) (hmore : countKind key (key y) rest < requests (key y)) :
    ∃ z ∈ before, countKind key (key z) rest < requests (key z) := by
  have hne : key y ≠ key q := fun heq => by
    rw [heq, hrequest] at hmore
    exact absurd hmore (not_lt_zero _)
  rcases mem_append.mp hy with hpassed | hnow
  · have hcovered := h y hpassed
    have hpos : 0 < countKind key (key y) before := by
      rw [countKind_middle, if_neg (Ne.symm hne), countKind, countP_append] at hcovered
      rw [countKind] at hmore ⊢
      omega
    obtain ⟨z, hz, hkind⟩ := countP_pos_iff.mp hpos
    rw [decide_eq_true_eq] at hkind
    exact ⟨z, hz, by rw [hkind]; exact hmore⟩
  · rcases mem_append.mp hnow with hbefore | hlast
    · exact ⟨y, hbefore, hmore⟩
    · exact absurd (congrArg key (mem_singleton.mp hlast)) hne

lemma Passed.starving_serve {requests : κ → ℕ} {passed rest : List α} (h : Passed key seen requests passed rest)
    (fuel : ℕ) (hfuel : rest.length ≤ fuel) :
    (¬ Covered key requests passed rest → Starving key (serve key seen fuel (passed ++ rest) requests)) ∧
    (Covered key requests passed rest →
      (Starving key (serve key seen fuel (passed ++ rest) requests) ↔ Starves key seen requests rest)) := by
  -- By induction on the length of what is left to come.
  induction hn : rest.length using Nat.strongRecOn generalizing requests passed rest fuel with
  | _ n ih =>
    cases rest with
    | nil =>
      rw [h.serve_nil]
      constructor
      · intro hcovered
        obtain ⟨y, hy, hmore⟩ : ∃ y ∈ passed, ¬ requests (key y) ≤ countKind key (key y) [] := by
          simpa [Covered] using hcovered
        have hpos : 0 < requests (key y) := by omega
        exact ⟨y, by rw [append_nil]; exact hy, hpos⟩
      · intro hcovered
        constructor
        · rintro ⟨x, hx, hpos⟩
          rw [append_nil] at hx
          exact absurd (hcovered x hx) (not_le_of_gt hpos)
        · exact fun hstarves => by cases hstarves
    | cons p next =>
      obtain ⟨before, hrecent⟩ := recent_spec key seen p next
      generalize (recent key seen (p, next) next).1 = q at hrecent
      generalize (recent key seen (p, next) next).2 = rest at hrecent
      have hlen : before.length + rest.length + 1 = n := by
        rw [← hn, hrecent.split, length_append, length_cons]
        omega
      by_cases hrequest : requests (key p) = 0
      · -- Nobody is served here: the state stays and more is passed over.
        have hsame : passed ++ p :: next = passed ++ (before ++ [q]) ++ rest := by
          rw [hrecent.split]
          simp
        have hq : requests (key q) = 0 := by
          rw [hrecent.key_eq]
          exact hrequest
        obtain ⟨hnot, hcov⟩ := ih rest.length (by omega) (h.snoc hrecent hrequest) fuel (by omega) rfl
        rw [hsame, hrecent.starves_passed hrequest]
        constructor
        · intro hcovered
          refine hnot fun hall => hcovered fun y hy => ?_
          have hle := hall y (mem_append_left _ hy)
          rw [hrecent.split, append_cons]
          exact Nat.le_trans hle (countKind_le_append _ _ _)
        · intro hcovered
          rw [hrecent.split] at hcovered
          by_cases hall : Covered key requests (passed ++ (before ++ [q])) rest
          · rw [hcov hall]
            refine ⟨.inr, fun hor => hor.resolve_left ?_⟩
            rintro ⟨y, hy, hmore⟩
            have hle := hall y (mem_append_right _ (mem_append_left _ hy))
            omega
          · obtain ⟨y, hy, hmore⟩ : ∃ y ∈ passed ++ (before ++ [q]),
                countKind key (key y) rest < requests (key y) := by
              by_contra hnone
              exact hall fun y hy => not_lt.mp fun hlt => hnone ⟨y, hy, hlt⟩
            exact ⟨fun _ => .inl (hcovered.exists_before hq hy hmore), fun _ => hnot hall⟩
      · have hpos : 0 < requests (key p) := Nat.pos_of_ne_zero hrequest
        obtain ⟨fuel, rfl⟩ : ∃ fuel', fuel = fuel' + 1 := ⟨fuel - 1, by omega⟩
        have hkeep : ∀ kind, requests kind = 0 → takeOne requests (key p) kind = 0 := fun kind hzero => by
          rw [takeOne, Function.update_apply]
          split
          next heq => exact absurd (heq ▸ hzero) hrequest
          next => exact hzero
        have hlength : (before ++ rest).length = before.length + rest.length := length_append
        have hcovered : Covered key (takeOne requests (key p)) passed (before ++ rest) ↔
            Covered key requests passed (p :: next) := by
          rw [hrecent.split, ← hrecent.key_eq]
          exact covered_served (by rw [hrecent.key_eq]; exact hpos)
        rw [h.serve_cons hrecent hpos, hrecent.starves_served hpos, ← hcovered]
        exact ih _ (by omega) (h.of_subset hrecent.others_subset hkeep) fuel (by omega) rfl

lemma starving_serve_iff (requests : κ → ℕ) (l : List α) (fuel : ℕ) (hfuel : l.length ≤ fuel) :
    Starving key (serve key seen fuel l requests) ↔ Starves key seen requests l :=
  ((Passed.nil l).starving_serve fuel hfuel).2 fun y hy => (by cases hy)

omit [DecidableEq κ] in
lemma IsRecent.congr {key' : α → κ} {seen' : α → τ} {kind : κ} {l before rest : List α} {q : α}
    (h : IsRecent key seen kind l before q rest) (hkey : ∀ x ∈ l, key x = key' x)
    (hseen : ∀ x ∈ l, seen x = seen' x) : IsRecent key' seen' kind l before q rest := by
  have hq : q ∈ l := by rw [h.split]; simp
  have hbefore : ∀ x ∈ before, x ∈ l := fun x hx => by rw [h.split]; simp [hx]
  have hbehind : ∀ x ∈ rest, x ∈ l := fun x hx => by rw [h.split]; simp [hx]
  refine ⟨h.split, (hkey q hq).symm.trans h.key_eq, fun x hx hkind => ?_, fun x hx hkind => ?_⟩
  · rw [← hseen x (hbefore x hx), ← hseen q hq]
    exact h.before x hx ((hkey x (hbefore x hx)).trans hkind)
  · rw [← hseen x (hbehind x hx), ← hseen q hq]
    exact h.behind x hx ((hkey x (hbehind x hx)).trans hkind)

lemma Starves.congr {key' : α → κ} {seen' : α → τ} {requests : κ → ℕ} {l : List α}
    (h : Starves key seen requests l) (hkey : ∀ x ∈ l, key x = key' x) (hseen : ∀ x ∈ l, seen x = seen' x) :
    Starves key' seen' requests l := by
  induction h with
  | @served requests p q next before rest hrecent hrequest _ ih =>
    have hp := hkey p mem_cons_self
    have hlater := ih (fun x hx => hkey x (hrecent.others_subset hx)) fun x hx => hseen x (hrecent.others_subset hx)
    rw [hp] at hrecent hrequest hlater
    exact .served (hrecent.congr hkey hseen) hrequest hlater
  | @passed requests p q y next before rest hrecent hrequest hy hmore =>
    have hp := hkey p mem_cons_self
    have hkind := hkey y (hrecent.others_subset (mem_append_left _ hy))
    have hcount : countKind key (key y) rest = countKind key' (key' y) rest := by
      rw [countKind, countKind, hkind]
      refine countP_congr fun x hx => ?_
      rw [hkey x (hrecent.others_subset (mem_append_right _ hx))]
    rw [hcount, hkind] at hmore
    rw [hp] at hrecent hrequest
    exact .passed (hrecent.congr hkey hseen) hrequest hy hmore
  | @later requests p q next before rest hrecent hrequest _ ih =>
    have hp := hkey p mem_cons_self
    have hsubset : ∀ x ∈ rest, x ∈ p :: next := fun x hx => hrecent.others_subset (mem_append_right _ hx)
    have hlater := ih (fun x hx => hkey x (hsubset x hx)) fun x hx => hseen x (hsubset x hx)
    rw [hp] at hrecent hrequest
    exact .later (hrecent.congr hkey hseen) hrequest hlater

lemma not_starves_of_nodup {requests : κ → ℕ} {l : List α} (hnodup : (l.map key).Nodup) :
    ¬ Starves key seen requests l := by
  intro h
  have hfirst : ∀ {p q : α} {next before rest : List α}, (((p :: next).map key).Nodup) →
      IsRecent key seen (key p) (p :: next) before q rest → before = [] ∧ rest = next := by
    intro p q next before rest hnodup hrecent
    cases before with
    | nil =>
      have hsplit := hrecent.split
      exact ⟨rfl, (cons.inj hsplit).2.symm⟩
    | cons x before =>
      have hsplit := hrecent.split
      obtain ⟨rfl, rfl⟩ := cons.inj hsplit
      have hmem : key p ∈ (before ++ q :: rest).map key := mem_map.mpr ⟨q, by simp, hrecent.key_eq⟩
      exact absurd hmem (nodup_cons.mp hnodup).1
  induction h with
  | served hrecent _ _ ih | later hrecent _ _ ih =>
    obtain ⟨rfl, rfl⟩ := hfirst hnodup hrecent
    exact ih (nodup_cons.mp hnodup).2
  | passed hrecent _ hy _ =>
    obtain ⟨rfl, -⟩ := hfirst hnodup hrecent
    cases hy

end Serving

end Gds
