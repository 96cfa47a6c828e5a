import Mathlib.Data.Finmap

/-!
# Maps kept in slots

A finite map is kept in slots if every slot is empty or holds an entry, a key with its value, every entry of
the map is in a slot, and no key is in two. What writes of a slot do to the map is said here once.
-/

namespace Czmq

open Function List Option Finmap Prod

/-- The entries in the slots are those of the map, each in one slot. -/
structure Holds {ι κ β : Type} (slots : ι → Option (κ × β)) (m : Finmap fun _ : κ => β) [DecidableEq κ] : Prop where
  content : ∀ key value, m.lookup key = some value ↔ ∃ p, slots p = some (key, value)
  distinct : ∀ p q key value value', slots p = some (key, value) → slots q = some (key, value') → p = q

section Slots

variable {ι κ β : Type} [DecidableEq ι] [DecidableEq κ] {slots : ι → Option (κ × β)}
  {m : Finmap fun _ : κ => β}

omit [DecidableEq ι] in
lemma holds_empty : Holds (fun _ : ι => (none : Option (κ × β))) ∅ where
  content key value := by
    rw [lookup_empty]
    exact ⟨fun h => (by cases h), fun ⟨_, h⟩ => (by cases h)⟩
  distinct _ _ _ _ _ h := by cases h

omit [DecidableEq ι] in
lemma Holds.notMem (h : Holds slots m) {key : κ} (hnone : ∀ p value, slots p ≠ some (key, value)) : key ∉ m := by
  intro hmem
  obtain ⟨value, hvalue⟩ := mem_iff.mp hmem
  obtain ⟨p, hp⟩ := (h.content key value).mp hvalue
  exact hnone p value hp

omit [DecidableEq ι] in
lemma Holds.lookup (h : Holds slots m) {p : ι} {key : κ} {value : β} (hp : slots p = some (key, value)) :
    m.lookup key = some value :=
  (h.content key value).mpr ⟨p, hp⟩

lemma Holds.erase (h : Holds slots m) {p : ι} {key : κ} {value : β} (hp : slots p = some (key, value)) :
    Holds (update slots p none) (m.erase key) where
  content k v := by
    by_cases hk : k = key
    · rw [hk, lookup_erase]
      refine ⟨fun hnone => (by cases hnone), fun ⟨q, hq⟩ => ?_⟩
      rw [update_apply] at hq
      split at hq
      next => cases hq
      next hne => exact absurd (h.distinct q p key v value hq hp) hne
    · rw [lookup_erase_ne hk, h.content]
      refine exists_congr fun q => ?_
      rw [update_apply]
      split
      next heq =>
        rw [heq, hp]
        exact ⟨fun hsome => absurd (congrArg fst (some.inj hsome)).symm hk, fun hnone => (by cases hnone)⟩
      next => rfl
  distinct q r k v v' hq hr := by
    rw [update_apply] at hq hr
    split at hq
    · cases hq
    split at hr
    next => cases hr
    next => exact h.distinct q r k v v' hq hr

lemma Holds.insert (h : Holds slots m) {p : ι} {key : κ} (value : β) (hp : slots p = none) (hkey : key ∉ m) :
    Holds (update slots p (some (key, value))) (m.insert key value) where
  content k v := by
    by_cases hk : k = key
    · rw [hk, lookup_insert]
      constructor
      · exact fun heq => ⟨p, by rw [update_self, some.inj heq]⟩
      rintro ⟨q, hq⟩
      rw [update_apply] at hq
      split at hq
      next => exact congrArg some (congrArg snd (some.inj hq))
      next => exact absurd (mem_iff.mpr ⟨v, h.lookup hq⟩) hkey
    · rw [lookup_insert_of_ne _ hk, h.content]
      constructor
      · rintro ⟨q, hq⟩
        have hne : q ≠ p := by
          rintro rfl
          rw [hp] at hq
          cases hq
        exact ⟨q, by rw [update_of_ne hne]; exact hq⟩
      · rintro ⟨q, hq⟩
        rw [update_apply] at hq
        split at hq
        next => exact absurd (congrArg fst (some.inj hq) : key = k).symm hk
        next => exact ⟨q, hq⟩
  distinct q r k v v' hq hr := by
    have hkeys : ∀ q v, slots q = some (k, v) → k ≠ key := fun q v hq heq =>
      hkey (mem_iff.mpr ⟨v, heq ▸ h.lookup hq⟩)
    rw [update_apply] at hq hr
    split at hq <;> split at hr
    next heq heq' => rw [heq, heq']
    next => exact absurd (congrArg fst (some.inj hq) : key = k).symm (hkeys r v' hr)
    next => exact absurd (congrArg fst (some.inj hr) : key = k).symm (hkeys q v hq)
    next => exact h.distinct q r k v v' hq hr

lemma Holds.replace (h : Holds slots m) {p : ι} {key key' : κ} {value : β} (value' : β)
    (hp : slots p = some (key, value)) (hkey : key' = key ∨ key' ∉ m) :
    Holds (update slots p (some (key', value'))) ((m.erase key).insert key' value') := by
  have hnew : key' ∉ m.erase key := by
    rw [mem_erase]
    exact fun hmem => hkey.elim hmem.1 fun hnot => hnot hmem.2
  have hboth := (h.erase hp).insert value' (update_self p none slots) hnew
  rwa [update_idem] at hboth

omit [DecidableEq ι] in
lemma Holds.length_le (h : Holds slots m) {l : List ι} (hnodup : l.Nodup) (hl : ∀ p ∈ l, ∃ e, slots p = some e) :
    l.length ≤ m.keys.card := by
  have hkeys : ∃ keys : List κ, keys.Nodup ∧ keys.length = l.length ∧
      ∀ key ∈ keys, ∃ p ∈ l, ∃ value, slots p = some (key, value) := by
    induction l with
    | nil => exact ⟨[], nodup_nil, rfl, fun _ hkey => (by cases hkey)⟩
    | cons p l ih =>
      obtain ⟨hp, hnodup⟩ := nodup_cons.mp hnodup
      obtain ⟨⟨key, value⟩, he⟩ := hl p mem_cons_self
      obtain ⟨keys, hkeys, hlength, hall⟩ := ih hnodup fun q hq => hl q (mem_cons_of_mem _ hq)
      refine ⟨key :: keys, nodup_cons.mpr ⟨fun hmem => ?_, hkeys⟩, by rw [length_cons, hlength]; rfl, ?_⟩
      · obtain ⟨q, hq, value', he'⟩ := hall key hmem
        exact hp (h.distinct p q key value value' he he' ▸ hq)
      intro k hk
      rcases mem_cons.mp hk with rfl | hk
      · exact ⟨p, mem_cons_self, value, he⟩
      · obtain ⟨q, hq, he'⟩ := hall k hk
        exact ⟨q, mem_cons_of_mem _ hq, he'⟩
  obtain ⟨keys, hkeys, hlength, hall⟩ := hkeys
  rw [← hlength, ← toFinset_card_of_nodup hkeys]
  refine Finset.card_le_card fun key hkey => ?_
  obtain ⟨p, -, value, he⟩ := hall key (mem_toFinset.mp hkey)
  exact mem_keys.mpr (mem_iff.mpr ⟨value, h.lookup he⟩)

end Slots

section Keys

variable {κ β : Type} [DecidableEq κ] (m : Finmap fun _ : κ => β)

lemma card_keys_insert {key : κ} (value : β) (h : key ∉ m) :
    (m.insert key value).keys.card = m.keys.card + 1 := by
  have hkeys : (m.insert key value).keys = Insert.insert key m.keys := by
    ext k
    rw [Finmap.mem_keys, Finmap.mem_insert, Finset.mem_insert, Finmap.mem_keys]
  rw [hkeys, Finset.card_insert_of_notMem fun hmem => h (Finmap.mem_keys.mp hmem)]

lemma card_keys_erase {key : κ} (h : key ∈ m) : (m.erase key).keys.card + 1 = m.keys.card := by
  rw [keys_erase]
  exact Finset.card_erase_add_one (mem_keys.mpr h)

end Keys

end Czmq
