import Dfs.Lib.Assoc

/-!
# Maps of maps

A map from outer keys to maps from inner keys, kept without empty inner maps: an entry that
was the last one of its outer key takes the outer key with it.
-/

namespace Dfs.Lib

abbrev Nested (κ ι α : Type) [DecidableEq ι] := Assoc κ (Assoc ι α)

namespace Nested

variable {κ ι α : Type} [DecidableEq κ] [DecidableEq ι]

def find (m : Nested κ ι α) (k : κ) (i : ι) : Option α := (m.lookup k).bind fun inner => inner.lookup i

def put (m : Nested κ ι α) (k : κ) (i : ι) (v : α) : Nested κ ι α :=
  m.insert k (((m.lookup k).getD ∅).insert i v)

def discard (m : Nested κ ι α) (k : κ) (i : ι) : Nested κ ι α :=
  let inner := ((m.lookup k).getD ∅).erase i
  if Assoc.isEmpty inner then m.erase k else m.insert k inner

/-- Some entry satisfies `p`. -/
def any (m : Nested κ ι α) (p : α → Bool) : Bool := Assoc.any m fun _ inner => Assoc.any inner fun _ v => p v

@[simp] theorem find_empty (k : κ) (i : ι) : find (∅ : Nested κ ι α) k i = none := by
  simp [find]

theorem find_getD (m : Nested κ ι α) (k : κ) (i : ι) : ((m.lookup k).getD ∅).lookup i = find m k i := by
  rw [find]
  cases m.lookup k with
  | none => simp
  | some inner => rfl

@[grind =] theorem find_put (m : Nested κ ι α) (k k' : κ) (i i' : ι) (v : α) :
    find (put m k i v) k' i' = if k' = k ∧ i' = i then some v else find m k' i' := by
  by_cases outer : k' = k
  · subst outer
    rw [find, put, Assoc.lookup_insert_ite, if_pos rfl, Option.bind_some, Assoc.lookup_insert_ite, find_getD]
    simp
  · rw [find, put, Assoc.lookup_insert_ite, if_neg outer, if_neg fun h => outer h.1]
    rfl

@[grind =] theorem find_discard (m : Nested κ ι α) (k k' : κ) (i i' : ι) :
    find (discard m k i) k' i' = if k' = k ∧ i' = i then none else find m k' i' := by
  have inner : ∀ j, (((m.lookup k).getD ∅).erase i).lookup j = if j = i then none else find m k j := fun j => by
    rw [Assoc.lookup_erase_ite, find_getD]
  rw [discard]
  split
  · rename_i empty
    rw [find, Assoc.lookup_erase_ite]
    by_cases outer : k' = k
    · subst outer
      have nothing := (Assoc.isEmpty_iff _).1 empty i'
      rw [inner] at nothing
      rw [if_pos rfl, Option.bind_none]
      by_cases here : i' = i
      · simp [here]
      · rw [if_neg here] at nothing
        simp [here, nothing]
    · rw [if_neg outer, if_neg fun h => outer h.1]
      rfl
  · rw [find, Assoc.lookup_insert_ite]
    by_cases outer : k' = k
    · subst outer
      rw [if_pos rfl, Option.bind_some, inner]
      simp
    · rw [if_neg outer, if_neg fun h => outer h.1]
      rfl

theorem any_iff (m : Nested κ ι α) (p : α → Bool) :
    any m p = true ↔ ∃ k i v, find m k i = some v ∧ p v = true := by
  simp only [any, Assoc.any_iff, find]
  constructor
  · rintro ⟨k, inner, outer, i, v, found, holds⟩
    exact ⟨k, i, v, by rw [outer]; exact found, holds⟩
  · rintro ⟨k, i, v, found, holds⟩
    obtain ⟨inner, outer, found⟩ := Option.bind_eq_some_iff.1 found
    exact ⟨k, inner, outer, i, v, found, holds⟩

/-! ## One entry changed -/

/-- `m'` is `m` with the entry at `k` and `i` left alone, taken out, or replaced by one with `P`. -/
inductive Change (P : α → Prop) (k : κ) (i : ι) (m : Nested κ ι α) : Nested κ ι α → Prop where
  | same : Change P k i m m
  | discarded : Change P k i m (discard m k i)
  | replaced (v : α) (holds : P v) : Change P k i m (put m k i v)

/-- No outer key has an empty inner map. -/
def NoEmpty (m : Nested κ ι α) : Prop := ∀ k inner, m.lookup k = some inner → Assoc.isEmpty inner = false

variable {P Q : α → Prop} {k k' : κ} {i i' : ι} {m m' : Nested κ ι α}

theorem Change.mono (h : Change P k i m m') (imp : ∀ v, P v → Q v) : Change Q k i m m' := by
  cases h with
  | same => exact .same
  | discarded => exact .discarded
  | replaced v holds => exact .replaced v (imp v holds)

theorem Change.find_other (h : Change P k i m m') (ne : ¬ (k' = k ∧ i' = i)) : find m' k' i' = find m k' i' := by
  cases h with
  | same => rfl
  | discarded => rw [find_discard, if_neg ne]
  | replaced v holds => rw [find_put, if_neg ne]

theorem Change.all (h : Change P k i m m') (all : ∀ k i v, find m k i = some v → P v) {v : α}
    (found : find m' k' i' = some v) : P v := by
  cases h with
  | same => exact all _ _ _ found
  | discarded =>
      rw [find_discard] at found
      split at found
      · cases found
      · exact all _ _ _ found
  | replaced v' holds =>
      rw [find_put] at found
      split at found
      · cases found
        exact holds
      · exact all _ _ _ found

theorem Change.noEmpty (h : Change P k i m m') (none : NoEmpty m) : NoEmpty m' := by
  intro k' inner found
  cases h with
  | same => exact none k' inner found
  | discarded =>
      unfold discard at found
      dsimp only at found
      split at found
      · rw [Assoc.lookup_erase_ite] at found
        split at found
        · cases found
        · exact none k' inner found
      · rename_i filled
        rw [Assoc.lookup_insert_ite] at found
        split at found
        · cases found
          simpa using filled
        · exact none k' inner found
  | replaced v holds =>
      rw [put, Assoc.lookup_insert_ite] at found
      split at found
      · cases found
        rw [← Bool.not_eq_true, Assoc.isEmpty_iff]
        intro nothing
        have here := nothing i
        rw [Assoc.lookup_insert_ite, if_pos rfl] at here
        cases here
      · exact none k' inner found

end Nested

end Dfs.Lib
