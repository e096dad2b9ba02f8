import Mathlib.Data.List.AList

/-!
# Finite maps as association lists

`Assoc κ α` is Mathlib's `AList` at a constant family: a list of pairs whose keys are
distinct by construction. This file adds the case forms of the lookup lemmas and a
Boolean search over the entries, stated through `lookup` so that the order in which a map
happens to store its entries never shows in a proof.
-/

namespace Dfs.Lib

/-- A finite map from `κ` to `α`. -/
abbrev Assoc (κ α : Type) := AList (fun _ : κ => α)

namespace Assoc

variable {κ α : Type} [DecidableEq κ]

@[grind =] theorem lookup_insert_ite (m : Assoc κ α) (k k' : κ) (v : α) :
    (m.insert k v).lookup k' = if k' = k then some v else m.lookup k' := by
  by_cases h : k' = k
  · subst h
    simp
  · simp [AList.lookup_insert_ne h, h]

@[grind =] theorem lookup_erase_ite (m : Assoc κ α) (k k' : κ) :
    (m.erase k).lookup k' = if k' = k then none else m.lookup k' := by
  by_cases h : k' = k
  · subst h
    simp
  · simp [AList.lookup_erase_ne h, h]

theorem mem_entries_iff (m : Assoc κ α) (k : κ) (v : α) :
    (⟨k, v⟩ : Sigma fun _ : κ => α) ∈ m.entries ↔ m.lookup k = some v :=
  (AList.mem_lookup_iff (s := m)).symm

/-- Some entry satisfies `p`. -/
def any (m : Assoc κ α) (p : κ → α → Bool) : Bool :=
  m.entries.any fun e => p e.1 e.2

theorem any_iff (m : Assoc κ α) (p : κ → α → Bool) :
    any m p = true ↔ ∃ k v, m.lookup k = some v ∧ p k v = true := by
  simp only [any, List.any_eq_true]
  constructor
  · rintro ⟨⟨k, v⟩, mem, holds⟩
    exact ⟨k, v, (mem_entries_iff m k v).1 mem, holds⟩
  · rintro ⟨k, v, found, holds⟩
    exact ⟨⟨k, v⟩, (mem_entries_iff m k v).2 found, holds⟩

/-- The map has no entries. -/
def isEmpty (m : Assoc κ α) : Bool := m.entries.isEmpty

theorem isEmpty_iff (m : Assoc κ α) : isEmpty m = true ↔ ∀ k, m.lookup k = none := by
  rw [isEmpty, List.isEmpty_iff]
  constructor
  · intro h k
    cases found : m.lookup k with
    | none => rfl
    | some v =>
        have mem := (mem_entries_iff m k v).2 found
        rw [h] at mem
        exact absurd mem List.not_mem_nil
  · intro h
    refine List.eq_nil_iff_forall_not_mem.2 fun e mem => ?_
    have found := (mem_entries_iff m e.1 e.2).1 mem
    rw [h e.1] at found
    exact absurd found (by simp)

/-- The entries whose key satisfies `p`. -/
def filterKeys (m : Assoc κ α) (p : κ → Bool) : Assoc κ α :=
  ⟨m.entries.filter fun e => p e.1, m.nodupKeys.sublist List.filter_sublist⟩

theorem lookup_filterKeys (m : Assoc κ α) (p : κ → Bool) (k : κ) :
    (filterKeys m p).lookup k = if p k = true then m.lookup k else none := by
  refine Option.ext fun v => ?_
  rw [← mem_entries_iff]
  by_cases keep : p k = true
  · simp [filterKeys, keep, mem_entries_iff]
  · simp [filterKeys, keep]

/-- The map with every key `k` replaced by `f k`. -/
def mapKeys (m : Assoc κ α) (f : κ → κ)
    (inj : ∀ k k' v v', m.lookup k = some v → m.lookup k' = some v' → f k = f k' → k = k') :
    Assoc κ α :=
  ⟨m.entries.map fun e => ⟨f e.1, e.2⟩, by
    rw [List.NodupKeys, List.keys, List.map_map]
    refine (List.nodup_map_iff_inj_on (List.NodupKeys.nodup m.nodupKeys)).2 fun a ha b hb same => ?_
    have ha' := (mem_entries_iff m a.1 a.2).1 ha
    have hb' := (mem_entries_iff m b.1 b.2).1 hb
    have key : a.1 = b.1 := inj _ _ _ _ ha' hb' same
    rw [key, hb'] at ha'
    exact Sigma.ext key (heq_of_eq (Option.some.inj ha').symm)⟩

theorem lookup_mapKeys {m : Assoc κ α} {f : κ → κ}
    {inj : ∀ k k' v v', m.lookup k = some v → m.lookup k' = some v' → f k = f k' → k = k'}
    {k : κ} {v : α} :
    (mapKeys m f inj).lookup k = some v ↔ ∃ k₀, f k₀ = k ∧ m.lookup k₀ = some v := by
  rw [← mem_entries_iff]
  simp only [mapKeys, List.mem_map]
  constructor
  · rintro ⟨e, mem, same⟩
    cases same
    exact ⟨e.1, rfl, (mem_entries_iff m e.1 e.2).1 mem⟩
  · rintro ⟨k₀, rfl, found⟩
    exact ⟨⟨k₀, v⟩, (mem_entries_iff m k₀ v).2 found, rfl⟩

/-- The map with every value `v` replaced by `f v`. -/
def mapValues (m : Assoc κ α) (f : α → α) : Assoc κ α :=
  ⟨m.entries.map fun e => ⟨e.1, f e.2⟩, by
    rw [List.NodupKeys, List.keys, List.map_map]
    exact m.nodupKeys⟩

theorem lookup_mapValues (m : Assoc κ α) (f : α → α) (k : κ) :
    (mapValues m f).lookup k = (m.lookup k).map f := by
  refine Option.ext fun v => ?_
  rw [← mem_entries_iff, Option.map_eq_some_iff]
  simp only [mapValues, List.mem_map]
  constructor
  · rintro ⟨e, mem, same⟩
    cases same
    exact ⟨e.2, (mem_entries_iff m e.1 e.2).1 mem, rfl⟩
  · rintro ⟨v₀, found, rfl⟩
    exact ⟨⟨k, v₀⟩, (mem_entries_iff m k v₀).2 found, rfl⟩

end Assoc

end Dfs.Lib
