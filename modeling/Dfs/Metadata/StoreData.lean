import Dfs.Metadata.Durable

/-!
# What the store's operations do to its records

The effect on `data` alone, whatever the directory looks like and whichever call fails.
-/

namespace Dfs

open Lib

/-- The same object, wherever the record lies. -/
structure FileMetadata.SameObject (m m' : FileMetadata) : Prop where
  size : m'.size = m.size
  objId : m'.objId = m.objId
  replicaLocations : m'.replicaLocations = m.replicaLocations

namespace MetadataStore

variable {s s' : MetadataStore} {f g : Bytes} {m : FileMetadata} {now : TimePoint}
  {r : Except MetadataStoreError Unit}

theorem getMetadata_ok (h : getMetadata f s = .ok m) : validFilename f = true ∧ s.data.lookup (key f) = some m := by
  unfold getMetadata at h
  split at h
  · cases h
  · rename_i valid
    split at h <;> cases h
    rename_i found
    exact ⟨by simpa using valid, found⟩

theorem getMetadata_notFound (h : getMetadata f s = .error .notFound) :
    validFilename f = true ∧ s.data.lookup (key f) = none := by
  unfold getMetadata at h
  split at h
  · cases h
  · rename_i valid
    split at h <;> cases h
    rename_i missing
    exact ⟨by simpa using valid, missing⟩

theorem addMetadata_data (h : addMetadata now f m s = (r, s')) :
    (∀ e, r = .error e → s'.data = s.data) ∧
      (r = .ok () → validFilename f = true ∧ (s'.data = s.data ∨ s.data.lookup (key f) = none ∧
        ∃ m', m.SameObject m' ∧ s'.data = s.data.insert (key f) m')) := by
  unfold addMetadata at h
  split at h
  · cases h
    simp
  rename_i valid
  split at h
  · cases h
    simp
  split at h
  · cases h
    simp
  dsimp only at h
  split at h
  · cases h
    simp
  · cases h
    refine ⟨by simp, fun _ => ⟨by simpa using valid, ?_⟩⟩
    by_cases known : (s.data.lookup (key f)).isSome = true
    · exact Or.inl (if_pos known)
    · rw [if_neg known]
      exact Or.inr ⟨Option.not_isSome_iff_eq_none.1 known,
        { m with path := f, createdAt := now, modifiedAt := now }, ⟨rfl, rfl, rfl⟩, rfl⟩

theorem updateMetadata_data (h : updateMetadata now f m s = (r, s')) :
    (∀ e, r = .error e → s'.data = s.data) ∧
      (r = .ok () → validFilename f = true ∧ ∃ m', m.SameObject m' ∧ s'.data = s.data.insert (key f) m') := by
  unfold updateMetadata at h
  split at h
  · cases h
    simp
  rename_i valid
  split at h
  · rename_i missing
    unfold addMetadata at h
    rw [if_neg valid] at h
    split at h
    · cases h
      simp
    split at h
    · cases h
      simp
    dsimp only at h
    split at h
    · cases h
      simp
    · cases h
      refine ⟨by simp, fun _ => ⟨by simpa using valid, ?_⟩⟩
      rw [missing]
      exact ⟨{ m with path := f, createdAt := now, modifiedAt := now }, ⟨rfl, rfl, rfl⟩, rfl⟩
  · rename_i existing _
    dsimp only at h
    split at h
    · cases h
      simp
    · cases h
      exact ⟨by simp, fun _ => ⟨by simpa using valid,
        { m with path := f, createdAt := existing.createdAt, modifiedAt := now }, ⟨rfl, rfl, rfl⟩, rfl⟩⟩

theorem removeMetadata_data (h : removeMetadata f s = (r, s')) :
    (∀ e, r = .error e → s'.data = s.data) ∧
      (r = .ok () → validFilename f = true ∧ s'.data = s.data.erase (key f)) := by
  unfold removeMetadata at h
  split at h
  · cases h
    simp
  rename_i valid
  split at h
  · cases h
    simp
  · cases h
    simp
  · cases h
    exact ⟨by simp, fun _ => ⟨by simpa using valid, rfl⟩⟩

theorem makeDirectory_data (h : makeDirectory f s = (r, s')) : s'.data = s.data := by
  unfold makeDirectory at h
  split at h
  · cases h
    rfl
  · split at h <;> cases h <;> rfl

theorem removeDirectory_data (h : removeDirectory f s = (r, s')) : s'.data = s.data := by
  unfold removeDirectory at h
  split at h
  · cases h
    rfl
  split at h
  · cases h
    rfl
  · cases h
    rfl
  split at h
  · cases h
    rfl
  · cases h
    rfl
  split at h <;> cases h <;> rfl

theorem list_data {r : Except Exn (Except MetadataStoreError (List FileInfo))} (h : list f s = (r, s')) :
    s'.data = s.data :=
  (list_quiet h).data

/-! ## Moved records -/

section Move

variable {data data' : Assoc FilePath FileMetadata} {entries : List RenamedEntry} {k : FilePath}

/-- One move: the entry goes from its old key to a free one. -/
theorem move_lookup (e : RenamedEntry) (m : FileMetadata) (q : FilePath) :
    ((data.erase e.oldEntry).insert e.newEntry { m with path := e.newPath }).lookup q =
      if q = e.newEntry then some { m with path := e.newPath } else if q = e.oldEntry then none
      else data.lookup q := by
  rw [Assoc.lookup_insert_ite, Assoc.lookup_erase_ite]

/-- Every record was there before. -/
theorem moveEntries_origin (h : moveEntries entries data = (r, data')) (found : data'.lookup k = some m) :
    ∃ k₀ m₀, data.lookup k₀ = some m₀ ∧ m₀.SameObject m := by
  induction entries generalizing data with
  | nil =>
      cases h
      exact ⟨k, m, found, rfl, rfl, rfl⟩
  | cons e rest ih =>
      unfold moveEntries at h
      split at h
      · cases h
        exact ⟨k, m, found, rfl, rfl, rfl⟩
      · rename_i m₁ here
        dsimp only at h
        split at h
        · cases h
          rw [Assoc.lookup_erase_ite] at found
          split at found
          · cases found
          · exact ⟨k, m, found, rfl, rfl, rfl⟩
        · obtain ⟨k₀, m₀, source, same⟩ := ih h
          rw [move_lookup] at source
          split at source
          · cases source
            exact ⟨_, _, here, same.size, same.objId, same.replicaLocations⟩
          · split at source
            · cases source
            · exact ⟨k₀, m₀, source, same⟩

/-- Any two records of different paths are in the relation `R`. -/
def Apart (R : FileMetadata → FileMetadata → Prop) (data : Assoc FilePath FileMetadata) : Prop :=
  ∀ k k' m m', data.lookup k = some m → data.lookup k' = some m' → k ≠ k' → R m m'

section Apart

variable {R : FileMetadata → FileMetadata → Prop}

theorem Apart.erase (apart : Apart R data) (k : FilePath) : Apart R (data.erase k) := by
  intro a b ma mb ha hb ne
  rw [Assoc.lookup_erase_ite] at ha hb
  split at ha
  · cases ha
  · split at hb
    · cases hb
    · exact apart a b ma mb ha hb ne

theorem Apart.insert (apart : Apart R data)
    (others : ∀ k' m', data.lookup k' = some m' → k' ≠ k → R m m' ∧ R m' m) : Apart R (data.insert k m) := by
  intro a b ma mb ha hb ne
  rw [Assoc.lookup_insert_ite] at ha hb
  split at ha
  · rename_i here
    cases ha
    rw [if_neg fun here' => ne (here.trans here'.symm)] at hb
    exact (others b mb hb fun here' => ne (here.trans here'.symm)).1
  · rename_i elsewhere
    split at hb
    · cases hb
      exact (others a ma ha elsewhere).2
    · exact apart a b ma mb ha hb ne

/-- Moving records changes their paths only. -/
theorem moveEntries_apart (paths : ∀ m m' path, (R m m' → R { m with path } m') ∧ (R m' m → R m' { m with path }))
    (h : moveEntries entries data = (r, data')) (apart : Apart R data) : Apart R data' := by
  induction entries generalizing data with
  | nil =>
      cases h
      exact apart
  | cons e rest ih =>
      unfold moveEntries at h
      split at h
      · cases h
        exact apart
      · rename_i m₁ here
        dsimp only at h
        split at h
        · cases h
          exact apart.erase _
        · refine ih h ((apart.erase _).insert fun k' m' found _ => ?_)
          rw [Assoc.lookup_erase_ite] at found
          split at found
          · cases found
          · rename_i elsewhere
            exact ⟨(paths m₁ m' _).1 (apart _ _ m₁ m' here found (Ne.symm elsewhere)),
              (paths m₁ m' _).2 (apart _ _ m' m₁ found here elsewhere)⟩

end Apart

/-- Different paths have different objects. -/
def Unshared (data : Assoc FilePath FileMetadata) : Prop :=
  ∀ k k' m m', data.lookup k = some m → data.lookup k' = some m' → m.objId = m'.objId → k = k'

theorem unshared_iff_apart : Unshared data ↔ Apart (fun m m' => m.objId ≠ m'.objId) data := by
  constructor
  · exact fun unshared k k' m m' found found' ne same => ne (unshared k k' m m' found found' same)
  · intro apart k k' m m' found found' same
    by_contra ne
    exact apart k k' m m' found found' ne same

theorem moveEntries_unshared (h : moveEntries entries data = (r, data')) (unshared : Unshared data) : Unshared data' :=
  unshared_iff_apart.2 (moveEntries_apart (fun _ _ _ => ⟨id, id⟩) h (unshared_iff_apart.1 unshared))

end Move

/-- A rename leaves the records alone or moves some of those at and below its source. -/
theorem rename_data (h : rename f g s = (r, s')) :
    s'.data = s.data ∨ ∃ entries r', (∀ e ∈ entries, key f <+: e.oldEntry) ∧
      moveEntries entries s.data = (r', s'.data) := by
  have moved : ∀ {entries disk}, renameEntries f g entries { s with disk } = (r, s') →
      (∀ e ∈ entries, key f <+: e.oldEntry) → s'.data = s.data ∨ ∃ entries r',
        (∀ e ∈ entries, key f <+: e.oldEntry) ∧ moveEntries entries s.data = (r', s'.data) := by
    intro entries disk h under
    unfold renameEntries at h
    split at h
    · cases h
      exact Or.inl rfl
    split at h
    · cases h
      exact Or.inl rfl
    · cases h
      exact Or.inr ⟨entries, _, under, rfl⟩
  unfold rename at h
  split at h
  · cases h
    exact Or.inl rfl
  split at h
  · cases h
    exact Or.inl rfl
  · cases h
    exact Or.inl rfl
  split at h
  · cases h
    exact Or.inl rfl
  split at h
  · cases h
    exact Or.inl rfl
  split at h
  · cases h
    exact Or.inl rfl
  split at h
  · cases h
    exact Or.inl rfl
  split at h
  · cases h
    exact Or.inl rfl
  split at h
  · cases h
    exact Or.inl rfl
  split at h
  · split at h
    · cases h
      exact Or.inl rfl
    · refine moved h fun e mem => ?_
      obtain rfl := List.mem_singleton.1 mem
      exact List.prefix_rfl
  · refine moved h fun e mem => ?_
    obtain ⟨k, mem', rfl⟩ := List.mem_map.1 mem
    simpa [renamedEntry] using (List.mem_filter.1 mem').2

end MetadataStore

end Dfs
