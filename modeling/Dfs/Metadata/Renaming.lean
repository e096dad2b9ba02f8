import Dfs.Metadata.Durable

/-!
# A rename is a prefix substitution (`MetadataStore::rename`)

A `rename` that succeeds rewrites the first components of the keys and of the paths in the
directory, one like the other. One that fails changes nothing: once the file call has
succeeded the entries can all be moved.
-/

namespace Dfs

open Lib

namespace MetadataStore

open FileTree (relocate relocate_under relocate_outside relocate_inj)

variable {s s' : MetadataStore} {f g : Bytes} {old new : FilePath} {α : Type}

/-! ## Substitution of a prefix -/

/-- `look'` is `look` with `new` for `old` at the front of every path; `R k v v'` says what
becomes of the value `v` at `k`. -/
structure Substitutes (old new : FilePath) (R : FilePath → α → α → Prop) (look look' : FilePath → Option α) : Prop where
  moved : ∀ k v, look k = some v → ∃ v', look' (relocate old new k) = some v' ∧ R k v v'
  /-- Nothing else is there. -/
  origin : ∀ q, (look' q).isSome = true → ∃ k, (look k).isSome = true ∧ relocate old new k = q
  /-- No two become one. -/
  apart : ∀ k k', (look k).isSome = true → (look k').isSome = true → relocate old new k = relocate old new k' → k = k'

theorem relocate_self (p q : FilePath) : relocate p p q = q := by
  by_cases under : p <+: q
  · obtain ⟨r, rfl⟩ := under
    exact relocate_under p p r
  · exact relocate_outside under

theorem Substitutes.refl {R : FilePath → α → α → Prop} (p : FilePath) {look : FilePath → Option α} (same : ∀ k v, R k v v) :
    Substitutes p p R look look := by
  refine ⟨fun k v found => ⟨v, ?_, same k v⟩, fun q some => ⟨q, some, relocate_self p q⟩, fun k k' _ _ equal => ?_⟩
  · rw [relocate_self]
    exact found
  · rwa [relocate_self, relocate_self] at equal

/-- Everything below `old` is moved to `new`, where there was nothing. -/
theorem Substitutes.of_moved {R : FilePath → α → α → Prop} {look look' : FilePath → Option α}
    (empty : ∀ r, look (new ++ r) = none)
    (under : ∀ r v, look (old ++ r) = some v → ∃ v', look' (new ++ r) = some v' ∧ R (old ++ r) v v')
    (missing : ∀ r, look (old ++ r) = none → look' (new ++ r) = none)
    (others : ∀ q, ¬ new <+: q → look' q = if old <+: q then none else look q)
    (kept : ∀ k v, ¬ old <+: k → R k v v) : Substitutes old new R look look' := by
  have clear : ∀ k, (look k).isSome = true → ¬ new <+: k := by
    rintro k some ⟨r, rfl⟩
    rw [empty] at some
    cases some
  refine ⟨fun k v found => ?_, fun q some => ?_, fun k k' some some' => relocate_inj (clear k some) (clear k' some')⟩
  · by_cases below : old <+: k
    · obtain ⟨r, rfl⟩ := below
      rw [relocate_under]
      exact under r v found
    · refine ⟨v, ?_, kept k v below⟩
      rw [relocate_outside below, others k (clear k (by rw [found]; rfl)), if_neg below]
      exact found
  · by_cases target : new <+: q
    · obtain ⟨r, rfl⟩ := target
      refine ⟨old ++ r, ?_, relocate_under old new r⟩
      rw [Option.isSome_iff_ne_none]
      intro none
      rw [missing r none] at some
      cases some
    · rw [others q target] at some
      split at some
      · cases some
      · rename_i out
        exact ⟨q, some, relocate_outside out⟩

/-! ## The path of a moved record -/

/-- The new path of a moved record is its new key. -/
theorem key_newPath {entries : List RenamedEntry} (validNew : validFilename g = true)
    (names : ∀ k, (s.data.lookup k).isSome = true → ∀ c ∈ k, PosixPath.PlainName c)
    (covers : Covers s.data (key f) (key g) entries)
    (shape : entries = [{ oldEntry := key f, newEntry := key g, newPath := g }] ∨ entries = renamedEntries f g s.data) :
    ∀ e ∈ entries, key e.newPath = e.newEntry := by
  intro e mem
  rcases shape with rfl | rfl
  · rw [List.mem_singleton.1 mem]
  · obtain ⟨some, r, source, target⟩ := covers.sound e mem
    obtain ⟨k, -, rfl⟩ := List.mem_map.1 mem
    change k = key f ++ r at source
    have below : r ≠ [] := by
      -- the entry of `old` itself would be called `new/.`
      rintro rfl
      simp [renamedEntry, source] at target
    have plain : ∀ c ∈ r, PosixPath.PlainName c := fun c mem' =>
      names _ some c (source ▸ List.mem_append_right _ mem')
    have path : (renamedEntry f g k).newPath = g ++ PosixPath.separator :: PosixPath.join r := by
      simp [renamedEntry, source, below]
    have relative : PosixPath.isAbsolute g = false ∧ g ≠ [] := by
      unfold validFilename at validNew
      split at validNew
      · cases validNew
      · rename_i ok
        simp only [not_or, Bool.not_eq_true] at ok
        exact ⟨ok.2.1, ok.1⟩
    rw [path, target, (valid_filename validNew).1]
    exact PosixPath.components_append_join relative.1 relative.2 plain below

/-! ## What `rename` does -/

/-- Every key is a regular file of the directory, with the names of a directory. -/
structure Matches (s : MetadataStore) : Prop where
  files : Filed s.disk.tree s.data
  names : ∀ k, (s.data.lookup k).isSome = true → ∀ c ∈ k, PosixPath.PlainName c

/-- A record is moved with its path set to its new key, or stays as it is. -/
def Carried (old new k : FilePath) (m m' : FileMetadata) : Prop :=
  m' = { m with path := m'.path } ∧
    if old <+: k ∧ old ≠ new then key m'.path = relocate old new k else m'.path = m.path

/-- The keys and the paths in the directory, with `new` for `old`. -/
structure Renamed (old new : FilePath) (s s' : MetadataStore) : Prop where
  data : Substitutes old new (Carried old new) s.data.lookup s'.data.lookup
  tree : Substitutes old new (fun _ v v' => v' = v) s.disk.tree.kind s'.disk.tree.kind

theorem renamed_same (data : s'.data = s.data) (tree : s'.disk.tree = s.disk.tree) (p : FilePath) : Renamed p p s s' := by
  constructor
  · rw [data]
    exact .refl p fun k m => ⟨rfl, by rw [if_neg (by simp)]⟩
  · rw [tree]
    exact .refl p fun _ _ => rfl

theorem rename_moves (matched : Matches s) (h : rename f g s = (.ok (), s')) : Renamed (key f) (key g) s s' := by
  rcases rename_cases matched.files h with ⟨data, tree, -, same⟩ |
    ⟨d, entries, tree, -, validOld, validNew, ne, free, covers, shape, run⟩
  · rw [← same rfl]
    exact renamed_same data tree (key f)
  · have filed : Filed d.tree s.data := tree ▸ matched.files
    obtain ⟨data', moved, where_⟩ := covers.moved (filed.none_below free)
    have paths := key_newPath validNew matched.names covers shape
    unfold renameEntries at run
    split at run
    · cases run
    split at run
    · cases run
    rename_i disk renamed
    dsimp only at moved run renamed
    rw [moved] at run
    cases run
    rw [← (valid_filename validOld).1, ← (valid_filename validNew).1] at renamed
    obtain ⟨-, ok, -, last, -, -⟩ := FileTree.rename_ok ne (Disk.call_ok renamed).1
    constructor
    · refine .of_moved (filed.none_below free) (fun r m found => ?_) where_.missing where_.others fun k m out => ?_
      · obtain ⟨e, mem, target, there⟩ := where_.under r m found
        refine ⟨_, there, rfl, ?_⟩
        rw [if_pos ⟨List.prefix_append _ _, ne⟩, relocate_under, ← target]
        exact paths e mem
      · exact ⟨rfl, by rw [if_neg fun h => out h.1]⟩
    · rw [← tree]
      refine .of_moved (fun r => ?_) (fun r v found => ⟨v, ?_, rfl⟩) (fun r missing => ?_) (fun q out => ?_) fun _ _ _ => rfl
      · by_cases top : r = []
        · rw [top, List.append_nil, free]
        · exact d.tree.kind_below_none (by rw [free]; simp) top
      · rw [last, FileTree.kind_move, if_pos (List.prefix_append _ _), List.drop_left]
        exact found
      · rw [last, FileTree.kind_move, if_pos (List.prefix_append _ _), List.drop_left]
        exact missing
      · rw [last, FileTree.kind_move, if_neg out]

/-- What lies below a path cannot take its place. -/
theorem rename_below {r : Except MetadataStoreError Unit} (filed : Filed s.disk.tree s.data) (h : rename f g s = (r, s'))
    (below : key f <+: key g) (ne : key f ≠ key g) : ∃ e, r = .error e := by
  cases r with
  | error e => exact ⟨e, rfl⟩
  | ok _ =>
      rcases rename_cases filed h with ⟨-, -, -, same⟩ | ⟨d, entries, tree, -, validOld, validNew, -, -, -, -, run⟩
      · exact absurd (same rfl) ne
      · unfold renameEntries at run
        split at run
        · cases run
        split at run
        · cases run
        rename_i disk renamed
        rw [← (valid_filename validOld).1, ← (valid_filename validNew).1] at renamed
        obtain ⟨-, ok, -⟩ := FileTree.rename_ok ne (Disk.call_ok renamed).1
        exact absurd below ok.2.2.1

/-- A `rename` that succeeds substitutes `new` for `old` at the front of the keys and of the
paths in the directory; one that fails has made no file call that changes anything; and a
path is never moved below itself. -/
theorem rename_substitutes (s : MetadataStore) (matched : Matches s) (oldPath newPath : Bytes) :
    ((s.rename oldPath newPath).1 = .ok () → Renamed (key oldPath) (key newPath) s (s.rename oldPath newPath).2) ∧
    (∀ e, (s.rename oldPath newPath).1 = .error e →
      (s.rename oldPath newPath).2.data = s.data ∧ (s.rename oldPath newPath).2.disk.tree = s.disk.tree ∧
        (s.rename oldPath newPath).2.disk.trail = s.disk.trail) ∧
    (key oldPath <+: key newPath → key oldPath ≠ key newPath → ∃ e, (s.rename oldPath newPath).1 = .error e) := by
  refine ⟨fun ok => ?_, fun e failed => ?_, fun below ne => ?_⟩
  · exact rename_moves matched (Prod.ext ok rfl)
  · exact rename_error matched.files (Prod.ext failed rfl)
  · exact rename_below matched.files rfl below ne

/-- The directory `"d"` with the file `"d/x"`. -/
def withDirectory : MetadataStore where
  disk := {
    tree := (FileTree.empty.place [[100]] .dir (by decide)).place [[100], [120]] (.file []) (by decide)
    outcomes := []
    trail := []
    outside := fun _ => none }
  data := (∅ : Assoc FilePath FileMetadata).insert [[100], [120]]
    { path := [100, 47, 120], size := 0, objId := [], replicaLocations := ([], []) }

theorem matches_withDirectory : Matches withDirectory := by
  have only : ∀ k, (withDirectory.data.lookup k).isSome = true → k = [[100], [120]] := by
    intro k some
    rw [withDirectory, Assoc.lookup_insert_ite] at some
    split at some
    · assumption
    · simp at some
  refine ⟨fun k some => ?_, fun k some c mem => ?_⟩
  · rw [only k some]
    decide
  · rw [only k some] at mem
    have plain : c = [100] ∨ c = [120] := by simpa using mem
    rcases plain with rfl | rfl <;> constructor <;> decide

/-- `rename("d", "e")` -/
theorem rename_substitutes_directory :
    (withDirectory.rename [100] [101]).1 = .ok () ∧
      Renamed (key [100]) (key [101]) withDirectory (withDirectory.rename [100] [101]).2 := by
  have done : (withDirectory.rename [100] [101]).1 = .ok () := by decide +kernel
  exact ⟨done, (rename_substitutes withDirectory matches_withDirectory [100] [101]).1 done⟩

end MetadataStore

end Dfs
