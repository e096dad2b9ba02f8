import Dfs.Metadata.Responses
import Dfs.Metadata.Tidy

/-!
# Listings and single entries

`List` shows the directory and `Stat` looks at the records first. They differ in one kind of
entry: `List` shows a directory under any name, `Stat` refuses a name with the extension of a
temporary file.
-/

namespace Dfs

open Lib

namespace MetadataStore

open PosixPath (PlainName)

variable {s : MetadataStore} {d path : Bytes} {n : Name} {isDirectory : Bool}

/-! ## The path of an entry -/

/-- `d / n` -/
def child (d : Bytes) (n : Name) : Bytes := d ++ PosixPath.separator :: n

theorem valid_relative (valid : validFilename d = true) : PosixPath.isAbsolute d = false ∧ d ≠ [] := by
  unfold validFilename at valid
  split at valid
  · cases valid
  · rename_i ok
    simp only [not_or] at ok
    exact ⟨by simpa using ok.2.1, ok.1⟩

theorem valid_components (valid : validFilename d = true) : PosixPath.relativeComponents d = physical d := by
  refine PosixPath.relativeComponents_of_filename fun empty => ?_
  unfold validFilename at valid
  simp [empty] at valid

theorem child_relative (valid : validFilename d = true) (n : Name) : PosixPath.isAbsolute (child d n) = false := by
  obtain ⟨relative, some⟩ := valid_relative valid
  rw [PosixPath.isAbsolute] at relative ⊢
  rwa [child, List.head?_append_of_ne_nil _ some]

theorem child_components (valid : validFilename d = true) (single : PosixPath.separator ∉ n) :
    PosixPath.relativeComponents (child d n) = physical d ++ [n] := by
  have some := physical_ne_nil valid
  by_cases empty : n = []
  · have none : PosixPath.names [] = [] := rfl
    rw [empty, PosixPath.relativeComponents, child, PosixPath.names_append, none, List.append_nil, if_pos]
    · rfl
    · exact ⟨some, by simp⟩
  · rw [PosixPath.relativeComponents, child, PosixPath.names_append, PosixPath.names_name empty single, if_neg,
      List.append_nil]
    · rfl
    · rintro ⟨-, last⟩
      rw [List.getLast?_append_of_ne_nil _ (List.cons_ne_nil _ _), List.getLast?_cons_of_ne_nil empty] at last
      exact single (List.mem_of_getLast? last)

/-- `d / n` is the key of a record directly below `d`. -/
theorem child_key (valid : validFilename d = true) (single : PosixPath.separator ∉ n) :
    key (child d n) = physical d ++ [n] := by
  rw [key, PosixPath.components, child_relative valid, child_components valid single]
  rfl

theorem child_valid (valid : validFilename d = true) (single : PosixPath.separator ∉ n) :
    validFilename (child d n) = true ↔ PlainName n ∧ PosixPath.extensionOf n ≠ tmpExtension := by
  have components := child_components valid single
  constructor
  · intro taken
    have physical := (valid_filename taken).1.symm.trans (child_key valid single)
    have plain := valid_plain taken n (by rw [physical]; simp)
    have extension := (valid_filename taken).2.2
    rw [physical] at extension
    exact ⟨plain, by simpa using extension⟩
  · rintro ⟨plain, extension⟩
    have physical : physical (child d n) = physical d ++ [n] := by
      rw [physical, child, PosixPath.names_append, PosixPath.names_name plain.nonempty single]
      rfl
    refine (valid_of_plain (components.trans physical.symm) (child_relative valid n) (by simp [physical]) ?_).2 ?_
    · rw [physical]
      intro c mem
      rcases List.mem_append.1 mem with above | here
      · exact valid_plain valid c above
      · exact List.mem_singleton.1 here ▸ plain
    · rwa [physical, List.getLastD_concat]

/-! ## What `Stat` answers -/

/-- The status and the `FileStat` in the response to `Stat`. -/
def statAnswer (path : Bytes) (s : MetadataStore) : Except Exn (ClientStatus × FileStat) :=
  match s.getMetadata path with
  | .ok m =>
      .ok (.success, { path := m.path, isDirectory := false, storageNodes := m.replicaLocations, objectId := m.objId,
                       size := m.size, createdAt := m.createdAt, modifiedAt := m.modifiedAt })
  | .error .notFound =>
      match (list path s).1 with
      | .error e => .error e
      | .ok (.ok _) => .ok (.success, { MetadataState.noStat with path := path, isDirectory := true })
      | .ok (.error e) => .ok (getClientStatus (α := Unit) (.error e), MetadataState.noStat)
  | .error e => .ok (getClientStatus (α := Unit) (.error e), MetadataState.noStat)

/-- `Stat` answers `Success`, and that `path` is a directory or that it is a file. -/
def StatSays (s : MetadataStore) (path : Bytes) (isDirectory : Bool) : Prop :=
  ∃ stat, statAnswer path s = .ok (.success, stat) ∧ stat.isDirectory = isDirectory

/-- `path` is listed among the entries of `d`. -/
def ListSays (s : MetadataStore) (d : Bytes) (n : Name) (isDirectory : Bool) : Prop :=
  ∃ infos, (list d s).1 = .ok (.ok infos) ∧ ⟨n, isDirectory⟩ ∈ infos

theorem not_fails {room : Nat} (healthy : s.disk.Healthy room) (i : Nat) : ¬ Fails s.disk.outcomes i := by
  rw [Fails, not_not, List.getD_eq_getElem?_getD]
  cases drawn : s.disk.outcomes[i]? with
  | none => rfl
  | some o => exact (healthy o (List.mem_of_getElem? drawn)).1

variable {room : Nat} (healthy : s.disk.Healthy room)

include healthy

theorem list_directory {cs : List Name} (same : PosixPath.relativeComponents path = cs) (plain : ∀ c ∈ cs, PlainName c) :
    (list path s).1 = .ok (if s.disk.tree.kind cs = some .dir then
      .ok ((s.disk.tree.listing cs).map fun entry => ⟨entry.1, entry.2⟩) else .error .invalidPath) := by
  have found := s.disk.directoryAt_plain plain
  rw [← same] at found
  split at found <;> rename_i here
  · rw [same] at here
    rw [if_pos here, ← same, list_lists ⟨found, fun i _ => not_fails healthy i⟩]
  · rw [same] at here
    rw [if_neg here, list_listed, found, listed, if_neg (by simp [not_fails healthy])]

theorem listSays_iff (valid : validFilename d = true) :
    ListSays s d n isDirectory ↔ s.disk.tree.kind (physical d) = some .dir ∧
      ∃ v, s.disk.tree.kind (physical d ++ [n]) = some v ∧ decide (v = .dir) = isDirectory := by
  rw [ListSays, list_directory healthy (valid_components valid) (valid_plain valid), ← FileTree.mem_listing]
  split <;> rename_i here
  · simp [here]
  · simp [here]

theorem statSays_iff (mirror : Mirrors s.disk.tree s.data) (tidy : Tidy s.disk.tree) (valid : validFilename d = true)
    (single : PosixPath.separator ∉ n) :
    StatSays s (child d n) isDirectory ↔ PosixPath.extensionOf n ≠ tmpExtension ∧
      ∃ v, s.disk.tree.kind (physical d ++ [n]) = some v ∧ decide (v = .dir) = isDirectory := by
  have taken := child_valid valid single
  have components := child_components valid single
  by_cases valid' : validFilename (child d n) = true
  · obtain ⟨plain, extension⟩ := taken.1 valid'
    have each : ∀ c ∈ physical d ++ [n], PlainName c := fun c mem =>
      (List.mem_append.1 mem).elim (valid_plain valid c) fun here => List.mem_singleton.1 here ▸ plain
    have listed := list_directory healthy components each
    rw [StatSays, statAnswer, getMetadata, if_neg (by simp [valid']), child_key valid single]
    cases found : s.data.lookup (physical d ++ [n]) with
    | some m =>
        have file := FileTree.content_eq_some.1 (mirror.found found).1
        simp [file, extension]
    | none =>
        have noFile : ∀ v, s.disk.tree.kind (physical d ++ [n]) = some v → v = .dir := fun v there => by
          by_contra isFile
          have known := (tidy.files_iff mirror _).2 ⟨v, there, isFile⟩
          rw [found] at known
          cases known
        dsimp only
        rw [listed]
        cases here : s.disk.tree.kind (physical d ++ [n]) with
        | none => simp [getClientStatus]
        | some v =>
            cases noFile v here
            simp [extension]
  · have refused : statAnswer (child d n) s = .ok (.inputError, MetadataState.noStat) := by
      rw [statAnswer, getMetadata, if_pos (by simpa using valid')]
      rfl
    rw [StatSays, refused]
    refine iff_of_false (by simp) ?_
    rintro ⟨extension, v, there, -⟩
    exact valid' (taken.2 ⟨tidy.names _ v there n (by simp), extension⟩)

/-- No name is listed twice. -/
theorem list_once {infos : List FileInfo} (valid : validFilename d = true) (read : (list d s).1 = .ok (.ok infos)) :
    (infos.map (·.path)).Nodup := by
  rw [list_directory healthy (valid_components valid) (valid_plain valid)] at read
  split at read <;> cases read
  rw [List.map_map]
  exact s.disk.tree.listing_nodup (physical d)

/-- `List` and `Stat` agree on everything in a directory but its subdirectories with the extension
of a temporary file. -/
theorem agree_iff (mirror : Mirrors s.disk.tree s.data) (tidy : Tidy s.disk.tree) (valid : validFilename d = true)
    (dir : s.disk.tree.kind (physical d) = some .dir) :
    (∀ n, PosixPath.separator ∉ n → ∀ isDirectory, ListSays s d n isDirectory ↔ StatSays s (child d n) isDirectory) ↔
      ∀ n, s.disk.tree.kind (physical d ++ [n]) = some .dir → PosixPath.extensionOf n ≠ tmpExtension := by
  have lists : ∀ n isDirectory, ListSays s d n isDirectory ↔ s.disk.tree.kind (physical d) = some .dir ∧
      ∃ v, s.disk.tree.kind (physical d ++ [n]) = some v ∧ decide (v = .dir) = isDirectory :=
    fun n isDirectory => listSays_iff healthy valid
  have stats : ∀ n isDirectory, PosixPath.separator ∉ n → (StatSays s (child d n) isDirectory ↔
      PosixPath.extensionOf n ≠ tmpExtension ∧
        ∃ v, s.disk.tree.kind (physical d ++ [n]) = some v ∧ decide (v = .dir) = isDirectory) :=
    fun n isDirectory single => statSays_iff healthy mirror tidy valid single
  constructor
  · intro agree n there
    have single := (tidy.names _ _ there n (by simp)).single
    exact ((stats n true single).1 ((agree n single true).1 ((lists n true).2 ⟨dir, _, there, rfl⟩))).1
  · intro plain n single isDirectory
    rw [lists, stats _ _ single]
    refine ⟨fun ⟨_, v, there, same⟩ => ⟨?_, v, there, same⟩, fun ⟨_, v, there, same⟩ => ⟨dir, v, there, same⟩⟩
    by_cases isDir : v = .dir
    · exact plain n (isDir ▸ there)
    · have extension := tidy.files _ v there isDir
      rwa [List.getLastD_concat] at extension

/-- What is listed as a file is what the records have. -/
theorem listSays_file (mirror : Mirrors s.disk.tree s.data) (tidy : Tidy s.disk.tree) (valid : validFilename d = true)
    (dir : s.disk.tree.kind (physical d) = some .dir) (single : PosixPath.separator ∉ n) :
    ListSays s d n false ↔ (s.data.lookup (key (child d n))).isSome = true := by
  rw [listSays_iff healthy valid, child_key valid single, tidy.files_iff mirror]
  simp [dir]

end MetadataStore

namespace MetadataState

variable {ν : Type} [Network ν]

/-- The `Stat` handler sends `statAnswer`. -/
theorem handle_stat (s : MetadataState ν) (env : Env) (req : StatRequest) :
    match MetadataStore.statAnswer req.path (s.worker.withOutcomes env.outcomes).store with
    | .error e => (s.handle env (.stat req)).1 = .error e
    | .ok (status, stat) => (s.handle env (.stat req)).1 = .ok () ∧
        (s.handle env (.stat req)).2.network = Network.send req.context.sender.id
          (ClientProtocol.encodeStatResponse req.context.requestId { status, stat, context := req.context }) s.network := by
  rw [handle, handleStat, MetadataStore.statAnswer]
  dsimp only
  cases looked : (s.worker.withOutcomes env.outcomes).store.getMetadata req.path with
  | ok m => exact ⟨rfl, rfl⟩
  | error e =>
      cases e with
      | notFound =>
          dsimp only [onStore]
          rcases MetadataStore.list req.path (s.worker.withOutcomes env.outcomes).store with ⟨r, store⟩
          rcases r with e | (e | infos)
          · rfl
          · exact ⟨rfl, rfl⟩
          · exact ⟨rfl, rfl⟩
      | _ => exact ⟨rfl, rfl⟩

end MetadataState

end Dfs
