import Dfs.Metadata.Operations

/-!
# The paths of the file calls

For every operation of the store the calls it makes, in order, each with the places to which
the paths in it lead. `directory` has the components of `directory_` behind the root.
-/

namespace Dfs

open Lib

open PosixPath (fromRoot)

/-- Call by call, where its paths lead. -/
abbrev Calls := List (List FilePath)

namespace MetadataStore

variable (directory : List Name)

def createEachCalls : List FilePath → Disk → Calls
  | [], _ => []
  | q :: qs, disk =>
      [fromRoot (directory ++ q)] ::
        match disk.createDirectory q with
        | (.error _, _) => []
        | (.ok _, disk) => createEachCalls qs disk

/-- `create_directories` looks at `path` and on the way up to `directory_`, then makes what is missing. -/
def createDirectoriesCalls (path : List Name) (q : FilePath) (disk : Disk) : Calls :=
  (path :: path.inits.filter fun p => directory.length ≤ p.length).map fromRoot ::
    match disk.query fun t => .ok (t.kind q) with
    | (.ok none, disk) =>
        match q.inits.find? fun q => (disk.tree.content q).isSome with
        | some _ => []
        | none => createEachCalls directory (q.inits.filter fun q => disk.tree.kind q = none) disk
    | _ => []

/-- The arguments are the temporary path and the final one, where they lead and below `directory_`. -/
def replaceFileCalls (temporary final : FilePath) (finalPath : FilePath) (data : Bytes) (disk : Disk) : Calls :=
  let temporaryPath := PosixPath.appendSuffix finalPath tmpExtension
  [temporary] ::
    match disk.openTruncate temporaryPath with
    | (.error _, _) => []
    | (.ok _, disk) =>
        [temporary] ::
          match disk.write temporaryPath (data.take (UInt32.ofNat data.length).toNat) with
          | (.error _, _) => []
          | (.ok _, disk) =>
              [temporary] ::
                match disk.settle with -- flush
                | (.error _, _) => []
                | (.ok _, disk) =>
                    [temporary] ::
                      match disk.settle with -- close
                      | (.error _, _) => []
                      | (.ok _, disk) =>
                          [temporary, final] ::
                            match disk.rename temporaryPath finalPath with
                            | (.error _, _) => [[temporary]]
                            | (.ok _, _) => []

def writeMetadataFileCalls (filename : Bytes) (metadata : FileMetadata) (disk : Disk) : Calls :=
  let finalPath := PosixPath.append directory filename
  createDirectoriesCalls directory finalPath.dropLast (physical filename).dropLast disk ++
    match disk.createDirectories (physical filename).dropLast with
    | (.error _, _) => []
    | (.ok _, disk) =>
        replaceFileCalls (fromRoot (PosixPath.appendSuffix finalPath tmpExtension)) (fromRoot finalPath)
          (physical filename) (encodeMetadata metadata) disk

def addMetadataCalls (now : TimePoint) (filename : Bytes) (metadata : FileMetadata) (s : MetadataStore) : Calls :=
  if validFilename filename = false then []
  else
    [fromRoot (PosixPath.append directory filename)] ::
      match s.disk.pathExists (physical filename) with
      | (.ok false, disk) =>
          writeMetadataFileCalls directory filename { metadata with path := filename, createdAt := now, modifiedAt := now } disk
      | _ => []

def updateMetadataCalls (now : TimePoint) (filename : Bytes) (metadata : FileMetadata) (s : MetadataStore) : Calls :=
  if validFilename filename = false then []
  else
    match s.data.lookup (key filename) with
    | none => addMetadataCalls directory now filename metadata s
    | some existing =>
        writeMetadataFileCalls directory filename
          { metadata with path := filename, createdAt := existing.createdAt, modifiedAt := now } s.disk

def removeMetadataCalls (filename : Bytes) : Calls :=
  if validFilename filename = false then [] else [[fromRoot (PosixPath.append directory filename)]]

/-- Where `directory_ / path.relative_path()` leads. -/
def below (path : Bytes) : FilePath := fromRoot (directory ++ PosixPath.relativeComponents path)

def makeDirectoryCalls (path : Bytes) : Calls := if validFilename path = false then [] else [[below directory path]]

def removeDirectoryCalls (path : Bytes) (s : MetadataStore) : Calls :=
  if validFilename path = false then []
  else
    [below directory path] ::
      match s.disk.pathExists (physical path) with
      | (.ok true, disk) =>
          [below directory path] ::
            match disk.isDirectory (physical path) with
            | (.ok true, _) => [[below directory path]]
            | _ => []
      | _ => []

/-- Each step of the iterator gives an entry, whose kind is looked up. -/
def iterateCalls (final : FilePath) : List (Name × Bool) → Disk → Calls
  | [], _ => []
  | (name, _) :: rest, disk =>
      [final, final ++ [name]] ::
        match disk.settle with
        | (.error _, _) => []
        | (.ok _, disk) => iterateCalls final rest disk

def listCalls (path : Bytes) (s : MetadataStore) : Calls :=
  [below directory path] ::
    match s.disk.settle with -- exists
    | (.error _, _) => []
    | (.ok _, disk) =>
        [below directory path] ::
          match disk.settle with -- is_directory
          | (.error _, _) => []
          | (.ok _, disk) =>
              match disk.directoryAt (PosixPath.relativeComponents path) with
              | none => []
              | some entries =>
                  [below directory path] ::
                    match disk.settle with -- directory_iterator
                    | (.error _, _) => []
                    | (.ok _, disk) => iterateCalls (below directory path) entries disk

def renameEntriesCalls (oldPath newPath : Bytes) (entries : List RenamedEntry) (s : MetadataStore) : Calls :=
  if entries.any fun entry => (s.data.lookup entry.newEntry).isSome then []
  else [[below directory oldPath, below directory newPath]]

def renameCalls (oldPath newPath : Bytes) (s : MetadataStore) : Calls :=
  if validFilename oldPath = false ∨ validFilename newPath = false then []
  else
    [below directory oldPath] ::
      match s.disk.pathExists (physical oldPath) with
      | (.ok true, disk) =>
          if key oldPath = key newPath then []
          else
            [below directory newPath] ::
              match disk.pathExists (physical newPath) with
              | (.error _, _) => []
              | (.ok destinationExists, disk) =>
                  if destinationExists || (s.data.lookup (key newPath)).isSome then []
                  else
                    [below directory oldPath] ::
                      match disk.isDirectory (physical oldPath) with
                      | (.error _, _) => []
                      | (.ok sourceIsDirectory, disk) =>
                          [below directory oldPath] ::
                            match disk.isRegularFile (physical oldPath) with
                            | (.error _, _) => []
                            | (.ok sourceIsFile, disk) =>
                                if sourceIsDirectory = false ∧ sourceIsFile = false then []
                                else if sourceIsFile then
                                  if (s.data.lookup (key oldPath)).isNone then []
                                  else
                                    renameEntriesCalls directory oldPath newPath
                                      [{ oldEntry := key oldPath, newEntry := key newPath, newPath }] { s with disk }
                                else
                                  renameEntriesCalls directory oldPath newPath (renamedEntries oldPath newPath s.data)
                                    { s with disk }
      | _ => []

end MetadataStore

def StoreOp.calls (directory : List Name) (s : MetadataStore) : StoreOp → Calls
  | add now filename metadata => s.addMetadataCalls directory now filename metadata
  | update now filename metadata => s.updateMetadataCalls directory now filename metadata
  | remove filename => MetadataStore.removeMetadataCalls directory filename
  | rename oldPath newPath => s.renameCalls directory oldPath newPath
  | makeDirectory path => MetadataStore.makeDirectoryCalls directory path
  | removeDirectory path => s.removeDirectoryCalls directory path
  | list path => s.listCalls directory path
  | get _ => []

namespace MetadataStore

variable {directory : List Name} {d d' : Disk} {s : MetadataStore} {f : Bytes}

/-! ## One call for each outcome that is drawn -/

/-- On the way from `d` to `d'` an outcome is drawn for each of `calls`. -/
def Draws (calls : Calls) (d d' : Disk) : Prop := d'.outcomes = d.outcomes.drop calls.length

theorem Draws.nil (d : Disk) : Draws [] d d := rfl

theorem Draws.one {call : List FilePath} (drawn : d'.outcomes = d.outcomes.tail) : Draws [call] d d' := by
  rw [Draws, drawn, List.length_singleton, List.drop_one]

theorem Draws.append {calls calls' : Calls} {d'' : Disk} (h : Draws calls d d') (h' : Draws calls' d' d'') :
    Draws (calls ++ calls') d d'' := by
  rw [Draws, h', h, List.drop_drop, List.length_append]

theorem Draws.cons {call : List FilePath} {calls : Calls} {d'' : Disk} (drawn : d'.outcomes = d.outcomes.tail)
    (h : Draws calls d' d'') : Draws (call :: calls) d d'' :=
  (Draws.one drawn).append h

theorem query_draws {α : Type} {f : FileTree → Except Errc α} {r : Except Errc α} (h : d.query f = (r, d')) :
    d'.outcomes = d.outcomes.tail := by
  unfold Disk.query at h
  split at h <;> cases h <;> rfl

theorem call_draws {α : Type} {f : FileTree → Except Errc (α × FileTree)} {r : Except Errc α} (h : d.call f = (r, d')) :
    d'.outcomes = d.outcomes.tail := by
  unfold Disk.call at h
  split at h
  · cases h
    rfl
  · split at h <;> cases h <;> rfl

theorem write_draws {q : FilePath} {data : Bytes} {r : Except Errc Unit} (h : d.write q data = (r, d')) :
    d'.outcomes = d.outcomes.tail := by
  cases h
  rfl

theorem createEach_draws (qs : List FilePath) (d : Disk) : Draws (createEachCalls directory qs d) d (Disk.createEach qs d).2 := by
  induction qs generalizing d with
  | nil => exact .nil d
  | cons q qs ih =>
      rw [createEachCalls, Disk.createEach]
      rcases made : d.createDirectory q with ⟨r, d₁⟩
      cases r with
      | error e => exact .one (call_draws made)
      | ok _ => exact .cons (call_draws made) (ih d₁)

theorem createDirectories_draws (directory : List Name) (path : List Name) (q : FilePath) (d : Disk) :
    Draws (createDirectoriesCalls directory path q d) d (d.createDirectories q).2 := by
  rw [createDirectoriesCalls, Disk.createDirectories]
  rcases looked : (d.query fun t => .ok (t.kind q)) with ⟨r, d₁⟩
  rcases r with e | (kind | node)
  · exact .one (query_draws looked)
  · dsimp only
    cases q.inits.find? fun q => (d₁.tree.content q).isSome with
    | some _ => exact .one (query_draws looked)
    | none => exact .cons (query_draws looked) (createEach_draws _ d₁)
  · cases node <;> exact .one (query_draws looked)

theorem replaceFile_draws (temporary final : FilePath) (q : FilePath) (data : Bytes) (d : Disk) :
    Draws (replaceFileCalls temporary final q data d) d (replaceFile q data d).2 := by
  unfold replaceFileCalls replaceFile
  dsimp only
  rcases opened : d.openTruncate (PosixPath.appendSuffix q tmpExtension) with ⟨r₁, d₁⟩
  cases r₁ with
  | error e => exact .one (call_draws opened)
  | ok _ =>
  refine .cons (call_draws opened) ?_
  dsimp only
  rcases written : d₁.write (PosixPath.appendSuffix q tmpExtension) (data.take (UInt32.ofNat data.length).toNat)
    with ⟨r₂, d₂⟩
  cases r₂ with
  | error e => exact .one (write_draws written)
  | ok _ =>
  refine .cons (write_draws written) ?_
  dsimp only
  rcases flushed : d₂.settle with ⟨r₃, d₃⟩
  cases r₃ with
  | error e => exact .one (query_draws flushed)
  | ok _ =>
  refine .cons (query_draws flushed) ?_
  dsimp only
  rcases closed : d₃.settle with ⟨r₄, d₄⟩
  cases r₄ with
  | error e => exact .one (query_draws closed)
  | ok _ =>
  refine .cons (query_draws closed) ?_
  dsimp only
  rcases renamed : d₄.rename (PosixPath.appendSuffix q tmpExtension) q with ⟨r₅, d₅⟩
  cases r₅ with
  | error e => exact .cons (call_draws renamed) (.one (call_draws (rfl : d₅.remove _ = _)))
  | ok _ => exact .one (call_draws renamed)

theorem writeMetadataFile_draws (directory : List Name) (f : Bytes) (m : FileMetadata) (d : Disk) :
    Draws (writeMetadataFileCalls directory f m d) d (writeMetadataFile f m d).2 := by
  have made := createDirectories_draws directory (PosixPath.append directory f).dropLast
    (physical f).dropLast d
  rw [writeMetadataFileCalls, writeMetadataFile]
  rcases created : d.createDirectories (physical f).dropLast with ⟨r, d₁⟩
  rw [created] at made
  cases r with
  | error e => exact made.append (.nil d₁)
  | ok _ => exact made.append (replaceFile_draws _ _ _ _ d₁)

theorem addMetadata_draws (now : TimePoint) (f : Bytes) (m : FileMetadata) (s : MetadataStore) :
    Draws (addMetadataCalls directory now f m s) s.disk (addMetadata now f m s).2.disk := by
  unfold addMetadataCalls addMetadata
  split
  · exact .nil _
  rcases looked : s.disk.pathExists (physical f) with ⟨r, d₁⟩
  rcases r with e | (_ | _)
  · exact .one (query_draws looked)
  · have written := writeMetadataFile_draws directory f
      { m with path := f, createdAt := now, modifiedAt := now } d₁
    refine .cons (query_draws looked) ?_
    dsimp only
    rw [if_neg Bool.false_ne_true]
    rcases replaced : writeMetadataFile f { m with path := f, createdAt := now, modifiedAt := now } d₁ with ⟨r, d₂⟩
    rw [replaced] at written
    cases r <;> exact written
  · exact .one (query_draws looked)

theorem updateMetadata_draws (now : TimePoint) (f : Bytes) (m : FileMetadata) (s : MetadataStore) :
    Draws (updateMetadataCalls directory now f m s) s.disk (updateMetadata now f m s).2.disk := by
  unfold updateMetadataCalls updateMetadata
  split
  · exact .nil _
  cases s.data.lookup (key f) with
  | none => exact addMetadata_draws now f m s
  | some existing =>
      have written := writeMetadataFile_draws directory f
        { m with path := f, createdAt := existing.createdAt, modifiedAt := now } s.disk
      dsimp only
      rcases replaced : writeMetadataFile f { m with path := f, createdAt := existing.createdAt, modifiedAt := now } s.disk
        with ⟨r, d₁⟩
      rw [replaced] at written
      cases r <;> exact written

theorem removeMetadata_draws (f : Bytes) (s : MetadataStore) :
    Draws (removeMetadataCalls directory f) s.disk (removeMetadata f s).2.disk := by
  unfold removeMetadataCalls removeMetadata
  split
  · exact .nil _
  rcases removed : s.disk.remove (physical f) with ⟨r, d₁⟩
  rcases r with e | (_ | _) <;> exact .one (call_draws removed)

theorem makeDirectory_draws (f : Bytes) (s : MetadataStore) :
    Draws (makeDirectoryCalls directory f) s.disk (makeDirectory f s).2.disk := by
  unfold makeDirectoryCalls makeDirectory
  split
  · exact .nil _
  rcases made : s.disk.createDirectory (physical f) with ⟨r, d₁⟩
  cases r <;> exact .one (call_draws made)

theorem removeDirectory_draws (f : Bytes) (s : MetadataStore) :
    Draws (removeDirectoryCalls directory f s) s.disk (removeDirectory f s).2.disk := by
  unfold removeDirectoryCalls removeDirectory
  split
  · exact .nil _
  rcases looked : s.disk.pathExists (physical f) with ⟨r₁, d₁⟩
  rcases r₁ with e | (_ | _)
  · exact .one (query_draws looked)
  · exact .one (query_draws looked)
  refine .cons (query_draws looked) ?_
  dsimp only
  rcases kind : d₁.isDirectory (physical f) with ⟨r₂, d₂⟩
  rcases r₂ with e | (_ | _)
  · exact .one (query_draws kind)
  · exact .one (query_draws kind)
  refine .cons (query_draws kind) ?_
  dsimp only
  rcases removed : d₂.remove (physical f) with ⟨r₃, d₃⟩
  rcases r₃ with e | (_ | _) <;> exact .one (call_draws removed)

theorem iterate_draws (final : FilePath) (entries : List (Name × Bool)) (d : Disk) :
    Draws (iterateCalls final entries d) d (iterate entries d).2 := by
  induction entries generalizing d with
  | nil => exact .nil d
  | cons entry rest ih =>
      obtain ⟨name, isDirectory⟩ := entry
      rw [iterateCalls, iterate]
      rcases stepped : d.settle with ⟨r, d₁⟩
      cases r with
      | error e => exact .one (query_draws stepped)
      | ok _ =>
          have behind := ih d₁
          refine .cons (query_draws stepped) ?_
          dsimp only
          rcases iterated : iterate rest d₁ with ⟨r, d₂⟩
          rw [iterated] at behind
          cases r <;> exact behind

theorem list_draws (f : Bytes) (s : MetadataStore) : Draws (listCalls directory f s) s.disk (list f s).2.disk := by
  unfold listCalls list
  rcases looked : s.disk.settle with ⟨r₁, d₁⟩
  cases r₁ with
  | error e => exact .one (query_draws looked)
  | ok _ =>
  refine .cons (query_draws looked) ?_
  dsimp only
  rcases kind : d₁.settle with ⟨r₂, d₂⟩
  cases r₂ with
  | error e => exact .one (query_draws kind)
  | ok _ =>
  refine .cons (query_draws kind) ?_
  dsimp only
  cases d₂.directoryAt (PosixPath.relativeComponents f) with
  | none => exact .nil d₂
  | some entries =>
  dsimp only
  rcases opened : d₂.settle with ⟨r₃, d₃⟩
  cases r₃ with
  | error e => exact .one (query_draws opened)
  | ok _ =>
  have behind := iterate_draws (below directory f) entries d₃
  refine .cons (query_draws opened) ?_
  dsimp only
  rcases iterated : iterate entries d₃ with ⟨r, d₄⟩
  rw [iterated] at behind
  cases r <;> exact behind

theorem renameEntries_draws (old new : Bytes) (entries : List RenamedEntry) (s : MetadataStore) :
    Draws (renameEntriesCalls directory old new entries s) s.disk (renameEntries old new entries s).2.disk := by
  unfold renameEntriesCalls renameEntries
  split
  · exact .nil _
  rcases renamed : s.disk.rename (physical old) (physical new) with ⟨r, d₁⟩
  cases r <;> exact .one (call_draws renamed)

theorem rename_draws (old new : Bytes) (s : MetadataStore) :
    Draws (renameCalls directory old new s) s.disk (rename old new s).2.disk := by
  unfold renameCalls rename
  split
  · exact .nil _
  rcases source : s.disk.pathExists (physical old) with ⟨r₁, d₁⟩
  rcases r₁ with e | (_ | _)
  · exact .one (query_draws source)
  · exact .one (query_draws source)
  refine .cons (query_draws source) ?_
  dsimp only
  split
  · exact .nil d₁
  rcases target : d₁.pathExists (physical new) with ⟨r₂, d₂⟩
  cases r₂ with
  | error e => exact .one (query_draws target)
  | ok destinationExists =>
  refine .cons (query_draws target) ?_
  dsimp only
  split
  · exact .nil d₂
  rcases directories : d₂.isDirectory (physical old) with ⟨r₃, d₃⟩
  cases r₃ with
  | error e => exact .one (query_draws directories)
  | ok sourceIsDirectory =>
  refine .cons (query_draws directories) ?_
  dsimp only
  rcases files : d₃.isRegularFile (physical old) with ⟨r₄, d₄⟩
  cases r₄ with
  | error e => exact .one (query_draws files)
  | ok sourceIsFile =>
  refine .cons (query_draws files) ?_
  dsimp only
  split
  · exact .nil d₄
  split
  · split
    · exact .nil d₄
    · exact renameEntries_draws old new _ { s with disk := d₄ }
  · exact renameEntries_draws old new _ { s with disk := d₄ }

/-- The calls of an operation are as many as the model makes. -/
theorem apply_draws (directory : List Name) (o : StoreOp) (s : MetadataStore) : Draws (o.calls directory s) s.disk (o.apply s).disk := by
  cases o with
  | add now f m => exact addMetadata_draws now f m s
  | update now f m => exact updateMetadata_draws now f m s
  | remove f => exact removeMetadata_draws f s
  | rename old new => exact rename_draws old new s
  | makeDirectory f => exact makeDirectory_draws f s
  | removeDirectory f => exact removeDirectory_draws f s
  | list f => exact list_draws f s
  | get f => exact .nil _

/-! ## Where the calls lead -/

/-- All paths in the calls lead to the directory or below it. -/
def Inside (directory : List Name) (calls : Calls) : Prop :=
  ∀ call ∈ calls, ∀ place ∈ call, fromRoot directory <+: place

theorem Inside.nil : Inside directory [] := by simp [Inside]

theorem Inside.cons {call : List FilePath} {calls : Calls} (here : ∀ place ∈ call, fromRoot directory <+: place)
    (rest : Inside directory calls) : Inside directory (call :: calls) :=
  fun call' mem => (List.mem_cons.1 mem).elim (fun e => e ▸ here) (rest call')

theorem Inside.one {place : FilePath} {calls : Calls} (here : fromRoot directory <+: place)
    (rest : Inside directory calls) : Inside directory ([place] :: calls) :=
  .cons (fun _ mem => List.mem_singleton.1 mem ▸ here) rest

theorem Inside.append {calls calls' : Calls} (h : Inside directory calls) (h' : Inside directory calls') :
    Inside directory (calls ++ calls') :=
  fun call mem => (List.mem_append.1 mem).elim (h call) (h' call)

theorem inside_names {cs : List Name} (plain : ∀ c ∈ cs, c ≠ PosixPath.dotDotName) :
    fromRoot directory <+: fromRoot (directory ++ cs) := by
  rw [fromRoot, fromRoot, PosixPath.resolve_append]
  exact PosixPath.prefix_resolve_names plain

/-- A valid file name is relative and has names only. -/
theorem valid_names (directory : List Name) (valid : validFilename f = true) :
    PosixPath.append directory f = directory ++ physical f ∧ PosixPath.relativeComponents f = physical f ∧
      ∀ c ∈ physical f, c ≠ PosixPath.dotDotName := by
  have same := (valid_filename valid).1
  unfold validFilename at valid
  split at valid
  · cases valid
  rename_i ok
  simp only [not_or] at ok
  obtain ⟨-, relative, name, -⟩ := ok
  have components := PosixPath.relativeComponents_of_filename name
  refine ⟨by rw [PosixPath.append, if_neg relative, components]; rfl, components, fun c mem e => ?_⟩
  rw [← same, key] at mem
  have plain := List.all_eq_true.1 valid c mem
  simp [e] at plain

/-- What `Inside` needs of the paths that an operation makes from a valid file name. -/
structure Held (directory : List Name) (f : Bytes) : Prop where
  final : fromRoot directory <+: fromRoot (PosixPath.append directory f)
  below : fromRoot directory <+: below directory f
  temporary : fromRoot directory <+: fromRoot (PosixPath.appendSuffix (PosixPath.append directory f) tmpExtension)
  parents : ∀ p, p <+: (PosixPath.append directory f).dropLast → directory.length ≤ p.length →
    fromRoot directory <+: fromRoot p
  parent : fromRoot directory <+: fromRoot (PosixPath.append directory f).dropLast
  made : ∀ q, q <+: (physical f).dropLast → fromRoot directory <+: fromRoot (directory ++ q)

theorem held (directory : List Name) (valid : validFilename f = true) : Held directory f := by
  obtain ⟨joined, relative, plain⟩ := valid_names directory valid
  have some := physical_ne_nil valid
  have front : (directory ++ physical f).dropLast = directory ++ (physical f).dropLast :=
    List.dropLast_append_of_ne_nil some
  have made : ∀ q, q <+: (physical f).dropLast → fromRoot directory <+: fromRoot (directory ++ q) := fun q before =>
    inside_names fun c mem => plain c (List.dropLast_subset _ (before.subset mem))
  refine ⟨?_, ?_, ?_, ?_, ?_, made⟩
  · rw [joined]
    exact inside_names plain
  · rw [below, relative]
    exact inside_names plain
  · rw [joined, PosixPath.appendSuffix, front, List.append_assoc, getLastD_append some]
    refine inside_names fun c mem => ?_
    rcases List.mem_append.1 mem with mem | mem
    · exact plain c (List.dropLast_subset _ mem)
    · rw [List.mem_singleton.1 mem]
      intro e
      have lengths := congrArg List.length e
      simp [PosixPath.dotDotName, tmpExtension] at lengths
  · intro p before long
    rw [joined, front] at before
    obtain ⟨q, rfl⟩ : directory <+: p :=
      List.prefix_of_prefix_length_le (List.prefix_append _ _) before long
    exact made q ((List.prefix_append_right_inj directory).1 before)
  · rw [joined, front]
    exact made _ List.prefix_rfl

theorem createEach_inside {qs : List FilePath} (d : Disk)
    (all : ∀ q ∈ qs, fromRoot directory <+: fromRoot (directory ++ q)) : Inside directory (createEachCalls directory qs d) := by
  induction qs generalizing d with
  | nil => exact .nil
  | cons q qs ih =>
      rw [createEachCalls]
      refine .one (all q List.mem_cons_self) ?_
      split
      · exact .nil
      · exact ih _ fun q mem => all q (List.mem_cons_of_mem _ mem)

theorem createDirectories_inside (held : Held directory f) (d : Disk) :
    Inside directory
      (createDirectoriesCalls directory (PosixPath.append directory f).dropLast (physical f).dropLast d) := by
  unfold createDirectoriesCalls
  refine .cons (fun place mem => ?_) ?_
  · obtain ⟨p, looked, rfl⟩ := List.mem_map.1 mem
    rcases List.mem_cons.1 looked with rfl | above
    · exact held.parent
    · obtain ⟨before, long⟩ := List.mem_filter.1 above
      exact held.parents p ((List.mem_inits _ _).1 before) (of_decide_eq_true long)
  · split
    · split
      · exact .nil
      · exact createEach_inside _ fun q mem => held.made q ((List.mem_inits _ _).1 (List.mem_filter.1 mem).1)
    · exact .nil

theorem replaceFile_inside {temporary final q : FilePath} {data : Bytes} (d : Disk)
    (here : fromRoot directory <+: temporary) (there : fromRoot directory <+: final) :
    Inside directory (replaceFileCalls temporary final q data d) := by
  unfold replaceFileCalls
  refine .one here ?_
  split
  · exact .nil
  refine .one here ?_
  split
  · exact .nil
  refine .one here ?_
  split
  · exact .nil
  refine .one here ?_
  split
  · exact .nil
  refine .cons (by simp [here, there]) ?_
  split
  · exact .one here .nil
  · exact .nil

theorem writeMetadataFile_inside (held : Held directory f) (m : FileMetadata) (d : Disk) :
    Inside directory (writeMetadataFileCalls directory f m d) := by
  refine .append (createDirectories_inside held d) ?_
  split
  · exact .nil
  · exact replaceFile_inside _ held.temporary held.final

theorem addMetadata_inside (now : TimePoint) (f : Bytes) (m : FileMetadata) (s : MetadataStore) :
    Inside directory (addMetadataCalls directory now f m s) := by
  unfold addMetadataCalls
  split
  · exact .nil
  rename_i valid
  have held := held directory (f := f) (by simpa using valid)
  refine .one held.final ?_
  split
  · exact writeMetadataFile_inside held _ _
  · exact .nil

theorem updateMetadata_inside (now : TimePoint) (f : Bytes) (m : FileMetadata) (s : MetadataStore) :
    Inside directory (updateMetadataCalls directory now f m s) := by
  unfold updateMetadataCalls
  split
  · exact .nil
  rename_i valid
  split
  · exact addMetadata_inside now f m s
  · exact writeMetadataFile_inside (held directory (by simpa using valid)) _ _

theorem removeMetadata_inside (f : Bytes) : Inside directory (removeMetadataCalls directory f) := by
  unfold removeMetadataCalls
  split
  · exact .nil
  · rename_i valid
    exact .one (held directory (by simpa using valid)).final .nil

theorem makeDirectory_inside (f : Bytes) : Inside directory (makeDirectoryCalls directory f) := by
  unfold makeDirectoryCalls
  split
  · exact .nil
  · rename_i valid
    exact .one (held directory (by simpa using valid)).below .nil

theorem removeDirectory_inside (f : Bytes) (s : MetadataStore) : Inside directory (removeDirectoryCalls directory f s) := by
  unfold removeDirectoryCalls
  split
  · exact .nil
  rename_i valid
  have held := held directory (f := f) (by simpa using valid)
  refine .one held.below ?_
  split
  · refine .one held.below ?_
    split
    · exact .one held.below .nil
    · exact .nil
  · exact .nil

theorem renameEntries_inside {old new : Bytes} (heldOld : Held directory old) (heldNew : Held directory new)
    (entries : List RenamedEntry) (s : MetadataStore) : Inside directory (renameEntriesCalls directory old new entries s) := by
  unfold renameEntriesCalls
  split
  · exact .nil
  · exact .cons (by simp [heldOld.below, heldNew.below]) .nil

theorem rename_inside (old new : Bytes) (s : MetadataStore) : Inside directory (renameCalls directory old new s) := by
  unfold renameCalls
  split
  · exact .nil
  rename_i valid
  simp only [not_or, Bool.not_eq_false] at valid
  have heldOld := held directory valid.1
  have heldNew := held directory valid.2
  refine .one heldOld.below ?_
  split
  · split
    · exact .nil
    refine .one heldNew.below ?_
    split
    · exact .nil
    split
    · exact .nil
    refine .one heldOld.below ?_
    split
    · exact .nil
    refine .one heldOld.below ?_
    split
    · exact .nil
    split
    · exact .nil
    split
    · split
      · exact .nil
      · exact renameEntries_inside heldOld heldNew _ _
    · exact renameEntries_inside heldOld heldNew _ _
  · exact .nil

theorem iterate_inside {final : FilePath} (here : fromRoot directory <+: final) (entries : List (Name × Bool)) (d : Disk) :
    Inside directory (iterateCalls final entries d) := by
  induction entries generalizing d with
  | nil => exact .nil
  | cons entry rest ih =>
      obtain ⟨name, isDirectory⟩ := entry
      rw [iterateCalls]
      refine .cons (by simp [here, here.trans (List.prefix_append final [name])]) ?_
      split
      · exact .nil
      · exact ih _

/-- `list` first looks at the path it is given, so the path alone decides. -/
theorem list_inside {path : Bytes} {s : MetadataStore} :
    Inside directory (listCalls directory path s) ↔ fromRoot directory <+: below directory path := by
  refine ⟨fun inside => inside _ List.mem_cons_self _ (List.mem_singleton_self _), fun here => .one here ?_⟩
  split
  · exact .nil
  refine .one here ?_
  split
  · exact .nil
  split
  · exact .nil
  refine .one here ?_
  split
  · exact .nil
  · exact iterate_inside here _ _

theorem apply_inside (o : StoreOp) (s : MetadataStore) :
    Inside directory (o.calls directory s) ↔ ∀ path, o = .list path → fromRoot directory <+: below directory path := by
  cases o with
  | add now f m => exact iff_of_true (addMetadata_inside now f m s) (fun path e => by cases e)
  | update now f m => exact iff_of_true (updateMetadata_inside now f m s) (fun path e => by cases e)
  | remove f => exact iff_of_true (removeMetadata_inside f) (fun path e => by cases e)
  | rename old new => exact iff_of_true (rename_inside old new s) (fun path e => by cases e)
  | makeDirectory f => exact iff_of_true (makeDirectory_inside f) (fun path e => by cases e)
  | removeDirectory f => exact iff_of_true (removeDirectory_inside f s) (fun path e => by cases e)
  | list f => exact list_inside.trans ⟨fun here path e => by cases e; exact here, fun all => all f rfl⟩
  | get f => exact iff_of_true .nil (fun path e => by cases e)

end MetadataStore

namespace MetadataState

open MetadataStore MetadataWorker

variable {ν : Type} [Network ν] {s : MetadataState ν} {env : Env} {directory : List Name} {event : ClientEvent}

/-- The file calls of a handler are those of the operation that it runs, if it runs one. -/
theorem handle_draws :
    ∃ calls : Calls, Draws calls (s.entered env).worker.store.disk (s.handle env event).2.worker.store.disk ∧
      (calls = [] ∨ ∃ o, (s.entered env).worker.Performs env event o ∧
        calls = o.calls directory (s.entered env).worker.store) := by
  rcases handle_operates s env event with same | ⟨o, performs, done⟩
  · exact ⟨[], by rw [same]; exact .nil _, Or.inl rfl⟩
  · exact ⟨_, by rw [done]; exact apply_draws directory o _, Or.inr ⟨o, performs, rfl⟩⟩

/-- All file calls that the handler may make stay in the directory. -/
def StaysInside (directory : List Name) (env : Env) (s : MetadataState ν) (event : ClientEvent) : Prop :=
  ∀ o, (s.entered env).worker.Performs env event o → Inside directory (o.calls directory (s.entered env).worker.store)

omit [Network ν] in
/-- Only a `List` can leave it: where its path goes up and does not come back by the same names. -/
theorem stays_inside_iff : s.StaysInside directory env event ↔
    ∀ req, event = .list req →
      (fromRoot directory).drop
        ((fromRoot directory).length - (PosixPath.climb (PosixPath.relativeComponents req.path)).ups) <+:
        (PosixPath.climb (PosixPath.relativeComponents req.path)).rest := by
  have listed : ∀ path, fromRoot directory <+: below directory path ↔
      (fromRoot directory).drop ((fromRoot directory).length - (PosixPath.climb (PosixPath.relativeComponents path)).ups) <+:
        (PosixPath.climb (PosixPath.relativeComponents path)).rest := fun path => by
    rw [below, fromRoot, fromRoot, PosixPath.resolve_append]
    exact PosixPath.prefix_resolve
  constructor
  · rintro inside req rfl
    exact (listed req.path).1 ((apply_inside _ _).1 (inside _ (.list req)) req.path rfl)
  · intro comesBack o performs
    rw [apply_inside]
    rintro path rfl
    cases performs with
    | list req => exact (listed req.path).2 (comesBack req rfl)
    | stat req missing => exact (held directory (getMetadata_notFound missing).1).below

/-- A directory that has a file `"s"` beside it. -/
def besideFile : MetadataStore :=
  { disk := { tree := .empty, outcomes := [], trail := [], outside := fun _ => some [([115], false)] }, data := ∅ }

/-- A worker on `/srv/m`. -/
def onSrv : MetadataState Unit :=
  { worker := { store := besideFile, storageNodes := ∅, pendingReads := ∅, pendingWrites := ∅, currentStorageRequestId := 0 }
    network := () }

/-- `List` of `".."` reads `/srv` and tells its client what is there. -/
theorem list_leaves :
    ¬ onSrv.StaysInside [[115, 114, 118], [109]] {} (.list { path := [46, 46], context := ⟨1, ⟨[99], .client⟩⟩ }) ∧
      (MetadataStore.list [46, 46] besideFile).1 = .ok (.ok [{ path := [115], isDirectory := false }]) := by
  refine ⟨fun inside => ?_, by decide +kernel⟩
  have here := inside _ (.list _) _ List.mem_cons_self _ (List.mem_singleton_self _)
  exact absurd here (by decide +kernel)

end MetadataState

end Dfs
