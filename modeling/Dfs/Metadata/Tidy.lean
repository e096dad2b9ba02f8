import Dfs.Metadata.StoreFailures

/-!
# The directory when no file call fails

With no failing call an operation leaves no temporary file behind, so that every file in the
directory is the metadata file of a record. Whatever is new lies where the operation puts it
or on the way there.
-/

namespace Dfs

open Lib

namespace MetadataStore

open PosixPath (PlainName)

variable {s s' : MetadataStore} {t : FileTree} {d d' : Disk} {f g : Bytes} {m : FileMetadata} {now : TimePoint}
  {o : StoreOp} {q : FilePath} {v : Node}

/-! ## Paths that `valid_filename` takes -/

theorem valid_plain (valid : validFilename f = true) : ∀ c ∈ physical f, PlainName c := by
  intro c mem
  have same := (valid_filename valid).1
  have dots : c ≠ PosixPath.dotName ∧ c ≠ PosixPath.dotDotName := by
    unfold validFilename at valid
    split at valid
    · cases valid
    · have all := List.all_eq_true.1 valid c (show c ∈ key f from same ▸ mem)
      simpa using all
  exact ⟨PosixPath.names_not_nil mem, PosixPath.separator_not_mem mem, dots.1, dots.2⟩

/-- A path of plain names is taken unless it ends like a temporary file. -/
theorem valid_of_plain (relative : PosixPath.relativeComponents f = physical f) (notAbsolute : PosixPath.isAbsolute f = false)
    (ne : physical f ≠ []) (plain : ∀ c ∈ physical f, PlainName c) :
    validFilename f = true ↔ PosixPath.extensionOf ((physical f).getLastD []) ≠ tmpExtension := by
  have components : PosixPath.components f = physical f := by
    rw [PosixPath.components, notAbsolute, relative]
    rfl
  have normal : PosixPath.components f = PosixPath.normalComponents f :=
    (PosixPath.normalComponents_plain (components ▸ ne) (components ▸ plain)).symm
  have last : (physical f).getLastD [] ∈ physical f := by
    rw [List.getLastD_eq_getLast?, List.getLast?_eq_some_getLast ne]
    exact List.getLast_mem ne
  have filename : PosixPath.filename f ≠ [] := by
    rw [PosixPath.filename, relative]
    exact (plain _ last).nonempty
  have some : f ≠ [] := by
    rintro rfl
    exact ne rfl
  have dots : (PosixPath.components f).all (fun c => c ≠ PosixPath.dotName && c ≠ PosixPath.dotDotName) = true := by
    rw [components, List.all_eq_true]
    intro c mem
    simp [(plain c mem).notDot, (plain c mem).notDotDot]
  rw [validFilename, PosixPath.extension, dots]
  simp only [some, notAbsolute, filename, ← normal]
  rw [PosixPath.filename, relative]
  simp

theorem physical_name {n : Name} (plain : PlainName n) : physical n = [n] := PosixPath.names_name plain.nonempty plain.single

/-- A single name names a file in the root. -/
theorem valid_name {n : Name} (plain : PlainName n) (extension : PosixPath.extensionOf n ≠ tmpExtension) :
    validFilename n = true := by
  have physical := physical_name plain
  have relative : PosixPath.relativeComponents n = [n] := by
    rw [PosixPath.relativeComponents, if_neg, List.append_nil]
    · exact physical
    · rintro ⟨-, last⟩
      exact plain.single (List.mem_of_getLast? last)
  have notAbsolute : PosixPath.isAbsolute n = false := by
    rw [PosixPath.isAbsolute, decide_eq_false_iff_not]
    exact fun first => plain.single (List.mem_of_head? first)
  refine (valid_of_plain (relative.trans physical.symm) notAbsolute (by simp [physical]) ?_).2 ?_
  · rw [physical]
    exact fun c mem => List.mem_singleton.1 mem ▸ plain
  · rwa [physical]

/-! ## Writing a metadata file -/

section Replace

variable {final : FilePath} {data : Bytes} {r : Except MetadataStoreError Unit}

/-- A replaced file is the only thing that is new. -/
theorem replaceFile_moved (h : replaceFile final data d = (.ok (), d')) (there : d'.tree.kind q = some v) :
    d.tree.kind q = some v ∨ q = final ∧ v ≠ .dir := by
  unfold replaceFile at h
  dsimp only at h
  split at h
  · cases h
  rename_i d₁ opened
  split at h
  · cases h
  rename_i d₂ wrote
  split at h
  · cases h
  rename_i d₃ flushed
  split at h
  · cases h
  rename_i d₄ closed
  split at h
  · cases h
  rename_i d₅ renamed
  cases h
  have others : ∀ p, p ≠ PosixPath.appendSuffix final tmpExtension → d₄.tree.kind p = d.tree.kind p := fun p ne => by
    rw [(Disk.settle_tree closed).1, (Disk.settle_tree flushed).1, Disk.write_kind wrote ne,
      FileTree.setFile_kind (Disk.call_ok opened).1 ne]
  have empty : d₁.tree.content (PosixPath.appendSuffix final tmpExtension) = some [] := by
    rw [Disk.openTruncate_ok opened, if_pos rfl]
  have file : d₄.tree.content (PosixPath.appendSuffix final tmpExtension) =
      some ([] ++ data.take (UInt32.ofNat data.length).toNat) := by
    rw [(Disk.settle_tree closed).1, (Disk.settle_tree flushed).1, Disk.write_ok wrote empty]
  have source := FileTree.content_eq_some.1 file
  obtain ⟨-, ok, -, moved, -, -⟩ := FileTree.rename_ok (temporary_ne final) (Disk.call_ok renamed).1
  rw [moved, FileTree.kind_move] at there
  split at there
  · rename_i under
    obtain ⟨below, rfl⟩ := under
    rw [List.drop_left] at there
    by_cases top : below = []
    · rw [top, List.append_nil, source] at there
      cases there
      exact .inr ⟨by simp [top], by simp⟩
    · rw [d₄.tree.kind_below_none (by rw [source]; simp) top] at there
      cases there
  · split at there
    · cases there
    · rename_i away
      exact .inl (others q (fun same => away (same ▸ List.prefix_rfl)) ▸ there)

theorem replaceFile_origin {room : Nat} (healthy : d.Healthy room) (small : room < 2 ^ 64) (ne : final ≠ [])
    (parent : d.tree.kind final.dropLast = some .dir) (file : d.tree.kind final ≠ some .dir)
    (h : replaceFile final data d = (r, d')) (there : d'.tree.kind q = some v) :
    d.tree.kind q = some v ∨ q = final ∧ v ≠ .dir := by
  by_cases taken : d.tree.kind (PosixPath.appendSuffix final tmpExtension) = some .dir
  · have blocked : ∃ e, d.openTruncate (PosixPath.appendSuffix final tmpExtension) = (.error e, d.drawn) := by
      unfold Disk.openTruncate Disk.call FileTree.setFile
      rw [(healthy.outcome small).1]
      dsimp only
      rw [dif_neg (fun ok => (ok.2.2.resolve_left (by simp)) taken)]
      exact ⟨_, rfl⟩
    obtain ⟨e, blocked⟩ := blocked
    unfold replaceFile at h
    dsimp only at h
    rw [blocked] at h
    cases h
    exact .inl there
  · obtain ⟨d₁, replaced, -⟩ := replaceFile_healthy data healthy small ne parent file taken
    cases h.symm.trans replaced
    exact replaceFile_moved replaced there

end Replace

/-- A metadata file that is written at `f` needs the directory `q`, and it is not there yet. -/
structure Opens (t : FileTree) (f : Bytes) (q : FilePath) : Prop where
  absent : t.kind (physical f) = none
  under : q <+: (physical f).dropLast
  missing : t.kind q = none
  clear : ∀ p ∈ q.inits, t.content p = none

/-- `create_directories` makes what is missing on the way. -/
theorem createDirectories_opens {r : Except Errc Unit} (ne : physical f ≠ [])
    (h : d.createDirectories (physical f).dropLast = (r, d')) (there : d'.tree.kind q = some v) :
    d.tree.kind q = some v ∨ Opens d.tree f q ∧ v = .dir := by
  rcases Disk.createDirectories_kind h q with same | ⟨under, missing, dir⟩
  · exact .inl (same ▸ there)
  refine .inr ⟨⟨?_, under, missing, fun p mem => ?_⟩, Option.some.inj (there.symm.trans dir)⟩
  · obtain ⟨rest, whole⟩ := under
    rw [← FileTree.dropLast_getLastD ne, ← whole, List.append_assoc]
    exact d.tree.kind_below_none (by rw [missing]; simp) (by simp)
  · have made : d'.tree.kind p = some .dir := by
      obtain ⟨rest, rfl⟩ := (List.mem_inits _ _).1 mem
      by_cases top : rest = []
      · rwa [top, List.append_nil] at dir
      · exact d'.tree.prefix_dir dir top
    rw [FileTree.content]
    rcases Disk.createDirectories_kind h p with same | ⟨-, gone, -⟩
    · rw [← same, made]
      rfl
    · rw [gone]
      rfl

theorem writeMetadataFile_origin {room : Nat} {r : Except MetadataStoreError Unit} (healthy : d.Healthy room)
    (small : room < 2 ^ 64) (ne : physical f ≠ []) (file : d.tree.kind (physical f) ≠ some .dir)
    (h : writeMetadataFile f m d = (r, d')) (there : d'.tree.kind q = some v) :
    d.tree.kind q = some v ∨ q = physical f ∧ v ≠ .dir ∨ Opens d.tree f q ∧ v = .dir := by
  unfold writeMetadataFile at h
  split at h
  · rename_i made
    cases h
    exact (createDirectories_opens ne made there).imp_right .inr
  rename_i d₁ made
  have way := Disk.createDirectories_ok made
  obtain ⟨d₂, made', healthy₁, parent⟩ := healthy.createDirectories small way
  cases made.symm.trans made'
  have file₁ : d₁.tree.kind (physical f) ≠ some .dir := fun dir => by
    rcases Disk.createDirectories_kind made (physical f) with same | ⟨under, -, -⟩
    · exact file (same ▸ dir)
    · have length := under.length_le
      have positive := List.length_pos_iff.2 ne
      rw [List.length_dropLast] at length
      omega
  rcases replaceFile_origin healthy₁ small ne parent file₁ h there with before | new
  · exact (createDirectories_opens ne made before).imp_right .inr
  · exact .inr (.inl new)

/-! ## One operation -/

/-- Where `v`, which is at `q` after the operation, comes from. -/
inductive Origin (t : FileTree) (q : FilePath) (v : Node) : StoreOp → Prop where
  | kept (o : StoreOp) (before : t.kind q = some v) : Origin t q v o
  | file (o : StoreOp) (f : Bytes) (written : o.written = some f) (valid : validFilename f = true) (here : q = physical f)
      (isFile : v ≠ .dir) : Origin t q v o
  | opened (o : StoreOp) (f : Bytes) (written : o.written = some f) (valid : validFilename f = true) (opens : Opens t f q)
      (dir : v = .dir) : Origin t q v o
  | made (f : Bytes) (valid : validFilename f = true) (here : q = physical f) (dir : v = .dir) :
      Origin t q v (.makeDirectory f)
  | moved (f g : Bytes) (validOld : validFilename f = true) (validNew : validFilename g = true) (rest : FilePath)
      (here : q = physical g ++ rest) (before : t.kind (physical f ++ rest) = some v) : Origin t q v (.rename f g)

theorem addMetadata_origin {room : Nat} {r : Except MetadataStoreError Unit} (healthy : s.disk.Healthy room)
    (small : room < 2 ^ 64) (written : o.written = some f) (h : addMetadata now f m s = (r, s'))
    (there : s'.disk.tree.kind q = some v) : Origin s.disk.tree q v o := by
  unfold addMetadata at h
  split at h
  · cases h
    exact .kept o there
  rename_i valid
  replace valid : validFilename f = true := by simpa using valid
  split at h
  · rename_i looked
    cases h
    exact .kept o ((Disk.query_tree looked).1 ▸ there)
  rename_i exists' d₁ looked
  have same := (Disk.query_tree looked).1
  split at h
  · cases h
    exact .kept o (same ▸ there)
  rename_i absent
  have free : d₁.tree.kind (physical f) ≠ some .dir := by
    have present := Disk.query_ok looked
    have gone := (Except.ok.inj present).trans (by simpa using absent)
    rw [Option.isSome_eq_false_iff, Option.isNone_iff_eq_none] at gone
    rw [same, gone]
    simp
  have healthy₁ : d₁.Healthy room := by
    rw [Disk.pathExists, healthy.query small] at looked
    cases looked
    exact healthy.drawn
  have wrote : ∀ {m r d₂}, writeMetadataFile f m d₁ = (r, d₂) → d₂.tree.kind q = some v → Origin s.disk.tree q v o := by
    intro m r d₂ wrote there
    rw [← same]
    rcases writeMetadataFile_origin healthy₁ small (physical_ne_nil valid) free wrote there with before | ⟨here, isFile⟩ | ⟨opens, dir⟩
    · exact .kept o before
    · exact .file o f written valid here isFile
    · exact .opened o f written valid opens dir
  dsimp only at h
  split at h <;> rename_i run <;> cases h <;> exact wrote run there

theorem updateMetadata_origin {room : Nat} {r : Except MetadataStoreError Unit} (mirror : Mirrors s.disk.tree s.data)
    (healthy : s.disk.Healthy room) (small : room < 2 ^ 64) (written : o.written = some f)
    (h : updateMetadata now f m s = (r, s')) (there : s'.disk.tree.kind q = some v) : Origin s.disk.tree q v o := by
  unfold updateMetadata at h
  split at h
  · cases h
    exact .kept o there
  rename_i valid
  replace valid : validFilename f = true := by simpa using valid
  split at h
  · exact addMetadata_origin healthy small written h there
  rename_i existing found
  have file : s.disk.tree.kind (physical f) ≠ some .dir := by
    have content := (mirror.found found).1
    rw [(valid_filename valid).1] at content
    rw [FileTree.content_eq_some.1 content]
    simp
  have wrote : ∀ {m r d₂}, writeMetadataFile f m s.disk = (r, d₂) → d₂.tree.kind q = some v → Origin s.disk.tree q v o := by
    intro m r d₂ wrote there
    rcases writeMetadataFile_origin healthy small (physical_ne_nil valid) file wrote there with before | ⟨here, isFile⟩ | ⟨opens, dir⟩
    · exact .kept o before
    · exact .file o f written valid here isFile
    · exact .opened o f written valid opens dir
  dsimp only at h
  split at h <;> rename_i run <;> cases h <;> exact wrote run there

theorem removeMetadata_some {r : Except MetadataStoreError Unit} (h : removeMetadata f s = (r, s'))
    (there : s'.disk.tree.kind q = some v) : s.disk.tree.kind q = some v := by
  unfold removeMetadata at h
  split at h
  · cases h
    exact there
  split at h <;> rename_i removed <;> cases h
  · exact (Disk.call_error removed).1 ▸ there
  · exact FileTree.remove_some (Disk.call_ok removed).1 there
  · exact FileTree.remove_some (Disk.call_ok removed).1 there

theorem removeDirectory_some {r : Except MetadataStoreError Unit} (h : removeDirectory f s = (r, s'))
    (there : s'.disk.tree.kind q = some v) : s.disk.tree.kind q = some v := by
  unfold removeDirectory at h
  split at h
  · cases h
    exact there
  split at h <;> rename_i looked
  · cases h
    exact (Disk.query_tree looked).1 ▸ there
  · cases h
    exact (Disk.query_tree looked).1 ▸ there
  rw [← (Disk.query_tree looked).1]
  split at h <;> rename_i looked'
  · cases h
    exact (Disk.query_tree looked').1 ▸ there
  · cases h
    exact (Disk.query_tree looked').1 ▸ there
  rw [← (Disk.query_tree looked').1]
  rename_i d₂
  rcases removed : d₂.remove (physical f) with ⟨r₁, d₃⟩
  have some : d₃.tree.kind q = some v → d₂.tree.kind q = some v := fun there => by
    cases r₁ with
    | error e => exact (Disk.call_error removed).1 ▸ there
    | ok gone => exact FileTree.remove_some (Disk.call_ok removed).1 there
  rw [removed] at h
  split at h <;> rename_i result <;> cases h <;> cases result <;> exact some there

theorem makeDirectory_origin {r : Except MetadataStoreError Unit} (h : makeDirectory f s = (r, s'))
    (there : s'.disk.tree.kind q = some v) : Origin s.disk.tree q v (.makeDirectory f) := by
  unfold makeDirectory at h
  split at h
  · cases h
    exact .kept _ there
  rename_i valid
  replace valid : validFilename f = true := by simpa using valid
  split at h <;> rename_i created <;> cases h
  · exact .kept _ ((Disk.call_error created).1 ▸ there)
  · rcases FileTree.createDirectory_kind (Disk.call_ok created).1 q with same | ⟨here, -, dir⟩
    · exact .kept _ (same ▸ there)
    · exact .made f valid here (Option.some.inj (there.symm.trans dir))

theorem renamed_origin {r : Except MetadataStoreError Unit} (mirror : Mirrors s.disk.tree s.data)
    (h : rename f g s = (r, s')) (there : s'.disk.tree.kind q = some v) : Origin s.disk.tree q v (.rename f g) := by
  rcases rename_cases mirror.filed h with ⟨-, tree, -⟩ | ⟨d, entries, tree, -, validOld, validNew, ne, -, -, -, run⟩
  · exact .kept _ (tree ▸ there)
  rw [← tree]
  unfold renameEntries at run
  split at run
  · cases run
    exact .kept _ there
  split at run <;> rename_i renamed
  · cases run
    exact .kept _ ((Disk.call_error renamed).1 ▸ there)
  rcases moved : moveEntries entries s.data with ⟨r₁, data⟩
  have same := (valid_filename validOld).1
  have same' := (valid_filename validNew).1
  rw [moved] at run
  cases run
  rw [same, same'] at ne
  obtain ⟨-, ok, -, result, -, -⟩ := FileTree.rename_ok ne (Disk.call_ok renamed).1
  rw [result, FileTree.kind_move] at there
  split at there
  · rename_i under
    obtain ⟨rest, rfl⟩ := under
    rw [List.drop_left] at there
    exact .moved f g validOld validNew rest rfl there
  · split at there
    · cases there
    · exact .kept _ there

/-- What an operation that succeeds or fails on a healthy disk leaves was there, or was put there. -/
theorem apply_origin {room : Nat} (o : StoreOp) (mirror : Mirrors s.disk.tree s.data) (healthy : s.disk.Healthy room)
    (small : room < 2 ^ 64) (there : (o.apply s).disk.tree.kind q = some v) : Origin s.disk.tree q v o := by
  cases o with
  | add now f m => exact addMetadata_origin healthy small rfl rfl there
  | update now f m => exact updateMetadata_origin mirror healthy small rfl rfl there
  | remove f => exact .kept _ (removeMetadata_some rfl there)
  | rename f g => exact renamed_origin mirror rfl there
  | makeDirectory f => exact makeDirectory_origin rfl there
  | removeDirectory f => exact .kept _ (removeDirectory_some rfl there)
  | list f => exact .kept _ ((list_same (s := s) (f := f) rfl).2.1 ▸ there)
  | get f => exact .kept _ there

/-! ## Invariants -/

/-- Every path consists of plain names, and no temporary file is left over. -/
structure Tidy (t : FileTree) : Prop where
  names : ∀ q v, t.kind q = some v → ∀ c ∈ q, PlainName c
  files : ∀ q v, t.kind q = some v → v ≠ .dir → PosixPath.extensionOf (q.getLastD []) ≠ tmpExtension

theorem tidy_empty : Tidy .empty := by
  have only : ∀ q v, FileTree.empty.kind q = some v → q = [] ∧ v = .dir := fun q v there => by
    rw [FileTree.kind_empty] at there
    split at there
    · exact ⟨by assumption, (Option.some.inj there).symm⟩
    · cases there
  refine ⟨fun q v there c mem => ?_, fun q v there isFile => absurd (only q v there).2 isFile⟩
  rw [(only q v there).1] at mem
  cases mem

theorem Origin.tidy (origin : Origin t q v o) (tidy : Tidy t) :
    (∀ c ∈ q, PlainName c) ∧ (v ≠ .dir → PosixPath.extensionOf (q.getLastD []) ≠ tmpExtension) := by
  cases origin with
  | kept _ before => exact ⟨tidy.names q v before, tidy.files q v before⟩
  | file _ f written valid here isFile =>
      subst here
      exact ⟨valid_plain valid, fun _ => (valid_filename valid).2.2⟩
  | opened _ f written valid opens dir =>
      refine ⟨fun c mem => valid_plain valid c ?_, fun isFile => absurd dir isFile⟩
      exact (opens.under.trans (List.dropLast_prefix _)).subset mem
  | made f valid here dir =>
      subst here
      exact ⟨valid_plain valid, fun isFile => absurd dir isFile⟩
  | moved f g validOld validNew rest here before =>
      subst here
      have old := tidy.names _ v before
      refine ⟨fun c mem => ?_, fun isFile => ?_⟩
      · rcases List.mem_append.1 mem with new | below
        · exact valid_plain validNew c new
        · exact old c (List.mem_append_right _ below)
      · by_cases top : rest = []
        · rw [top, List.append_nil]
          exact (valid_filename validNew).2.2
        · have plain := tidy.files _ v before isFile
          rw [getLastD_append top] at plain
          rwa [getLastD_append top]

theorem apply_tidy {room : Nat} (o : StoreOp) (mirror : Mirrors s.disk.tree s.data) (healthy : s.disk.Healthy room)
    (small : room < 2 ^ 64) (tidy : Tidy s.disk.tree) : Tidy (o.apply s).disk.tree :=
  ⟨fun _ _ there => ((apply_origin o mirror healthy small there).tidy tidy).1,
    fun _ _ there => ((apply_origin o mirror healthy small there).tidy tidy).2⟩

/-- In a tidy directory the files are the records. -/
theorem Tidy.files_iff {data : Assoc FilePath FileMetadata} (tidy : Tidy t) (mirror : Mirrors t data) (k : FilePath) :
    (data.lookup k).isSome = true ↔ ∃ v, t.kind k = some v ∧ v ≠ .dir := by
  constructor
  · intro known
    obtain ⟨m, found⟩ := Option.isSome_iff_exists.1 known
    exact ⟨_, FileTree.content_eq_some.1 (mirror.found found).1, by simp⟩
  · rintro ⟨v, there, isFile⟩
    cases v with
    | dir => exact absurd rfl isFile
    | file b =>
        by_contra unknown
        rw [Bool.not_eq_true, Option.isSome_eq_false_iff, Option.isNone_iff_eq_none,
          mirror.missing (tidy.files k _ there isFile), FileTree.content_eq_some.2 there] at unknown
        cases unknown

/-! ## The names of temporary files -/

/-- `n` without the extension of a temporary file. -/
def temporaryOf (n : Name) : Name := n.take (n.length - tmpExtension.length)

/-- The temporary file of some path that `valid_filename` takes has the name `n`. -/
def TemporaryName (n : Name) : Prop :=
  n = temporaryOf n ++ tmpExtension ∧ temporaryOf n ≠ [] ∧ temporaryOf n ≠ PosixPath.dotName ∧
    temporaryOf n ≠ PosixPath.dotDotName ∧ PosixPath.extensionOf (temporaryOf n) ≠ tmpExtension

instance (n : Name) : Decidable (TemporaryName n) := inferInstanceAs (Decidable (_ ∧ _ ∧ _ ∧ _ ∧ _))

theorem temporaryName_of_valid (valid : validFilename f = true) :
    TemporaryName ((PosixPath.appendSuffix (physical f) tmpExtension).getLastD []) := by
  have last : (physical f).getLastD [] ∈ physical f := by
    have ne := physical_ne_nil valid
    rw [List.getLastD_eq_getLast?, List.getLast?_eq_some_getLast ne]
    exact List.getLast_mem ne
  have plain := valid_plain valid _ last
  have base : temporaryOf ((physical f).getLastD [] ++ tmpExtension) = (physical f).getLastD [] := by
    simp [temporaryOf]
  rw [PosixPath.appendSuffix_getLast, TemporaryName, base]
  exact ⟨rfl, plain.nonempty, plain.notDot, plain.notDotDot, (valid_filename valid).2.2⟩

theorem TemporaryName.extension {n : Name} (temporary : TemporaryName n) : PosixPath.extensionOf n = tmpExtension := by
  rw [temporary.1]
  exact PosixPath.extensionOf_append temporary.2.1 (by decide) (by decide)

/-- Nothing has the name of a temporary file. -/
def Unreserved (t : FileTree) : Prop := ∀ q, TemporaryName (q.getLastD []) → t.kind q = none

/-- The operation writes a metadata file, and one of the directories that it makes for it has the
name of a temporary file. -/
def Encroaches (t : FileTree) (o : StoreOp) : Prop :=
  ∃ f, o.written = some f ∧ validFilename f = true ∧ ∃ q, Opens t f q ∧ TemporaryName (q.getLastD [])

theorem Origin.unreserved (origin : Origin t q v o) (unreserved : Unreserved t) (keeps : ¬ Encroaches t o) :
    ¬ TemporaryName (q.getLastD []) := by
  intro temporary
  have own : ∀ {f}, validFilename f = true → q ≠ physical f := fun valid here =>
    (valid_filename valid).2.2 (here ▸ temporary.extension)
  cases origin with
  | kept _ before => exact absurd (unreserved q temporary) (by rw [before]; simp)
  | file _ f written valid here isFile => exact own valid here
  | opened _ f written valid opens dir => exact keeps ⟨f, written, valid, q, opens, temporary⟩
  | made f valid here dir => exact own valid here
  | moved f g validOld validNew rest here before =>
      by_cases top : rest = []
      · rw [top, List.append_nil] at here
        exact own validNew here
      · rw [here, getLastD_append top, ← getLastD_append (p := physical f) top] at temporary
        exact absurd (unreserved _ temporary) (by rw [before]; simp)

theorem apply_unreserved {room : Nat} (o : StoreOp) (mirror : Mirrors s.disk.tree s.data) (healthy : s.disk.Healthy room)
    (small : room < 2 ^ 64) (unreserved : Unreserved s.disk.tree) (keeps : ¬ Encroaches s.disk.tree o) :
    Unreserved (o.apply s).disk.tree := by
  intro q temporary
  cases there : (o.apply s).disk.tree.kind q with
  | none => rfl
  | some v => exact absurd temporary ((apply_origin o mirror healthy small there).unreserved unreserved keeps)

/-- Where nothing has the name of a temporary file, every record can be updated. -/
theorem update_unreserved (now : TimePoint) (m : FileMetadata) (mirror : Mirrors s.disk.tree s.data)
    (unreserved : Unreserved s.disk.tree) (valid : validFilename f = true) (known : (s.data.lookup (key f)).isSome = true)
    (healthy : s.disk.Healthy 0) : ∃ s', updateMetadata now f m s = (.ok (), s') := by
  obtain ⟨m₀, found⟩ := Option.isSome_iff_exists.1 known
  have file := FileTree.content_eq_some.1 (mirror.found found).1
  rw [(valid_filename valid).1] at file
  have ne := physical_ne_nil valid
  refine updateMetadata_healthy now mirror valid healthy (by decide) ⟨fun q mem => ?_, ?_, ?_⟩
  · obtain ⟨rest, whole⟩ := (List.mem_inits _ _).1 mem
    have below : q ++ (rest ++ [(physical f).getLastD []]) = physical f := by
      rw [← List.append_assoc, whole, FileTree.dropLast_getLastD ne]
    rw [← below] at file
    rw [FileTree.content, s.disk.tree.prefix_dir file (by simp)]
    rfl
  · rw [file]
    simp
  · rw [unreserved _ (temporaryName_of_valid valid)]
    simp

end MetadataStore

end Dfs
