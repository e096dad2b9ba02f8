import Dfs.Metadata.Durable

/-!
# Which metadata files can be written

A write that fails may leave directories on the way and its temporary file behind. Where no
file call fails, a write fails only because something is in its way.
-/

namespace Dfs

open Lib

namespace MetadataStore

variable {s s' : MetadataStore} {t : FileTree} {d d' : Disk} {f : Bytes} {m : FileMetadata} {now : TimePoint}

/-- No file is on the way to `p`, and neither `p` nor its temporary file is a directory. -/
structure Writable (t : FileTree) (p : FilePath) : Prop where
  way : ∀ q ∈ p.dropLast.inits, t.content q = none
  file : t.kind p ≠ some .dir
  temporary : t.kind (PosixPath.appendSuffix p tmpExtension) ≠ some .dir

instance (t : FileTree) (p : FilePath) : Decidable (Writable t p) :=
  decidable_of_iff ((∀ q ∈ p.dropLast.inits, t.content q = none) ∧ t.kind p ≠ some .dir ∧
      t.kind (PosixPath.appendSuffix p tmpExtension) ≠ some .dir)
    ⟨fun ⟨way, file, temporary⟩ => ⟨way, file, temporary⟩, fun ⟨way, file, temporary⟩ => ⟨way, file, temporary⟩⟩

theorem length_temporary {p : FilePath} (ne : p ≠ []) : (PosixPath.appendSuffix p tmpExtension).length = p.length := by
  have positive := List.length_pos_iff.2 ne
  simp only [PosixPath.appendSuffix, List.length_append, List.length_dropLast, List.length_singleton]
  omega

/-- A shorter path is no temporary file of `p`. -/
theorem ne_temporary {p q : FilePath} (ne : p ≠ []) (under : q <+: p.dropLast) :
    q ≠ PosixPath.appendSuffix p tmpExtension := by
  rintro rfl
  have length := under.length_le
  have positive := List.length_pos_iff.2 ne
  rw [length_temporary ne, List.length_dropLast] at length
  omega

section Replace

variable {final : FilePath} {data : Bytes}

/-- A failing replacement concerns the temporary file only; a successful one found no directory
in its way. -/
theorem replaceFile_kind {r : Except MetadataStoreError Unit} (h : replaceFile final data d = (r, d')) :
    (∀ e, r = .error e → ∀ q, q ≠ PosixPath.appendSuffix final tmpExtension → d'.tree.kind q = d.tree.kind q) ∧
      (r = .ok () → d.tree.kind final ≠ some .dir ∧
        d.tree.kind (PosixPath.appendSuffix final tmpExtension) ≠ some .dir) := by
  unfold replaceFile at h
  dsimp only at h
  split at h
  · rename_i failed
    cases h
    exact ⟨fun _ _ q _ => by rw [(Disk.call_error failed).1], by simp⟩
  rename_i d₁ opened
  have first : ∀ q, q ≠ PosixPath.appendSuffix final tmpExtension → d₁.tree.kind q = d.tree.kind q :=
    fun q ne => FileTree.setFile_kind (Disk.call_ok opened).1 ne
  split at h
  · rename_i failed
    cases h
    exact ⟨fun _ _ q ne => (Disk.write_kind failed ne).trans (first q ne), by simp⟩
  rename_i d₂ wrote
  have second : ∀ q, q ≠ PosixPath.appendSuffix final tmpExtension → d₂.tree.kind q = d.tree.kind q :=
    fun q ne => (Disk.write_kind wrote ne).trans (first q ne)
  split at h
  · rename_i failed
    cases h
    exact ⟨fun _ _ q ne => by rw [(Disk.settle_tree failed).1, second q ne], by simp⟩
  rename_i d₃ flushed
  split at h
  · rename_i failed
    cases h
    exact ⟨fun _ _ q ne => by rw [(Disk.settle_tree failed).1, (Disk.settle_tree flushed).1, second q ne], by simp⟩
  rename_i d₄ closed
  have fourth : ∀ q, q ≠ PosixPath.appendSuffix final tmpExtension → d₄.tree.kind q = d.tree.kind q :=
    fun q ne => by rw [(Disk.settle_tree closed).1, (Disk.settle_tree flushed).1, second q ne]
  split at h
  · rename_i d₅ failed
    cases h
    refine ⟨fun _ _ q ne => ?_, by simp⟩
    rw [← fourth q ne, ← (Disk.call_error failed).1]
    rcases removed : d₅.remove (PosixPath.appendSuffix final tmpExtension) with ⟨r, d₆⟩
    cases r with
    | error e => rw [(Disk.call_error removed).1]
    | ok gone => exact FileTree.remove_kind (Disk.call_ok removed).1 ne
  · rename_i d₅ renamed
    cases h
    refine ⟨by simp, fun _ => ?_⟩
    have file : ∃ b, d₄.tree.content (PosixPath.appendSuffix final tmpExtension) = some b := by
      have empty : d₁.tree.content (PosixPath.appendSuffix final tmpExtension) = some [] := by
        rw [Disk.openTruncate_ok opened, if_pos rfl]
      exact ⟨_, by rw [(Disk.settle_tree closed).1, (Disk.settle_tree flushed).1, Disk.write_ok wrote empty]⟩
    obtain ⟨b, isFile⟩ := file
    obtain ⟨source, ok, found, -, onto, -⟩ := FileTree.rename_ok (temporary_ne final) (Disk.call_ok renamed).1
    constructor
    · rw [← fourth final (temporary_ne final).symm]
      refine onto fun dir => ?_
      rw [FileTree.content_eq_some.1 isFile, dir] at found
      cases found
    · have placed := (Disk.call_ok opened).1
      unfold FileTree.setFile at placed
      split at placed
      · rename_i placeable
        exact placeable.2.2.resolve_left (by simp)
      · cases placed

/-- With no failing call a replacement succeeds unless a directory is in its way. -/
theorem replaceFile_healthy (data : Bytes) {room : Nat} (healthy : d.Healthy room) (small : room < 2 ^ 64) (ne : final ≠ [])
    (parent : d.tree.kind final.dropLast = some .dir) (file : d.tree.kind final ≠ some .dir)
    (temporary : d.tree.kind (PosixPath.appendSuffix final tmpExtension) ≠ some .dir) :
    ∃ d', replaceFile final data d = (.ok (), d') ∧ d'.Healthy room := by
  have placeable : d.tree.Placeable (PosixPath.appendSuffix final tmpExtension) (.file []) :=
    ⟨PosixPath.appendSuffix_ne_nil _ _, by rwa [PosixPath.appendSuffix_dropLast], Or.inr temporary⟩
  have opened : d.openTruncate (PosixPath.appendSuffix final tmpExtension) = (.ok (), d.drawn.reach _) :=
    healthy.call small (dif_pos placeable)
  have empty := Disk.openTruncate_ok opened (PosixPath.appendSuffix final tmpExtension)
  rw [if_pos rfl] at empty
  obtain ⟨d₂, wrote, healthy₂⟩ := Disk.Healthy.write (d := d.drawn.reach (d.tree.place _ _ placeable))
    (p := PosixPath.appendSuffix final tmpExtension) healthy.drawn small (data.take (UInt32.ofNat data.length).toNat)
  have kind : ∀ q, q ≠ PosixPath.appendSuffix final tmpExtension → d₂.tree.kind q = d.tree.kind q := fun q away =>
    (Disk.write_kind wrote away).trans (FileTree.setFile_kind (Disk.call_ok opened).1 away)
  have source := Disk.write_ok wrote empty
  have movable : d₂.tree.Movable (PosixPath.appendSuffix final tmpExtension) final := by
    have length := length_temporary ne
    refine ⟨ne, ?_, fun pre => ?_, fun pre => ?_⟩
    · rw [kind _ (ne_temporary ne List.prefix_rfl), parent]
    · exact temporary_ne final (pre.eq_of_length length)
    · exact temporary_ne final (pre.eq_of_length length.symm).symm
  obtain ⟨t, done⟩ := FileTree.rename_file source movable (by rwa [kind _ (temporary_ne final).symm])
  have renamed : d₂.drawn.drawn.rename (PosixPath.appendSuffix final tmpExtension) final =
      (.ok (), d₂.drawn.drawn.drawn.reach t) := healthy₂.drawn.drawn.call small done
  refine ⟨d₂.drawn.drawn.drawn.reach t, ?_, healthy₂.drawn.drawn.drawn⟩
  unfold replaceFile
  dsimp only
  rw [opened]
  dsimp only
  rw [wrote]
  dsimp only
  rw [healthy₂.settle small]
  dsimp only
  rw [healthy₂.drawn.settle small]
  dsimp only
  rw [renamed]

end Replace

/-! ## Metadata files -/

theorem writeMetadataFile_error {e : MetadataStoreError} (h : writeMetadataFile f m d = (.error e, d')) (q : FilePath)
    (ne : q ≠ PosixPath.appendSuffix (physical f) tmpExtension) :
    d'.tree.kind q = d.tree.kind q ∨
      q <+: (physical f).dropLast ∧ d.tree.kind q = none ∧ d'.tree.kind q = some .dir := by
  unfold writeMetadataFile at h
  split at h
  · rename_i made
    cases h
    exact Disk.createDirectories_kind made q
  · rename_i made
    have same := (replaceFile_kind h).1 e rfl q ne
    rcases Disk.createDirectories_kind made q with same₁ | ⟨under, missing, dir⟩
    · exact Or.inl (same.trans same₁)
    · exact Or.inr ⟨under, missing, same.trans dir⟩

theorem writeMetadataFile_ok (h : writeMetadataFile f m d = (.ok (), d')) : Writable d.tree (physical f) := by
  unfold writeMetadataFile at h
  split at h
  · cases h
  rename_i d₁ made
  obtain ⟨file, temporary⟩ := (replaceFile_kind h).2 rfl
  have stays : ∀ q, d₁.tree.kind q ≠ some .dir → d.tree.kind q ≠ some .dir := by
    intro q notDir dir
    rcases Disk.createDirectories_kind made q with same | ⟨-, missing, -⟩
    · exact notDir (same.trans dir)
    · rw [missing] at dir
      cases dir
  exact ⟨Disk.createDirectories_ok made, stays _ file, stays _ temporary⟩

theorem writeMetadataFile_healthy {room : Nat} (healthy : d.Healthy room) (small : room < 2 ^ 64) (ne : physical f ≠ [])
    (writable : Writable d.tree (physical f)) :
    ∃ d', writeMetadataFile f m d = (.ok (), d') ∧ d'.Healthy room := by
  obtain ⟨d₁, made, healthy₁, parent⟩ := healthy.createDirectories small writable.way
  have stays : ∀ q, ¬ q <+: (physical f).dropLast → d.tree.kind q ≠ some .dir → d₁.tree.kind q ≠ some .dir := by
    intro q away notDir dir
    rcases Disk.createDirectories_kind made q with same | ⟨under, -, -⟩
    · exact notDir (same.symm.trans dir)
    · exact away under
  have positive := List.length_pos_iff.2 ne
  have own : ¬ physical f <+: (physical f).dropLast := fun under => by
    have length := under.length_le
    rw [List.length_dropLast] at length
    omega
  obtain ⟨d₂, replaced, healthy₂⟩ := replaceFile_healthy (encodeMetadata m) healthy₁ small ne parent
    (stays _ own writable.file) (stays _ (fun under => ne_temporary ne under rfl) writable.temporary)
  refine ⟨d₂, ?_, healthy₂⟩
  rw [writeMetadataFile, made]
  exact replaced

/-- An update that succeeds found nothing in its way. -/
theorem updateMetadata_ok (h : updateMetadata now f m s = (.ok (), s')) : Writable s.disk.tree (physical f) := by
  unfold updateMetadata at h
  split at h
  · cases h
  split at h
  · unfold addMetadata at h
    split at h
    · cases h
    split at h
    · cases h
    rename_i looked
    split at h
    · cases h
    dsimp only at h
    split at h
    · cases h
    · rename_i wrote
      rw [← (Disk.query_tree looked).1]
      exact writeMetadataFile_ok wrote
  · dsimp only at h
    split at h
    · cases h
    · rename_i wrote
      exact writeMetadataFile_ok wrote

/-- With no failing call a file is added unless something is in its way. -/
theorem addMetadata_healthy (now : TimePoint) {room : Nat} (valid : validFilename f = true) (healthy : s.disk.Healthy room)
    (small : room < 2 ^ 64) (absent : s.disk.tree.kind (physical f) = none) (writable : Writable s.disk.tree (physical f)) :
    ∃ s', addMetadata now f m s = (.ok (), s') ∧ (s'.data.lookup (key f)).isSome = true := by
  obtain ⟨d, wrote, -⟩ := writeMetadataFile_healthy (d := s.disk.drawn)
    (m := { m with path := f, createdAt := now, modifiedAt := now }) healthy.drawn small (physical_ne_nil valid) writable
  have look := healthy.query small fun t => .ok (t.kind (physical f)).isSome
  unfold addMetadata
  rw [if_neg (by simp [valid]), Disk.pathExists, look, absent]
  dsimp only [Option.isSome_none]
  rw [if_neg (by simp), wrote]
  refine ⟨_, rfl, ?_⟩
  dsimp only
  split
  · assumption
  · rw [Assoc.lookup_insert_ite, if_pos rfl]
    rfl

/-- With no failing call an update succeeds unless something is in its way. -/
theorem updateMetadata_healthy (now : TimePoint) {room : Nat} (mirror : Mirrors s.disk.tree s.data) (valid : validFilename f = true)
    (healthy : s.disk.Healthy room) (small : room < 2 ^ 64) (writable : Writable s.disk.tree (physical f)) :
    ∃ s', updateMetadata now f m s = (.ok (), s') := by
  have ne := physical_ne_nil valid
  unfold updateMetadata
  rw [if_neg (by simp [valid])]
  cases found : s.data.lookup (key f) with
  | some existing =>
      obtain ⟨d, wrote, -⟩ := writeMetadataFile_healthy
        (m := { m with path := f, createdAt := existing.createdAt, modifiedAt := now }) healthy small ne writable
      dsimp only
      rw [wrote]
      exact ⟨_, rfl⟩
  | none =>
      obtain ⟨components, -, plain⟩ := valid_filename valid
      have absent : s.disk.tree.kind (physical f) = none := by
        have noFile := (mirror.missing (components ▸ plain)).1 found
        rw [components, FileTree.content] at noFile
        cases kind : s.disk.tree.kind (physical f) with
        | none => rfl
        | some v =>
            rw [kind] at noFile
            cases v with
            | dir => exact absurd kind writable.file
            | file b => cases noFile
      obtain ⟨s', added, -⟩ := addMetadata_healthy now valid healthy small absent writable
      exact ⟨s', added⟩

end MetadataStore

end Dfs
