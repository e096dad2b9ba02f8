import Dfs.Metadata.MetadataStore
import Mathlib.Logic.Function.Basic

/-!
# The metadata store and its directory

`Mirrors` says that the files of the directory are the encoded records of `data`, files with
the extension `.tmp` left out. A start on such a directory loads `data` back, with its times
cut to milliseconds; every operation keeps the relation, and every tree passed on the way
shows the files from before or from after the operation.
-/

namespace Dfs

open Lib

/-! ## Metadata files -/

namespace TimePoint

theorem milliseconds_toInt (t : TimePoint) : t.milliseconds.toInt = t.nanoseconds.toInt.tdiv 1000000 := by
  rw [milliseconds, Int64.toInt_div_of_ne_right _ _ (by decide)]
  rfl

/-- The milliseconds of a time point are never more than it is. -/
theorem milliseconds_bounds (t : TimePoint) : -2 ^ 63 ≤ t.milliseconds.toInt * 1000000 ∧ t.milliseconds.toInt * 1000000 < 2 ^ 63 := by
  have lo := t.nanoseconds.le_toInt
  have hi := t.nanoseconds.toInt_lt
  have short : ∀ a : Int, a.tdiv 1000000 * 1000000 ≤ max a 0 ∧ min a 0 ≤ a.tdiv 1000000 * 1000000 := by
    intro a
    rcases Int.le_total 0 a with pos | neg
    · rw [Int.tdiv_eq_ediv_of_nonneg pos]
      omega
    · rw [show a = -(-a) by omega, Int.neg_tdiv, Int.tdiv_eq_ediv_of_nonneg (by omega)]
      omega
  have bound := short t.nanoseconds.toInt
  rw [milliseconds_toInt]
  omega

/-- Cut towards the epoch. -/
theorem ofMilliseconds_toInt (t : TimePoint) :
    (ofMilliseconds t.milliseconds).nanoseconds.toInt = t.nanoseconds.toInt.tdiv 1000000 * 1000000 := by
  obtain ⟨lower, upper⟩ := t.milliseconds_bounds
  have million : (1000000 : Int64).toInt = 1000000 := rfl
  rw [ofMilliseconds, Int64.toInt_mul, million, ← milliseconds_toInt]
  apply Int.bmod_eq_of_le <;> omega

/-- Cutting to milliseconds a second time changes nothing. -/
theorem milliseconds_ofMilliseconds (t : TimePoint) :
    (ofMilliseconds t.milliseconds).milliseconds = t.milliseconds := by
  apply Int64.toInt_inj.1
  rw [milliseconds_toInt, ofMilliseconds_toInt, milliseconds_toInt]
  exact Int.mul_tdiv_cancel _ (by decide)

/-- The time point with the milliseconds only. -/
def truncated (t : TimePoint) : TimePoint := ofMilliseconds t.milliseconds

end TimePoint

namespace FileMetadata

/-- What survives a metadata file: strings without NUL bytes, of a size that a frame can carry. -/
structure Clean (m : FileMetadata) : Prop where
  objId : NulFree m.objId
  first : NulFree m.replicaLocations.1
  second : NulFree m.replicaLocations.2
  small : m.objId.length + m.replicaLocations.1.length + m.replicaLocations.2.length < 2 ^ 31

instance (m : FileMetadata) : Decidable m.Clean :=
  decidable_of_iff (NulFree m.objId ∧ NulFree m.replicaLocations.1 ∧ NulFree m.replicaLocations.2 ∧
      m.objId.length + m.replicaLocations.1.length + m.replicaLocations.2.length < 2 ^ 31)
    ⟨fun ⟨a, b, c, d⟩ => ⟨a, b, c, d⟩, fun ⟨a, b, c, d⟩ => ⟨a, b, c, d⟩⟩

/-- The record that a start reads back at `path`. -/
def reloaded (m : FileMetadata) (path : FilePath) : FileMetadata :=
  { m with path := PosixPath.join path, createdAt := m.createdAt.truncated, modifiedAt := m.modifiedAt.truncated }

end FileMetadata

namespace MetadataStore

variable {m : FileMetadata}

theorem encodeMetadata_reloaded (m : FileMetadata) (path : FilePath) :
    encodeMetadata (m.reloaded path) = encodeMetadata m := by
  simp only [encodeMetadata, FileMetadata.reloaded, TimePoint.truncated]
  simp only [write, TimePoint.milliseconds_ofMilliseconds]

theorem encodeMetadata_length (m : FileMetadata) :
    (encodeMetadata m).length =
      29 + (m.objId.length + m.replicaLocations.1.length + m.replicaLocations.2.length) := by
  simp [encodeMetadata, write]
  omega

theorem readRecord_encodeMetadata (objId : NulFree m.objId) (first : NulFree m.replicaLocations.1)
    (second : NulFree m.replicaLocations.2) (path : Bytes) :
    ∃ reader : BinaryReader, readRecord path (encodeMetadata m) = .ok ((metadataMagic, metadataVersion,
      { m with path, createdAt := m.createdAt.truncated, modifiedAt := m.modifiedAt.truncated }), reader) ∧
      reader.Holds [] := by
  obtain ⟨r1, read1, h1⟩ := LawfulSerial.read_write metadataMagic _ _ trivial
    (BinaryReader.holds_start (encodeMetadata m))
  obtain ⟨r2, read2, h2⟩ := LawfulSerial.read_write metadataVersion r1 _ trivial h1
  obtain ⟨r3, read3, h3⟩ := LawfulSerial.read_write m.size r2 _ trivial h2
  obtain ⟨r4, read4, h4⟩ := LawfulSerial.read_write m.objId r3 _ objId h3
  obtain ⟨r5, read5, h5⟩ := LawfulSerial.read_write m.replicaLocations.1 r4 _ first h4
  obtain ⟨r6, read6, h6⟩ := LawfulSerial.read_write m.replicaLocations.2 r5 _ second h5
  obtain ⟨r7, read7, h7⟩ := BinaryReader.read_timePoint h6
  rw [← List.append_nil (write m.modifiedAt)] at h7
  obtain ⟨r8, read8, h8⟩ := BinaryReader.read_timePoint h7
  refine ⟨r8, ?_, h8⟩
  simp only [readRecord, bind, Except.bind, read1, read2, read3, read4, read5, read6, read7, read8]
  rfl

theorem decodeMetadata_encodeMetadata (objId : NulFree m.objId) (first : NulFree m.replicaLocations.1)
    (second : NulFree m.replicaLocations.2) (path : FilePath) :
    decodeMetadata (PosixPath.join path) (encodeMetadata m) = .ok (m.reloaded path) := by
  obtain ⟨reader, read, holds⟩ := readRecord_encodeMetadata objId first second (PosixPath.join path)
  simp [decodeMetadata, read, holds.atEnd, FileMetadata.reloaded]

/-! ## Loading a mirror -/

/-- The file at `k` that a start reads. -/
def visible (t : FileTree) (k : FilePath) : Option Bytes :=
  if PosixPath.extensionOf (k.getLastD []) = tmpExtension then none else t.content k

/-- The files of `t` are the records of `data`. -/
structure Mirrors (t : FileTree) (data : Assoc FilePath FileMetadata) : Prop where
  files : ∀ k, visible t k = (data.lookup k).map encodeMetadata
  clean : ∀ k m, data.lookup k = some m → m.Clean

variable {s s' : MetadataStore} {t : FileTree} {data : Assoc FilePath FileMetadata} {k : FilePath}

theorem Mirrors.found (mirror : Mirrors t data) (found : data.lookup k = some m) :
    t.content k = some (encodeMetadata m) ∧ PosixPath.extensionOf (k.getLastD []) ≠ tmpExtension := by
  have file := mirror.files k
  rw [found, visible] at file
  split at file
  · cases file
  · rename_i plain
    exact ⟨file, plain⟩

theorem Mirrors.missing (mirror : Mirrors t data) (plain : PosixPath.extensionOf (k.getLastD []) ≠ tmpExtension) :
    data.lookup k = none ↔ t.content k = none := by
  have file := mirror.files k
  rw [visible, if_neg plain] at file
  rw [file, Option.map_eq_none_iff]

theorem loadFile_found (still : s.disk.outcomes = []) (clean : m.Clean)
    (found : s.disk.tree.content k = some (encodeMetadata m)) (new : s.data.lookup k = none) :
    loadFile k s = (.ok (), { s with data := s.data.insert k (m.reloaded k) }) := by
  have read : FileTree.readFile k s.disk.tree = .ok (encodeMetadata m) := by
    rw [FileTree.readFile, FileTree.content_eq_some.1 found]
  simp [loadFile, readMetadataFile, Disk.readFile, Disk.settle, Disk.query_still still, read,
    decodeMetadata_encodeMetadata clean.objId clean.first clean.second, new]

/-- One entry of the directory, with nothing about to fail. -/
theorem loadEach_cons {p : FilePath} {rest : List FilePath} (still : s.disk.outcomes = []) (still' : s'.disk.outcomes = [])
    (here : (if (s.disk.tree.content p).isSome && PosixPath.extensionOf (p.getLastD []) ≠ tmpExtension then
      loadFile p s else (.ok (), s)) = (.ok (), s')) : loadEach (p :: rest) s = loadEach rest s' := by
  have looked : s.disk.isRegularFile p = (.ok (s.disk.tree.content p).isSome, s.disk) := Disk.query_still still _
  have stepped : s'.disk.settle = (.ok (), s'.disk) := Disk.query_still still' _
  rw [loadEach, looked]
  dsimp only
  rw [here]
  dsimp only
  rw [stepped]

/-- The loop of a start loads exactly the records mirrored at the paths still to come. -/
theorem loadEach_mirrors (mirror : Mirrors t data) {ps : List FilePath} (distinct : ps.Nodup)
    (still : s.disk.outcomes = []) (tree : s.disk.tree = t) (new : ∀ p ∈ ps, s.data.lookup p = none) :
    ∃ s', loadEach ps s = (.ok (), s') ∧ s'.disk = s.disk ∧
      ∀ k, s'.data.lookup k = if k ∈ ps then (data.lookup k).map (·.reloaded k) else s.data.lookup k := by
  induction ps generalizing s with
  | nil => exact ⟨s, rfl, rfl, by simp⟩
  | cons p rest ih =>
      obtain ⟨apart, distinct'⟩ := List.nodup_cons.1 distinct
      have fresh : ∀ q ∈ rest, q ≠ p := fun q mem e => apart (e ▸ mem)
      cases found : data.lookup p with
      | some m =>
          obtain ⟨content, plain⟩ := mirror.found found
          have loaded := loadFile_found (s := s) still (mirror.clean p m found) (by rw [tree, content])
            (new p List.mem_cons_self)
          obtain ⟨s', run, disk, lookup⟩ := ih (s := { s with data := s.data.insert p (m.reloaded p) }) distinct'
            still tree fun q mem => by
              rw [Assoc.lookup_insert_ite, if_neg (fresh q mem), new q (List.mem_cons_of_mem _ mem)]
          refine ⟨s', ?_, disk, fun k => ?_⟩
          · rw [@loadEach_cons s { s with data := s.data.insert p (m.reloaded p) } p rest still still, run]
            rw [tree, content, if_pos (by simpa using plain), loaded]
          · rw [lookup, Assoc.lookup_insert_ite]
            by_cases here : k = p
            · subst here
              simp [apart, found]
            · simp [here]
      | none =>
          have skipped : (s.disk.tree.content p).isSome = false ∨
              PosixPath.extensionOf (p.getLastD []) = tmpExtension := by
            by_cases plain : PosixPath.extensionOf (p.getLastD []) = tmpExtension
            · exact Or.inr plain
            · exact Or.inl (by rw [tree, (mirror.missing plain).1 found]; rfl)
          obtain ⟨s', run, disk, lookup⟩ := ih distinct' still tree fun q mem => new q (List.mem_cons_of_mem _ mem)
          refine ⟨s', ?_, disk, fun k => ?_⟩
          · rw [loadEach_cons still still, run]
            rcases skipped with file | tmp
            · rw [file, if_neg (by simp)]
            · rw [tmp, if_neg (by simp)]
          · rw [lookup]
            by_cases here : k = p
            · subst here
              simp [apart, found, new k List.mem_cons_self]
            · simp [here]

/-- A start on a mirror of `data` loads `data`, with its times cut to milliseconds. -/
theorem load_mirrors (still : s.disk.outcomes = []) (mirror : Mirrors s.disk.tree data) :
    ∃ s', s.loadFromStorage = (.ok (), s') ∧ s'.disk = s.disk ∧
      ∀ k, s'.data.lookup k = (data.lookup k).map (·.reloaded k) := by
  obtain ⟨s', run, disk, lookup⟩ := loadEach_mirrors (s := { s with data := ∅ }) mirror
    s.disk.tree.nodes.keys_nodup still rfl (by simp)
  refine ⟨s', ?_, disk, fun k => ?_⟩
  · simp only [loadFromStorage, Disk.settle, Disk.query_still still]
    exact run
  · rw [lookup]
    split
    · rfl
    · rename_i unlisted
      have none := FileTree.content_of_not_listed unlisted
      cases found : data.lookup k with
      | none => simp
      | some m => rw [(mirror.found found).1] at none; cases none

/-! ## A start that does not fail -/

/-- The store with no failing calls ahead. -/
def still (s : MetadataStore) : MetadataStore := { s with disk := s.disk.withOutcomes [] }

theorem readMetadataFile_still {d d' : Disk} (h : readMetadataFile k d = (.ok m, d')) :
    readMetadataFile k (d.withOutcomes []) = (.ok m, d'.withOutcomes []) := by
  unfold readMetadataFile at h
  split at h
  · cases h
  rename_i read
  split at h
  · cases h
  rename_i told
  split at h
  · cases h
  rename_i done
  obtain ⟨decoded, rfl⟩ := Prod.mk.inj h
  rw [readMetadataFile, Disk.readFile, Disk.query_withOutcomes read]
  dsimp only
  rw [Disk.settle, Disk.query_withOutcomes told]
  dsimp only
  rw [Disk.settle, Disk.query_withOutcomes done]
  exact Prod.ext decoded rfl

theorem loadFile_still (h : loadFile k s = (.ok (), s')) : loadFile k s.still = (.ok (), s'.still) := by
  unfold loadFile at h
  split at h
  · cases h
  rename_i read
  split at h
  · cases h
  rename_i new
  cases h
  rw [loadFile, still, readMetadataFile_still read]
  dsimp only
  rw [if_neg new]
  rfl

theorem loadEach_still {ps : List FilePath} (h : loadEach ps s = (.ok (), s')) :
    loadEach ps s.still = (.ok (), s'.still) := by
  induction ps generalizing s with
  | nil =>
      cases h
      rfl
  | cons p rest ih =>
      unfold loadEach at h
      split at h
      · cases h
      rename_i isRegular d₁ looked
      split at h
      · cases h
      rename_i s₁ loaded
      split at h
      · cases h
      rename_i d₂ stepped
      have here : (if isRegular && PosixPath.extensionOf (p.getLastD []) ≠ tmpExtension then
          loadFile p { s.still with disk := d₁.withOutcomes [] } else (.ok (), { s.still with disk := d₁.withOutcomes [] })) =
          (.ok (), s₁.still) := by
        split at loaded
        · rename_i regular
          rw [if_pos regular]
          exact loadFile_still loaded
        · rename_i other
          cases loaded
          rw [if_neg other]
          rfl
      have look : s.still.disk.isRegularFile p = (.ok isRegular, d₁.withOutcomes []) := Disk.query_withOutcomes looked
      have settled : s₁.still.disk.settle = (.ok (), d₂.withOutcomes []) := Disk.query_withOutcomes stepped
      rw [loadEach, look]
      dsimp only
      rw [here]
      dsimp only
      rw [settled]
      exact ih h

theorem loadFromStorage_still (h : s.loadFromStorage = (.ok (), s')) : s.still.loadFromStorage = (.ok (), s'.still) := by
  unfold loadFromStorage at h
  split at h
  · cases h
  rename_i d₁ opened
  have settled : s.still.disk.settle = (.ok (), d₁.withOutcomes []) := Disk.query_withOutcomes opened
  rw [loadFromStorage, settled]
  exact loadEach_still h

/-- Whatever has been loaded without an error is what the directory mirrors. -/
theorem load_ok (mirror : Mirrors s.disk.tree data) (h : s.loadFromStorage = (.ok (), s')) :
    s'.disk.tree = s.disk.tree ∧ ∀ k, s'.data.lookup k = (data.lookup k).map (·.reloaded k) := by
  obtain ⟨s₁, loaded, disk, lookup⟩ := load_mirrors (s := s.still) rfl mirror
  rw [loadFromStorage_still h] at loaded
  cases loaded
  have tree : s'.still.disk.tree = s.still.disk.tree := congrArg Disk.tree disk
  exact ⟨tree, lookup⟩

/-- What is loaded from a mirror is mirrored by it. -/
theorem Mirrors.reloaded {data' : Assoc FilePath FileMetadata} (mirror : Mirrors t data)
    (lookup : ∀ k, data'.lookup k = (data.lookup k).map (·.reloaded k)) : Mirrors t data' := by
  refine ⟨fun k => ?_, fun k m found => ?_⟩
  · rw [lookup, mirror.files, Option.map_map]
    exact congrArg (Option.map · _) (funext fun m => (encodeMetadata_reloaded m k).symm)
  · rw [lookup, Option.map_eq_some_iff] at found
    obtain ⟨m₀, found, rfl⟩ := found
    have clean := mirror.clean k m₀ found
    exact ⟨clean.objId, clean.first, clean.second, clean.small⟩

end MetadataStore

end Dfs
