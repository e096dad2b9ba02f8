import Dfs.Common.Canonical
import Dfs.Metadata.Durable
import Dfs.Metadata.StoreData

/-!
# The format of the metadata files

A record that is written is read back with its times cut to milliseconds, and a file that is read is what its record is
written as, if the clock can count its times and 32 bits its bytes.
-/

namespace Dfs

open Lib

/-- Fields other than flags are written as they were. -/
theorem Piece.Normal.same {piece : Piece} {part part' : Bytes} (normal : piece.Normal part part') (plain : piece ≠ .flag) :
    part' = part := by
  cases normal with
  | word part => rfl
  | text clean => rfl
  | flag byte => exact absurd rfl plain

namespace MetadataStore

variable {m : FileMetadata} {path bytes : Bytes} {k : FilePath} {d d' : Disk}

/-! ## What is written and read -/

/-- The contents of the file of a record. `write_metadata_file` counts its bytes in 32 bits. -/
def fileBytes (m : FileMetadata) : Bytes := (encodeMetadata m).take (UInt32.ofNat (encodeMetadata m).length).toNat

theorem fileBytes_eq (small : (encodeMetadata m).length < 2 ^ 32) : fileBytes m = encodeMetadata m := by
  rw [fileBytes, UInt32.toNat_ofNat_of_lt' small, List.take_length]

theorem fileBytes_length (m : FileMetadata) : (fileBytes m).length < 2 ^ 32 := by
  have bound := (UInt32.ofNat (encodeMetadata m).length).toNat_lt
  rw [fileBytes, List.length_take]
  omega

theorem writeMetadataFile_content {f : Bytes} (h : writeMetadataFile f m d = (.ok (), d')) :
    d'.tree.content (physical f) = some (fileBytes m) := by
  unfold writeMetadataFile at h
  split at h
  · cases h
  rename_i d₀ made
  unfold replaceFile at h
  dsimp only at h
  split at h
  · cases h
  rename_i d₁ opened
  have empty : d₁.tree.content (PosixPath.appendSuffix (physical f) tmpExtension) = some [] := by
    rw [Disk.openTruncate_ok opened, if_pos rfl]
  split at h
  · cases h
  rename_i d₂ wrote
  have full := Disk.write_ok wrote empty
  split at h
  · cases h
  rename_i d₃ flushed
  split at h
  · cases h
  rename_i d₄ closed
  have source : d₄.tree.content (PosixPath.appendSuffix (physical f) tmpExtension) = some (fileBytes m) := by
    rw [(Disk.settle_tree closed).1, (Disk.settle_tree flushed).1, full, List.nil_append]
    rfl
  split at h
  · cases h
  · rename_i d₅ renamed
    cases h
    rw [FileTree.rename_file_content (temporary_ne (physical f)) source (Disk.call_ok renamed).1, if_pos rfl]

/-- Record and file of an update are the same. -/
theorem updateMetadata_content {now : TimePoint} {f : Bytes} {s s' : MetadataStore} (h : updateMetadata now f m s = (.ok (), s')) :
    ∃ m', m.SameObject m' ∧ s'.data = s.data.insert (key f) m' ∧ s'.disk.tree.content (physical f) = some (fileBytes m') := by
  unfold updateMetadata at h
  split at h
  · cases h
  rename_i valid
  split at h
  · rename_i missing
    unfold addMetadata at h
    rw [if_neg valid] at h
    split at h
    · cases h
    split at h
    · cases h
    dsimp only at h
    split at h
    · cases h
    · rename_i wrote
      cases h
      rw [missing]
      refine ⟨_, ?_, rfl, writeMetadataFile_content wrote⟩
      exact ⟨rfl, rfl, rfl⟩
  · dsimp only at h
    split at h
    · cases h
    · rename_i wrote
      cases h
      refine ⟨_, ?_, rfl, writeMetadataFile_content wrote⟩
      exact ⟨rfl, rfl, rfl⟩

theorem readMetadataFile_result {r : Except MetadataStoreError FileMetadata} (there : d.tree.content k = some bytes)
    (h : readMetadataFile k d = (r, d')) : r = .error .readFailure ∨ r = decodeMetadata (PosixPath.join k) bytes := by
  unfold readMetadataFile at h
  split at h
  · cases h
    exact .inl rfl
  rename_i bytes' d₁ read
  have same : bytes' = bytes := by
    have here := Disk.query_ok read
    rw [FileTree.readFile, FileTree.content_eq_some.1 there] at here
    cases here
    rfl
  split at h
  · cases h
    exact .inl rfl
  split at h
  · cases h
    exact .inl rfl
  · cases h
    exact .inr (same ▸ rfl)

/-! ## A file that is accepted -/

theorem readRecord_some {magic version : UInt8} {reader : BinaryReader} (read : readRecord path bytes = .ok ((magic, version, m), reader)) :
    ∃ (created modified : Int64) (rest : Bytes), m.path = path ∧ m.createdAt = .ofMilliseconds created ∧
      m.modifiedAt = .ofMilliseconds modified ∧ reader.Holds rest ∧
      bytes = write magic ++ (write version ++ (write m.size ++ (write m.objId ++ (write m.replicaLocations.1 ++
        (write m.replicaLocations.2 ++ (write created ++ (write modified ++ rest))))))) := by
  unfold readRecord at read
  obtain ⟨magic, r, part1, rest, whole, n1, h, read⟩ := BinaryReader.bind_some (BinaryReader.holds_start _) read
  obtain ⟨version, r, part2, rest, rfl, n2, h, read⟩ := BinaryReader.bind_some h read
  obtain ⟨size, r, part3, rest, rfl, n3, h, read⟩ := BinaryReader.bind_some h read
  obtain ⟨objId, r, part4, rest, rfl, n4, h, read⟩ := BinaryReader.bind_some h read
  obtain ⟨rep1, r, part5, rest, rfl, n5, h, read⟩ := BinaryReader.bind_some h read
  obtain ⟨rep2, r, part6, rest, rfl, n6, h, read⟩ := BinaryReader.bind_some h read
  obtain ⟨created, r, rest, rfl, h, read⟩ := ClientKind.time_some h read
  obtain ⟨modified, r, rest, rfl, h, read⟩ := ClientKind.time_some h read
  cases read
  refine ⟨created, modified, rest, rfl, rfl, rfl, h, ?_⟩
  rw [whole, n1.same (by decide), n2.same (by decide), n3.same (by decide), n4.same (by decide), n5.same (by decide),
    n6.same (by decide)]

theorem decodeMetadata_some (decoded : decodeMetadata path bytes = .ok m) :
    ∃ created modified : Int64, m.path = path ∧ m.createdAt = .ofMilliseconds created ∧ m.modifiedAt = .ofMilliseconds modified ∧
      bytes = write metadataMagic ++ (write metadataVersion ++ (write m.size ++ (write m.objId ++
        (write m.replicaLocations.1 ++ (write m.replicaLocations.2 ++ (write created ++ write modified)))))) := by
  unfold decodeMetadata at decoded
  split at decoded
  · cases decoded
  rename_i magic version metadata reader read
  split at decoded
  · cases decoded
  rename_i right
  split at decoded
  · cases decoded
  rename_i current
  split at decoded
  · cases decoded
  rename_i ends
  cases decoded
  obtain ⟨created, modified, rest, name, creation, modification, holds, whole⟩ := readRecord_some read
  have none : rest = [] := by
    by_contra more
    have length := holds.length
    have inside := holds.1
    have some := List.length_pos_iff.2 more
    simp only [BinaryReader.atEnd, Bool.not_eq_false, decide_eq_true_eq] at ends
    omega
  rw [none, List.append_nil, not_not.1 right, not_not.1 current] at whole
  exact ⟨created, modified, name, creation, modification, whole⟩

theorem wireTimes_file {created modified : Int64} {front : Bytes} (size : UInt64) (objId rep1 rep2 : Bytes) :
    ClientKind.wireTimes (front ++ (write size ++ (write objId ++ (write rep1 ++ (write rep2 ++ (write created ++ write modified)))))) =
      (created, modified) := by
  simp only [← List.append_assoc]
  rw [List.append_assoc _ (write created)]
  exact ClientKind.wireTimes_eq

/-- The fields of a metadata file by what delimits them. -/
def recordFields : List Field := [.word 1, .word 1, .word 8, .text, .text, .text, .word 8, .word 8]

/-- The fields, the magic byte and the version are those of a metadata file. -/
def Formed (bytes : Bytes) : Prop := fits false recordFields bytes = true ∧ bytes.take 2 = [metadataMagic, metadataVersion]

theorem readRecord_isOk (path bytes : Bytes) :
    (readRecord path bytes >>= fun p => p.2.assertAtEnd >>= fun _ => (.ok p.1 : Except Exn _)).isOk = fits false recordFields bytes := by
  simp only [readRecord, bind_assoc]
  refine read_isOk (BinaryReader.holds_start _) fun magic r rest h => ?_
  refine read_isOk h fun version r rest h => ?_
  refine read_isOk h fun size r rest h => ?_
  refine read_isOk h fun objId r rest h => ?_
  refine read_isOk h fun rep1 r rest h => ?_
  refine read_isOk h fun rep2 r rest h => ?_
  refine read_isOk h fun createdAt r rest h => ?_
  exact read_isOk h fun modifiedAt r rest h => atEnd_isOk h

theorem formed_iff : Formed bytes ↔ ∃ m, decodeMetadata path bytes = .ok m := by
  have isOk := readRecord_isOk path bytes
  constructor
  · rintro ⟨fit, start⟩
    rw [fit] at isOk
    cases read : readRecord path bytes with
    | error e =>
        rw [read] at isOk
        cases isOk
    | ok result =>
        obtain ⟨⟨magic, version, m⟩, reader⟩ := result
        rw [read] at isOk
        obtain ⟨created, modified, rest, -, -, -, -, whole⟩ := readRecord_some read
        rw [whole, write_byte, write_byte] at start
        have ends : reader.atEnd = true := by
          by_contra more
          rw [Bool.not_eq_true] at more
          simp only [bind, Except.bind, BinaryReader.assertAtEnd, more, Bool.false_eq_true, if_false] at isOk
          cases isOk
        cases start
        exact ⟨m, by simp [decodeMetadata, read, ends]⟩
  · rintro ⟨m, decoded⟩
    obtain ⟨created, modified, -, -, -, whole⟩ := decodeMetadata_some decoded
    refine ⟨?_, by rw [whole, write_byte, write_byte]; rfl⟩
    rw [← isOk]
    unfold decodeMetadata at decoded
    split at decoded
    · cases decoded
    rename_i magic version metadata reader read
    split at decoded
    · cases decoded
    split at decoded
    · cases decoded
    split at decoded
    · cases decoded
    rename_i ends
    rw [Bool.not_eq_false] at ends
    rw [read]
    simp only [bind, Except.bind, BinaryReader.assertAtEnd, ends, if_true]
    rfl

/-! ## What is thrown -/

/-- The exceptions for which `read_metadata_file` has a handler. -/
def Caught (e : Exn) : Prop := e = .outOfRange ∨ e = .runtimeError

theorem bind_caught {α β : Type} {x : Except Exn α} {f : α → Except Exn β} {e : Exn} (first : ∀ e, x = .error e → Caught e)
    (next : ∀ a e, f a = .error e → Caught e) (failed : (x >>= f) = .error e) : Caught e := by
  cases made : x with
  | error e' =>
      rw [made] at failed
      cases failed
      exact first e made
  | ok a =>
      rw [made] at failed
      exact next a e failed

theorem readIntegral_caught {r : BinaryReader} {width : Nat} {e : Exn} (failed : r.readIntegral width = .error e) : Caught e := by
  unfold BinaryReader.readIntegral at failed
  split at failed <;> cases failed
  exact .inl rfl

theorem word_caught {α : Type} {r : BinaryReader} {width : Nat} {f : Nat → α} {e : Exn}
    (failed : (do let (v, r) ← r.readIntegral width; return (f v, r) : Except Exn (α × BinaryReader)) = .error e) : Caught e :=
  bind_caught (fun _ => readIntegral_caught) (fun _ _ done => by cases done) failed

theorem text_caught {r : BinaryReader} {e : Exn} (failed : r.read Bytes = .error e) : Caught e := by
  change r.readString = .error e at failed
  unfold BinaryReader.readString at failed
  dsimp only at failed
  split at failed <;> cases failed
  exact .inr rfl

theorem time_caught {r : BinaryReader} {e : Exn} (failed : r.read TimePoint = .error e) : Caught e := by
  have count : ∀ e, r.read Int64 = .error e → Caught e := fun _ failed => @word_caught _ r 8 (fun n => (UInt64.ofNat n).toInt64) _ failed
  exact bind_caught count (fun _ _ done => by cases done) failed

theorem readRecord_caught {e : Exn} (failed : readRecord path bytes = .error e) : Caught e := by
  unfold readRecord at failed
  refine bind_caught (fun _ failed => word_caught failed) (fun p _ failed => ?_) failed
  refine bind_caught (fun _ failed => word_caught failed) (fun p _ failed => ?_) failed
  refine bind_caught (fun _ failed => word_caught failed) (fun p _ failed => ?_) failed
  refine bind_caught (fun _ => text_caught) (fun p _ failed => ?_) failed
  refine bind_caught (fun _ => text_caught) (fun p _ failed => ?_) failed
  refine bind_caught (fun _ => text_caught) (fun p _ failed => ?_) failed
  refine bind_caught (fun _ => time_caught) (fun p _ failed => ?_) failed
  exact bind_caught (fun _ => time_caught) (fun p _ done => by cases done) failed

/-! ## When the format is canonical -/

/-- Read back, the record is the same but for its times, which are cut towards the epoch, and its file is the same. -/
structure Survives (k : FilePath) (m : FileMetadata) : Prop where
  read : decodeMetadata (PosixPath.join k) (fileBytes m) = .ok (m.reloaded k)
  created : (m.reloaded k).createdAt.nanoseconds.toInt = m.createdAt.nanoseconds.toInt.tdiv 1000000 * 1000000
  modified : (m.reloaded k).modifiedAt.nanoseconds.toInt = m.modifiedAt.nanoseconds.toInt.tdiv 1000000 * 1000000
  times : InRange m.createdAt.milliseconds ∧ InRange m.modifiedAt.milliseconds
  again : fileBytes (m.reloaded k) = fileBytes m

/-- The contents of a file are refused, or no time overflows and the record is written as they are. -/
structure Reproduced (path bytes : Bytes) : Prop where
  caught : ∀ e, readRecord path bytes = .error e → Caught e
  times : ∀ m, decodeMetadata path bytes = .ok m →
    InRange (ClientKind.wireTimes bytes).1 ∧ InRange (ClientKind.wireTimes bytes).2
  same : ∀ m, decodeMetadata path bytes = .ok m → fileBytes m = bytes

/-- The clock counts no more milliseconds than this, before and after the epoch. -/
def maxMilliseconds : Nat := 9223372036854

theorem inRange_iff {ms : Int64} : InRange ms ↔ ms.toInt.natAbs ≤ maxMilliseconds := by
  unfold InRange maxMilliseconds
  omega

theorem decodeMetadata_length (decoded : decodeMetadata path bytes = .ok m) : bytes.length = (encodeMetadata m).length := by
  obtain ⟨created, modified, -, -, -, whole⟩ := decodeMetadata_some decoded
  have width : ∀ ms : Int64, (write ms).length = 8 := fun ms => length_toBytes 8 _
  have time : ∀ t : TimePoint, (write t).length = 8 := fun t => width t.milliseconds
  rw [whole, encodeMetadata]
  simp only [List.length_append, width, time]

theorem survives_iff (objId : NulFree m.objId) (first : NulFree m.replicaLocations.1) (second : NulFree m.replicaLocations.2)
    (k : FilePath) : Survives k m ↔ (encodeMetadata m).length < 2 ^ 32 := by
  constructor
  · intro survives
    have length := decodeMetadata_length survives.read
    have short := fileBytes_length m
    rwa [length, encodeMetadata_reloaded] at short
  · intro small
    refine ⟨?_, TimePoint.ofMilliseconds_toInt _, TimePoint.ofMilliseconds_toInt _,
      ⟨TimePoint.milliseconds_bounds _, TimePoint.milliseconds_bounds _⟩, by rw [fileBytes, encodeMetadata_reloaded, fileBytes]⟩
    rw [fileBytes_eq small, decodeMetadata_encodeMetadata objId first second]

theorem reproduced_iff (path bytes : Bytes) : Reproduced path bytes ↔ (Formed bytes → bytes.length < 2 ^ 32 ∧
    (ClientKind.wireTimes bytes).1.toInt.natAbs ≤ maxMilliseconds ∧
    (ClientKind.wireTimes bytes).2.toInt.natAbs ≤ maxMilliseconds) := by
  rw [← inRange_iff, ← inRange_iff]
  constructor
  · intro reproduced formed
    obtain ⟨m, decoded⟩ := formed_iff.1 formed
    have short := fileBytes_length m
    rw [reproduced.same m decoded] at short
    exact ⟨short, reproduced.times m decoded⟩
  · intro holds
    refine ⟨fun _ => readRecord_caught, fun m decoded => (holds (formed_iff.2 ⟨m, decoded⟩)).2, fun m decoded => ?_⟩
    obtain ⟨small, range⟩ := holds (formed_iff.2 ⟨m, decoded⟩)
    have length := decodeMetadata_length decoded
    obtain ⟨created, modified, -, creation, modification, whole⟩ := decodeMetadata_some decoded
    have times : ClientKind.wireTimes bytes = (created, modified) := by
      rw [whole, ← List.append_assoc]
      exact wireTimes_file _ _ _ _
    rw [times] at range
    have kept : ∀ {ms : Int64}, InRange ms → write (TimePoint.ofMilliseconds ms) = write ms := fun range =>
      congrArg write range.milliseconds
    rw [fileBytes_eq (length ▸ small), encodeMetadata, creation, modification, kept range.1, kept range.2, ← whole]

/-- What `write_metadata_file` leaves in a file and `read_metadata_file` makes of one, and when a record and the contents
of a file survive. -/
theorem fileFormat_canonical_iff (objId : NulFree m.objId) (first : NulFree m.replicaLocations.1)
    (second : NulFree m.replicaLocations.2) (f path bytes : Bytes) :
    (∀ d d', writeMetadataFile f m d = (.ok (), d') → d'.tree.content (physical f) = some (fileBytes m)) ∧
    (∀ k d r d', d.tree.content k = some bytes → readMetadataFile k d = (r, d') →
      r = .error .readFailure ∨ r = decodeMetadata (PosixPath.join k) bytes) ∧
    (∀ k, Survives k m ↔ (encodeMetadata m).length < 2 ^ 32) ∧
    (Reproduced path bytes ↔ (Formed bytes → bytes.length < 2 ^ 32 ∧
      (ClientKind.wireTimes bytes).1.toInt.natAbs ≤ maxMilliseconds ∧
      (ClientKind.wireTimes bytes).2.toInt.natAbs ≤ maxMilliseconds)) :=
  ⟨fun _ _ wrote => writeMetadataFile_content wrote, fun _ _ _ _ there read => readMetadataFile_result there read,
    survives_iff objId first second, reproduced_iff path bytes⟩

/-- A file with empty strings that was created `created` milliseconds after the epoch. -/
def fileCreatedAt (created : Int64) : Bytes :=
  write metadataMagic ++ (write metadataVersion ++ (write (0 : UInt64) ++ (write ([] : Bytes) ++ (write ([] : Bytes) ++
    (write ([] : Bytes) ++ (write created ++ write (0 : Int64)))))))

/-- A record from before the epoch with the contents of a file from the last millisecond. -/
theorem fileFormat_canonical_early :
    Survives [] ⟨[97], 5, [97], ([98], [99]), ⟨-1500000⟩, ⟨1500000⟩⟩ ∧
    (⟨[97], 5, [97], ([98], [99]), ⟨-1500000⟩, ⟨1500000⟩⟩ : FileMetadata).createdAt.truncated = ⟨-1000000⟩ ∧
    Formed (fileCreatedAt 9223372036854) ∧ Reproduced [97] (fileCreatedAt 9223372036854) := by
  have canonical := @fileFormat_canonical_iff ⟨[97], 5, [97], ([98], [99]), ⟨-1500000⟩, ⟨1500000⟩⟩ (by decide) (by decide)
    (by decide) [97] [97] (fileCreatedAt 9223372036854)
  refine ⟨(canonical.2.2.1 []).2 (by decide +kernel), by decide, ⟨by decide +kernel, by decide +kernel⟩, ?_⟩
  exact canonical.2.2.2.2 fun _ => ⟨by decide +kernel, by decide +kernel, by decide +kernel⟩

/-- The clock cannot count the milliseconds of a file that is accepted, and its record is written as another file. -/
theorem file_overflows : ∃ m, decodeMetadata [97] (fileCreatedAt 9223372036854775807) = .ok m ∧
    ¬ InRange (ClientKind.wireTimes (fileCreatedAt 9223372036854775807)).1 ∧
    fileBytes m = fileCreatedAt (-1) ∧ fileBytes m ≠ fileCreatedAt 9223372036854775807 := by
  refine ⟨⟨[97], 0, [], ([], []), ⟨-1000000⟩, ⟨0⟩⟩, ?_⟩
  decide +kernel

end MetadataStore

end Dfs
