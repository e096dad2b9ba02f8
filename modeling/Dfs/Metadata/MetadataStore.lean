import Dfs.Lib.Disk
import Dfs.Common.ClientProtocol

/-!
# The metadata store (`MetadataStore.cpp`)

The tree of the store's disk is `directory_`. Every metadata record is kept twice: in `data`,
under the components of its path, and in a file at that path, which `loadFromStorage` reads
when the node starts. A record is written to a temporary file first and renamed into place.
-/

namespace Dfs

open Lib

def metadataMagic : UInt8 := 0x69
def metadataVersion : UInt8 := 0x01

structure FileMetadata where
  path : Bytes
  size : UInt64
  objId : Bytes
  replicaLocations : NodeId × NodeId
  createdAt : TimePoint := ⟨0⟩
  modifiedAt : TimePoint := ⟨0⟩
  deriving DecidableEq

inductive MetadataStoreError where
  | openFailure
  | malformedFile
  | readFailure
  | writeFailure
  | notFound
  | wrongVersion
  | invalidPath
  | alreadyExists
  deriving DecidableEq

structure MetadataStore where
  disk : Disk
  data : Assoc FilePath FileMetadata

namespace MetadataStore

/-- `".tmp"` -/
def tmpExtension : Bytes := [46, 116, 109, 112]

/-- What the map compares: the components of a path. -/
def key (filename : Bytes) : FilePath := PosixPath.components filename

/-- Where `directory_ / filename` lies below `directory_`. -/
def physical (filename : Bytes) : FilePath := PosixPath.names filename

def validFilename (filename : Bytes) : Bool :=
  if filename = [] ∨ PosixPath.isAbsolute filename ∨ PosixPath.filename filename = [] ∨
      PosixPath.extension filename = tmpExtension ∨
      PosixPath.components filename ≠ PosixPath.normalComponents filename then false
  else (PosixPath.components filename).all fun c => c ≠ PosixPath.dotName && c ≠ PosixPath.dotDotName

/-! ## Metadata files -/

def encodeMetadata (metadata : FileMetadata) : Bytes :=
  write metadataMagic ++ (write metadataVersion ++ (write metadata.size ++ (write metadata.objId ++
    (write metadata.replicaLocations.1 ++ (write metadata.replicaLocations.2 ++
      (write metadata.createdAt ++ write metadata.modifiedAt))))))

/-- The eight values of a metadata file and the reader behind them. -/
def readRecord (path bytes : Bytes) : Except Exn ((UInt8 × UInt8 × FileMetadata) × BinaryReader) := do
  let (magic, reader) ← (BinaryReader.start bytes).read UInt8
  let (version, reader) ← reader.read UInt8
  let (size, reader) ← reader.read UInt64
  let (objId, reader) ← reader.read Bytes
  let (rep1, reader) ← reader.read Bytes
  let (rep2, reader) ← reader.read Bytes
  let (createdAt, reader) ← reader.read TimePoint
  let (modifiedAt, reader) ← reader.read TimePoint
  return ((magic, version, { path, size, objId, replicaLocations := (rep1, rep2), createdAt, modifiedAt }), reader)

def decodeMetadata (path bytes : Bytes) : Except MetadataStoreError FileMetadata :=
  match readRecord path bytes with
  | .error _ => .error .malformedFile
  | .ok ((magic, version, metadata), reader) =>
      if magic ≠ metadataMagic then .error .malformedFile
      else if version ≠ metadataVersion then .error .wrongVersion
      else if reader.atEnd = false then .error .malformedFile
      else .ok metadata

/-- The part of `write_metadata_file` after the directories are there. The length of the data
is held in 32 bits. -/
def replaceFile (finalPath : FilePath) (data : Bytes) (disk : Disk) : Except MetadataStoreError Unit × Disk :=
  let temporaryPath := PosixPath.appendSuffix finalPath tmpExtension
  match disk.openTruncate temporaryPath with
  | (.error _, disk) => (.error .writeFailure, disk)
  | (.ok _, disk) =>
      match disk.write temporaryPath (data.take (UInt32.ofNat data.length).toNat) with
      | (.error _, disk) => (.error .writeFailure, disk)
      | (.ok _, disk) =>
          match disk.settle with -- flush
          | (.error _, disk) => (.error .writeFailure, disk)
          | (.ok _, disk) =>
              match disk.settle with -- close
              | (.error _, disk) => (.error .writeFailure, disk)
              | (.ok _, disk) =>
                  match disk.rename temporaryPath finalPath with
                  | (.error _, disk) => (.error .writeFailure, (disk.remove temporaryPath).2)
                  | (.ok _, disk) => (.ok (), disk)

def writeMetadataFile (filename : Bytes) (metadata : FileMetadata) (disk : Disk) :
    Except MetadataStoreError Unit × Disk :=
  match disk.createDirectories (physical filename).dropLast with
  | (.error e, disk) =>
      (.error (if e = .fileExists ∨ e = .notADirectory then .invalidPath else .writeFailure), disk)
  | (.ok _, disk) => replaceFile (physical filename) (encodeMetadata metadata) disk

def readMetadataFile (filename : FilePath) (disk : Disk) : Except MetadataStoreError FileMetadata × Disk :=
  match disk.readFile filename with
  | (.error _, disk) => (.error .readFailure, disk)
  | (.ok bytes, disk) =>
      match disk.settle with -- tellg
      | (.error _, disk) => (.error .readFailure, disk)
      | (.ok _, disk) =>
          match disk.settle with -- read
          | (.error _, disk) => (.error .readFailure, disk)
          | (.ok _, disk) => (decodeMetadata (PosixPath.join filename) bytes, disk)

/-- One file met by the directory iterator. -/
def loadFile (filename : FilePath) (s : MetadataStore) : Except MetadataStoreError Unit × MetadataStore :=
  match readMetadataFile filename s.disk with
  | (.error e, disk) => (.error e, { s with disk })
  | (.ok metadata, disk) =>
      if (s.data.lookup filename).isSome then (.error .malformedFile, { s with disk })
      else (.ok (), { disk, data := s.data.insert filename metadata })

/-- The loop of `load_from_storage` over the entries below the directory. -/
def loadEach : List FilePath → MetadataStore → Except MetadataStoreError Unit × MetadataStore
  | [], s => (.ok (), s)
  | filename :: rest, s =>
      match s.disk.isRegularFile filename with
      | (.error _, disk) => (.error .readFailure, { s with disk })
      | (.ok isRegular, disk) =>
          match if isRegular && PosixPath.extensionOf (filename.getLastD []) ≠ tmpExtension then
              loadFile filename { s with disk } else (.ok (), { s with disk }) with
          | (.error e, s) => (.error e, s)
          | (.ok _, s) =>
              match s.disk.settle with -- increment
              | (.error _, disk) => (.error .readFailure, { s with disk })
              | (.ok _, disk) => loadEach rest { s with disk }

def loadFromStorage (s : MetadataStore) : Except MetadataStoreError Unit × MetadataStore :=
  match s.disk.settle with
  | (.error _, disk) => (.error .readFailure, { disk, data := ∅ })
  | (.ok _, disk) => loadEach disk.tree.paths { disk, data := ∅ }

/-! ## The operations -/

def getMetadata (filename : Bytes) (s : MetadataStore) : Except MetadataStoreError FileMetadata :=
  if validFilename filename = false then .error .invalidPath
  else
    match s.data.lookup (key filename) with
    | none => .error .notFound
    | some metadata => .ok metadata

def addMetadata (now : TimePoint) (filename : Bytes) (metadata : FileMetadata) (s : MetadataStore) :
    Except MetadataStoreError Unit × MetadataStore :=
  if validFilename filename = false then (.error .invalidPath, s)
  else
    match s.disk.pathExists (physical filename) with
    | (.error _, disk) => (.error .writeFailure, { s with disk })
    | (.ok alreadyExists, disk) =>
        if alreadyExists then (.error .alreadyExists, { s with disk })
        else
          let metadata := { metadata with path := filename, createdAt := now, modifiedAt := now }
          match writeMetadataFile filename metadata disk with
          | (.error e, disk) => (.error e, { s with disk })
          | (.ok _, disk) =>
              -- `emplace` keeps an entry that is there
              (.ok (), { disk, data := if (s.data.lookup (key filename)).isSome then s.data
                                       else s.data.insert (key filename) metadata })

def updateMetadata (now : TimePoint) (filename : Bytes) (metadata : FileMetadata) (s : MetadataStore) :
    Except MetadataStoreError Unit × MetadataStore :=
  if validFilename filename = false then (.error .invalidPath, s)
  else
    match s.data.lookup (key filename) with
    | none => addMetadata now filename metadata s
    | some existing =>
        let metadata := { metadata with path := filename, createdAt := existing.createdAt, modifiedAt := now }
        match writeMetadataFile filename metadata s.disk with
        | (.error e, disk) => (.error e, { s with disk })
        | (.ok _, disk) => (.ok (), { disk, data := s.data.insert (key filename) metadata })

def removeMetadata (filename : Bytes) (s : MetadataStore) : Except MetadataStoreError Unit × MetadataStore :=
  if validFilename filename = false then (.error .invalidPath, s)
  else
    match s.disk.remove (physical filename) with
    | (.error _, disk) => (.error .writeFailure, { s with disk })
    | (.ok false, disk) => (.error .notFound, { s with disk })
    | (.ok true, disk) => (.ok (), { disk, data := s.data.erase (key filename) })

def makeDirectory (path : Bytes) (s : MetadataStore) : Except MetadataStoreError Unit × MetadataStore :=
  if validFilename path = false then (.error .invalidPath, s)
  else
    match s.disk.createDirectory (physical path) with
    | (.error e, disk) =>
        (.error (if e = .noSuchFile ∨ e = .notADirectory then .invalidPath else .writeFailure), { s with disk })
    | (.ok created, disk) => (if created then .ok () else .error .alreadyExists, { s with disk })

def removeDirectory (path : Bytes) (s : MetadataStore) : Except MetadataStoreError Unit × MetadataStore :=
  if validFilename path = false then (.error .invalidPath, s)
  else
    match s.disk.pathExists (physical path) with
    | (.error _, disk) => (.error .writeFailure, { s with disk })
    | (.ok false, disk) => (.error .notFound, { s with disk })
    | (.ok true, disk) =>
        match disk.isDirectory (physical path) with
        | (.error _, disk) => (.error .writeFailure, { s with disk })
        | (.ok false, disk) => (.error .invalidPath, { s with disk })
        | (.ok true, disk) =>
            match disk.remove (physical path) with
            | (.ok true, disk) => (.ok (), { s with disk })
            | (_, disk) => (.error .writeFailure, { s with disk })

/-- Steps of a directory iterator; a failing step throws. -/
def iterate : List (Name × Bool) → Disk → Except Exn (List FileInfo) × Disk
  | [], disk => (.ok [], disk)
  | (name, isDirectory) :: rest, disk =>
      match disk.settle with
      | (.error _, disk) => (.error .filesystemError, disk)
      | (.ok _, disk) =>
          match iterate rest disk with
          | (.error e, disk) => (.error e, disk)
          | (.ok infos, disk) => (.ok ({ path := name, isDirectory } :: infos), disk)

/-- `list` does not check its path. A directory that cannot be opened has no entries. -/
def list (path : Bytes) (s : MetadataStore) :
    Except Exn (Except MetadataStoreError (List FileInfo)) × MetadataStore :=
  match s.disk.settle with -- exists
  | (.error _, disk) => (.ok (.error .invalidPath), { s with disk })
  | (.ok _, disk) =>
      match disk.settle with -- is_directory
      | (.error _, disk) => (.ok (.error .invalidPath), { s with disk })
      | (.ok _, disk) =>
          match disk.directoryAt (PosixPath.relativeComponents path) with
          | none => (.ok (.error .invalidPath), { s with disk })
          | some entries =>
              match disk.settle with -- directory_iterator
              | (.error _, disk) => (.ok (.ok []), { s with disk })
              | (.ok _, disk) =>
                  match iterate entries disk with
                  | (.error e, disk) => (.error e, { s with disk })
                  | (.ok infos, disk) => (.ok (.ok infos), { s with disk })

/-- A key that `rename` changes: the old one, the new one and the new path as a string. -/
structure RenamedEntry where
  oldEntry : FilePath
  newEntry : FilePath
  newPath : Bytes

/-- The entry for `path` when its ancestor `oldPath` becomes `newPath`; the relative path of a
directory to itself is `"."`. -/
def renamedEntry (oldPath newPath : Bytes) (path : FilePath) : RenamedEntry :=
  let rest := path.drop (key oldPath).length
  let relative := if rest = [] then [PosixPath.dotName] else rest
  { oldEntry := path
    newEntry := key newPath ++ relative
    newPath := newPath ++ PosixPath.separator :: PosixPath.join relative }

def renamedEntries (oldPath newPath : Bytes) (data : Assoc FilePath FileMetadata) : List RenamedEntry :=
  (data.keys.filter fun path => key oldPath <+: path).map (renamedEntry oldPath newPath)

/-- The loop of `rename` that moves the entries one by one. -/
def moveEntries : List RenamedEntry → Assoc FilePath FileMetadata →
    Except MetadataStoreError Unit × Assoc FilePath FileMetadata
  | [], data => (.ok (), data)
  | entry :: rest, data =>
      match data.lookup entry.oldEntry with
      | none => (.error .readFailure, data)
      | some metadata =>
          let data := data.erase entry.oldEntry
          if (data.lookup entry.newEntry).isSome then (.error .writeFailure, data)
          else moveEntries rest (data.insert entry.newEntry { metadata with path := entry.newPath })

/-- The part of `rename` after the kind of the source is known. -/
def renameEntries (oldPath newPath : Bytes) (entries : List RenamedEntry) (s : MetadataStore) :
    Except MetadataStoreError Unit × MetadataStore :=
  if entries.any fun entry => (s.data.lookup entry.newEntry).isSome then (.error .alreadyExists, s)
  else
    match s.disk.rename (physical oldPath) (physical newPath) with
    | (.error _, disk) => (.error .writeFailure, { s with disk })
    | (.ok _, disk) =>
        let (result, data) := moveEntries entries s.data
        (result, { disk, data })

def rename (oldPath newPath : Bytes) (s : MetadataStore) : Except MetadataStoreError Unit × MetadataStore :=
  if validFilename oldPath = false ∨ validFilename newPath = false then (.error .invalidPath, s)
  else
    match s.disk.pathExists (physical oldPath) with
    | (.error _, disk) => (.error .readFailure, { s with disk })
    | (.ok false, disk) => (.error .notFound, { s with disk })
    | (.ok true, disk) =>
        if key oldPath = key newPath then (.ok (), { s with disk })
        else
          match disk.pathExists (physical newPath) with
          | (.error _, disk) => (.error .readFailure, { s with disk })
          | (.ok destinationExists, disk) =>
              if destinationExists || (s.data.lookup (key newPath)).isSome then
                (.error .alreadyExists, { s with disk })
              else
                match disk.isDirectory (physical oldPath) with
                | (.error _, disk) => (.error .readFailure, { s with disk })
                | (.ok sourceIsDirectory, disk) =>
                    match disk.isRegularFile (physical oldPath) with
                    | (.error _, disk) => (.error .readFailure, { s with disk })
                    | (.ok sourceIsFile, disk) =>
                        if sourceIsDirectory = false ∧ sourceIsFile = false then
                          (.error .invalidPath, { s with disk })
                        else if sourceIsFile then
                          if (s.data.lookup (key oldPath)).isNone then (.error .readFailure, { s with disk })
                          else
                            renameEntries oldPath newPath
                              [{ oldEntry := key oldPath, newEntry := key newPath, newPath }] { s with disk }
                        else
                          renameEntries oldPath newPath (renamedEntries oldPath newPath s.data) { s with disk }

end MetadataStore

end Dfs
