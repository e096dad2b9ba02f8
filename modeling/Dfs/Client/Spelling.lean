import Dfs.Client.Link
import Dfs.Metadata.Tidy
import Dfs.System.Producers
import Dfs.System.Removal
import Dfs.System.Writers

/-!
# One path string for all operations

`create_file` brings its path into normal form and the other operations send it as it is, while the store refuses every
path with a `.` or `..` in it. So a file can be created under a string that no other operation takes.
-/

namespace Dfs

open Lib

namespace MetadataStore

variable {s s' : MetadataStore} {p g : Bytes} {m : FileMetadata} {now : TimePoint}

/-- Where the normal form of a path is taken, the path itself is taken exactly if nothing had to be resolved. -/
theorem valid_iff_undotted (valid : validFilename (PosixPath.lexicallyNormal p) = true) :
    validFilename p = true ↔ ∀ c ∈ PosixPath.components p, c ≠ PosixPath.dotName ∧ c ≠ PosixPath.dotDotName := by
  constructor
  · intro taken c mem
    unfold validFilename at taken
    split at taken
    · cases taken
    · simpa using List.all_eq_true.1 taken c mem
  intro undotted
  have some : PosixPath.components p ≠ [] := by
    intro none
    by_cases ne : p = []
    · subst ne
      exact absurd valid (by decide)
    · have dot : PosixPath.lexicallyNormal p = PosixPath.dotName := by
        rw [PosixPath.lexicallyNormal, PosixPath.normalComponents, if_neg ne, none]
        rfl
      rw [dot] at valid
      exact absurd valid (by decide)
  have normal := PosixPath.normalComponents_undotted some undotted
  have plain := PosixPath.names_plain undotted
  rw [PosixPath.lexicallyNormal, normal] at valid
  have checks := valid
  unfold validFilename at checks
  split at checks
  · cases checks
  rename_i ok
  simp only [not_or, Bool.not_eq_true] at ok
  obtain ⟨-, relative, named, -⟩ := ok
  have notAbsolute : PosixPath.isAbsolute p = false := by
    by_contra absolute
    rw [Bool.not_eq_false] at absolute
    rw [PosixPath.components, if_pos absolute] at relative
    simp [PosixPath.join, PosixPath.isAbsolute] at relative
  have rooted : PosixPath.components p = PosixPath.relativeComponents p := by
    rw [PosixPath.components, notAbsolute]
    rfl
  have open_ : PosixPath.relativeComponents p = PosixPath.names p := by
    rw [PosixPath.relativeComponents]
    split
    · rename_i trailing
      rw [rooted, PosixPath.relativeComponents, if_pos trailing] at named
      exact absurd (PosixPath.filename_trailing (PosixPath.join_trailing trailing.1)) named
    · rw [List.append_nil]
  rw [rooted, open_] at valid some
  have joined : physical (PosixPath.join (PosixPath.names p)) = PosixPath.names p := PosixPath.names_join plain
  have extension := (valid_filename valid).2.2
  rw [joined] at extension
  exact (valid_of_plain open_ notAbsolute some plain).2 extension

/-- A path that is taken is its own normal form. -/
theorem key_lexicallyNormal (valid : validFilename p = true) : key (PosixPath.lexicallyNormal p) = key p := by
  have plain := valid_plain valid
  have components := (valid_filename valid).1
  unfold validFilename at valid
  split at valid
  · cases valid
  rename_i ok
  simp only [not_or, not_not] at ok
  rw [PosixPath.lexicallyNormal, ← ok.2.2.2.2, key, PosixPath.components_join]
  · rfl
  · rw [show PosixPath.components p = physical p from components]
    exact plain

/-- The record that a creation makes. -/
theorem addMetadata_fresh (h : addMetadata now p m s = (.ok (), s')) (none : s.data.lookup (key p) = none) :
    s'.data = s.data.insert (key p) { m with path := p, createdAt := now, modifiedAt := now } := by
  unfold addMetadata at h
  split at h
  · cases h
  split at h
  · cases h
  rename_i alreadyExists disk looked
  split at h
  · cases h
  rcases wrote : writeMetadataFile p { m with path := p, createdAt := now, modifiedAt := now } disk with ⟨_ | _, written⟩
  all_goals simp only [wrote, none] at h
  · cases h
  · cases h
    rfl

/-- A file that is created was not there. -/
theorem addMetadata_absent (mirror : Mirrors s.disk.tree s.data) (h : addMetadata now p m s = (.ok (), s')) :
    s.data.lookup (key p) = none := by
  cases found : s.data.lookup (key p) with
  | none => rfl
  | some m' =>
      have valid := (addMetadata_data h).2 rfl |>.1
      have file := (mirror.found found).1
      rw [(valid_filename valid).1] at file
      unfold addMetadata at h
      rw [if_neg (by simp [valid])] at h
      split at h
      · cases h
      rename_i alreadyExists disk looked
      have here := Disk.query_ok looked
      rw [FileTree.content_eq_some.1 file] at here
      cases here
      cases h

theorem removeMetadata_status {e : MetadataStoreError} (valid : validFilename p = true)
    (h : removeMetadata p s = (.error e, s')) : getClientStatus (.error e : Except MetadataStoreError Unit) = .serverError := by
  unfold removeMetadata at h
  rw [if_neg (by simp [valid])] at h
  split at h <;> cases h <;> rfl

/-- A file with a record can be renamed, as far as its old name goes. -/
theorem rename_record {r : Except MetadataStoreError Unit} (mirror : Mirrors s.disk.tree s.data)
    (valid : validFilename p = true) (found : s.data.lookup (key p) = some m) (h : rename p g s = (r, s')) :
    (r = .error .invalidPath → validFilename g = false) ∧ r ≠ .error .notFound ∧
      (s'.data = s.data ∧ (r = .ok () → key p = key g) ∨
        r = .ok () ∧ key p ≠ key g ∧ s'.data = (s.data.erase (key p)).insert (key g) { m with path := g }) := by
  have file := (mirror.found found).1
  rw [(valid_filename valid).1] at file
  have kind := FileTree.content_eq_some.1 file
  unfold rename at h
  split at h
  · rename_i bad
    cases h
    exact ⟨fun _ => bad.resolve_left (by simp [valid]), by simp, .inl ⟨rfl, by simp⟩⟩
  split at h
  · cases h
    exact ⟨by simp, by simp, .inl ⟨rfl, by simp⟩⟩
  · rename_i disk looked
    have here := Disk.query_ok looked
    rw [kind] at here
    cases here
  rename_i d₁ looked₁
  have tree₁ := (Disk.query_tree looked₁).1
  split at h
  · rename_i same
    cases h
    exact ⟨by simp, by simp, .inl ⟨rfl, fun _ => same⟩⟩
  rename_i apart
  split at h
  · cases h
    exact ⟨by simp, by simp, .inl ⟨rfl, by simp⟩⟩
  rename_i d₂ looked₂
  have tree₂ := (Disk.query_tree looked₂).1.trans tree₁
  split at h
  · cases h
    exact ⟨by simp, by simp, .inl ⟨rfl, by simp⟩⟩
  rename_i unused
  have unused : s.data.lookup (key g) = none := by
    cases there : s.data.lookup (key g) with
    | none => rfl
    | some m' => exact absurd (by simp [there]) unused
  split at h
  · cases h
    exact ⟨by simp, by simp, .inl ⟨rfl, by simp⟩⟩
  rename_i d₃ looked₃
  have tree₃ := (Disk.query_tree looked₃).1.trans tree₂
  split at h
  · cases h
    exact ⟨by simp, by simp, .inl ⟨rfl, by simp⟩⟩
  rename_i isFile d₄ looked₄
  have here := Disk.query_ok looked₄
  rw [tree₃, file] at here
  cases here
  have free : (s.data.erase (key p)).lookup (key g) = none := by
    rw [Assoc.lookup_erase_ite, unused, ite_self]
  simp only [Option.isSome_some, Bool.true_eq_false, and_false, if_false, if_true, found, Option.isNone_some,
    Bool.false_eq_true] at h
  rw [renameEntries, if_neg (by simp [unused])] at h
  rcases moved : d₄.rename (physical p) (physical g) with ⟨_ | _, disk⟩
  all_goals simp only [moveEntries, moved, found, free, Option.isSome_none, Bool.false_eq_true, if_false] at h
  all_goals cases h
  · exact ⟨by simp, by simp, .inl ⟨rfl, by simp⟩⟩
  · exact ⟨by simp, by simp, .inr ⟨rfl, apart, rfl⟩⟩

end MetadataStore

namespace MetadataState

open MetadataStore MetadataWorker

variable {ν : Type} [Network ν] {s s' : MetadataState ν} {p : Bytes} {m : FileMetadata} {env : Env}

/-- The requests for `p` work on the record `m`, which is the one of a new file. -/
structure Addresses (p : Bytes) (m : FileMetadata) (s : MetadataState ν) : Prop where
  stat : ∀ (env : Env) (context : RequestContext), s.handle env (.stat { path := p, context }) =
    (.ok (), (s.entered env).respond context fun id => ClientProtocol.encodeStatResponse id
      { status := .success
        stat :=
          { path := m.path, isDirectory := false, storageNodes := m.replicaLocations, objectId := m.objId, size := m.size,
            createdAt := m.createdAt, modifiedAt := m.modifiedAt }
        context })
  readFile : ∀ (env : Env) (context : RequestContext), (s.entered env).readFile { path := p, context } =
    (if s.worker.beingWritten p then (.serverError, 0, 0) else (.success, m.size, 0), s.entered env)
  writeFile : ∀ (env : Env) (req : WriteFileRequest) (status : ClientStatus) (s' : MetadataState ν), req.path = p →
    (s.entered env).writeFile env req = (status, s') → (status = .success ∨ status = .serverError) ∧
      (∃ m' : FileMetadata, m'.objId = m.objId ∧ s'.worker.store.data.lookup (key m.path) = some m') ∧
      (∀ k, k ≠ key m.path → s'.worker.store.data.lookup k = s.worker.store.data.lookup k) ∧
      (status = .success → req.chunkCount ≠ 0 → ∃ write, s'.worker.findWrite req.context = some write ∧
        write.path = p ∧ write.objectId = m.objId)
  remove : ∀ (env : Env) (req : RemoveRequest) (status : ClientStatus) (s' : MetadataState ν), req.path = p →
    (s.entered env).remove req = (status, s') →
      (status = .success ∧ s'.worker.store.data = s.worker.store.data.erase (key m.path)) ∨
        (status = .serverError ∧ s'.worker.store.data = s.worker.store.data ∧
          (s.worker.beingWritten p = true ∨ Fails env.outcomes 0))
  rename : ∀ (env : Env) (g : Bytes) (r : Except MetadataStoreError Unit) (store : MetadataStore),
    MetadataStore.rename p g (s.entered env).worker.store = (r, store) →
      (r = .error .invalidPath → validFilename g = false) ∧ r ≠ .error .notFound ∧
        (store.data = s.worker.store.data ∧ (r = .ok () → key m.path = key g) ∨
          r = .ok () ∧ store.data = (s.worker.store.data.erase (key m.path)).insert (key g) { m with path := g })

omit [Network ν] in
theorem startWrite_status {req : WriteFileRequest} {status : ClientStatus} (h : s.startWrite env req m = (status, s')) :
    status = .success ∨ status = .serverError := by
  have opened : ∀ {replicas : NodeId × NodeId} {s₁ : MetadataState ν},
      s₁.openWrite req m.objId replicas = (status, s') → status = .success ∨ status = .serverError := fun h => by
    unfold openWrite at h
    split at h <;> cases h <;> simp
  unfold startWrite at h
  dsimp only at h
  split at h
  · cases h
    exact .inr rfl
  split at h
  · cases h
    exact .inr rfl
  split at h
  · cases h
    exact .inr rfl
  split at h
  · split at h <;> cases h <;> simp
  split at h
  · split at h
    · exact opened h
    · cases h
      exact .inr rfl
  split at h
  · cases h
    exact .inr rfl
  split at h
  · cases h
    exact .inr rfl
  · exact opened h

omit [Network ν] in
/-- A `WriteFile` for a path with a record works on that record. -/
theorem writeFile_record {req : WriteFileRequest} {status : ClientStatus} (valid : validFilename req.path = true)
    (found : s.worker.store.data.lookup (key req.path) = some m) (h : s.writeFile env req = (status, s')) :
    (status = .success ∨ status = .serverError) ∧
      (∃ m' : FileMetadata, m'.objId = m.objId ∧ s'.worker.store.data.lookup (key req.path) = some m') ∧
      (∀ k, k ≠ key req.path → s'.worker.store.data.lookup k = s.worker.store.data.lookup k) ∧
      (status = .success → req.chunkCount ≠ 0 → ∃ write, s'.worker.findWrite req.context = some write ∧
        write.path = req.path ∧ write.objectId = m.objId) := by
  have known : s.worker.store.getMetadata req.path = .ok m := by
    rw [getMetadata, if_neg (by simp [valid]), found]
  have same : ∀ {m' : FileMetadata}, s.worker.target env req.path m' → m' = m := fun target => by
    rcases target.2 with here | ⟨missing, -⟩
    · rw [found] at here
      exact (Option.some.inj here).symm
    · rw [found] at missing
      cases missing
  refine ⟨?_, ?_⟩
  · unfold MetadataState.writeFile at h
    rw [known] at h
    split at h
    · cases h
      exact .inr rfl
    · exact startWrite_status h
  obtain ⟨-, -, step⟩ := writeFile_step h
  cases step with
  | refused _ bad data writes =>
      rw [data]
      exact ⟨⟨m, rfl, found⟩, fun k _ => rfl, fun ok => absurd ok bad⟩
  | emptied m₁ m' target count objId replicas size data writes =>
      rw [data, ← same target]
      refine ⟨⟨m', objId, by rw [Assoc.lookup_insert_ite, if_pos rfl]⟩, fun k ne => ?_, fun _ some => absurd count some⟩
      rw [Assoc.lookup_insert_ite, if_neg ne]
  | opened m₁ target count sized bound data free writes =>
      rw [data, ← same target]
      refine ⟨⟨m₁, rfl, same target ▸ found⟩, fun k _ => rfl, fun _ _ =>
        ⟨sessionOf req m₁.objId m₁.replicaLocations, ?_, rfl, rfl⟩⟩
      rw [System.findWrite_putWrite writes, if_pos ⟨rfl, rfl⟩]
  | bound _ m₁ m' target count sized unbound selected objId size data writes =>
      rw [data, ← same target]
      refine ⟨⟨m', objId, by rw [Assoc.lookup_insert_ite, if_pos rfl]⟩, fun k ne => ?_, fun ok _ => ?_⟩
      · rw [Assoc.lookup_insert_ite, if_neg ne]
      · obtain ⟨bad, -⟩ | ⟨-, -, writes⟩ := writes
        · exact absurd ok bad
        · refine ⟨sessionOf req m₁.objId m'.replicaLocations, ?_, rfl, rfl⟩
          rw [System.findWrite_putWrite writes, if_pos ⟨rfl, rfl⟩]

/-- Where its path is taken as it is, a new file is what all requests for it are about. -/
theorem addresses_of (mirror : Mirrors s.worker.store.disk.tree s.worker.store.data) (valid : validFilename p = true)
    (found : s.worker.store.data.lookup (key p) = some m) (same : key m.path = key p) (empty : m.size = 0)
    (named : m.objId ≠ []) (unbound : m.replicaLocations = ([], [])) : s.Addresses p m := by
  have known : s.worker.store.getMetadata p = .ok m := by
    rw [getMetadata, if_neg (by simp [valid]), found]
  refine ⟨fun env context => ?_, fun env context => ?_, fun env req status s' path h => ?_,
    fun env req status s' path h => ?_, fun env g r store h => ?_⟩
  · have known' : (s.worker.withOutcomes env.outcomes).store.getMetadata p = .ok m := known
    simp only [handle, handleStat, known']
    rfl
  · have known' : (s.entered env).worker.store.getMetadata p = .ok m := known
    have quiet : (s.entered env).worker.beingWritten p = s.worker.beingWritten p := rfl
    rw [MetadataState.readFile, quiet]
    cases s.worker.beingWritten p with
    | true => rfl
    | false => simp [known', named, empty, chunksOf]
  · subst path
    rw [same]
    exact writeFile_record (s := s.entered env) valid found h
  · subst path
    rw [same]
    have known' : (s.entered env).worker.store.getMetadata req.path = .ok m := known
    have quiet : (s.entered env).worker.beingWritten req.path = s.worker.beingWritten req.path := rfl
    rw [MetadataState.remove, quiet] at h
    split at h
    · rename_i writing
      cases h
      exact .inr ⟨rfl, rfl, .inl writing⟩
    rw [known'] at h
    simp only [unbound, halfBound, doubled, named, ne_eq, not_true_eq_false, decide_false, bne_self_eq_false, Bool.false_and,
      Bool.false_eq_true, or_self, if_false, if_true] at h
    by_cases fails : Fails env.outcomes 0
    · rcases removed : removeMetadata req.path (s.entered env).worker.store with ⟨r, store⟩
      simp only [onStore, removed] at h
      obtain ⟨failed, done⟩ := removeMetadata_data removed
      cases r with
      | error e =>
          cases h
          exact .inr ⟨removeMetadata_status valid removed, failed e rfl, .inr fails⟩
      | ok _ =>
          cases h
          exact .inl ⟨rfl, (done rfl).2⟩
    · obtain ⟨store, removed, -, -⟩ := removeMetadata_removes (s := (s.entered env).worker.store) mirror valid found fails
      simp only [onStore, removed] at h
      cases h
      exact .inl ⟨rfl, ((removeMetadata_data removed).2 rfl).2⟩
  · rw [same]
    obtain ⟨refused, here, moved⟩ := rename_record (s := (s.entered env).worker.store) mirror valid found h
    exact ⟨refused, here, moved.imp_right fun done => ⟨done.1, done.2.2⟩⟩

theorem Addresses.valid (addresses : s.Addresses p m) : validFilename p = true := by
  by_contra bad
  rw [Bool.not_eq_true] at bad
  let taken : Bytes := [120]
  rcases renamed : MetadataStore.rename p taken (s.entered {}).worker.store with ⟨r, store⟩
  obtain ⟨refused, -⟩ := addresses.rename {} taken r store renamed
  rw [MetadataStore.rename, if_pos (.inl bad)] at renamed
  cases renamed
  exact absurd (refused rfl) (by decide)

end MetadataState

/-! ## What a client sends -/

namespace Operation

open ClientProtocol

variable {o : Operation}

/-- The request an operation begins with. -/
def request (id : UInt64) : Operation → Frame
  | createFile path => encodeCreateFileRequest id { path := PosixPath.lexicallyNormal path, context := Client.noContext }
  | readFile fromPath _ _ => encodeReadFileRequest id { path := fromPath, context := Client.noContext }
  | writeFile file path =>
      let fileSize := file.size.toOption.getD 0
      encodeWriteFileRequest id { fileSize, chunkCount := (chunksOf fileSize).toUInt32, path, context := Client.noContext }
  | remove path => encodeRemoveRequest id { path, context := Client.noContext }
  | list directory => encodeListRequest id { path := directory, context := Client.noContext }
  | mkdir path => encodeMakeDirRequest id { path, context := Client.noContext }
  | rename oldPath newPath => encodeRenameRequest id { oldPath, newPath, context := Client.noContext }
  | stat path => encodeStatRequest id { path, context := Client.noContext }

/-- What the metadata node makes of it. -/
def event (context : RequestContext) : Operation → ClientEvent
  | createFile path => .createFile { path := PosixPath.lexicallyNormal path, context }
  | readFile fromPath _ _ => .readFile { path := fromPath, context }
  | writeFile file path =>
      let fileSize := file.size.toOption.getD 0
      .writeFile { fileSize, chunkCount := (chunksOf fileSize).toUInt32, path, context }
  | remove path => .remove { path, context }
  | list directory => .list { path := directory, context }
  | mkdir path => .makeDir { path, context }
  | rename oldPath newPath => .rename { oldPath, newPath, context }
  | stat path => .stat { path, context }

/-- The strings of the request. -/
def texts : Operation → List Bytes
  | createFile path => [PosixPath.lexicallyNormal path]
  | rename oldPath newPath => [oldPath, newPath]
  | readFile path _ _ | writeFile _ path | remove path | list path | mkdir path | stat path => [path]

theorem heard {kind : ClientKind} {value : kind.Value} {job : ClientJob} {body : Bytes} {id : UInt64}
    (finds : kind.codec.Finds value job .request body) (sender : NodeIdentity)
    (small : (kind.codec.encode id value).buffer.length ≤ maxMessageSize) :
    ∃ message, Rpc.readMessage ClientJob ((kind.codec.encode id value).from sender) = .ok message ∧
      message.rpcHeader.job = job ∧ kind.codec.decode message = .ok (kind.codec.received ⟨id, sender⟩ value) := by
  have short : body.length < 2 ^ 31 := by
    rw [finds.frame id, Rpc.makeFrame_length, maxMessageSize] at small
    omega
  obtain ⟨message, read, header, -, decoded⟩ := finds.receive short id sender
  exact ⟨message, read, congrArg RpcHeader.job header, decoded⟩

/-- The request is received as it is meant. -/
theorem received (id : UInt64) (sender : NodeIdentity) (clean : ∀ text ∈ o.texts, NulFree text)
    (small : (o.request id).buffer.length ≤ maxMessageSize) :
    ClientEvent.of ((o.request id).from sender) = .ok (o.event ⟨id, sender⟩) := by
  cases o with
  | createFile path =>
      have finds : (ClientKind.codec .createFileRequest).Finds
          { path := PosixPath.lexicallyNormal path, context := Client.noContext } .createFile .request _ :=
        ClientKind.finds_one (fun context path => ⟨path, context⟩) (clean _ (.head _)) (fun _ => rfl) (.inl rfl)
          (fun _ => rfl) rfl
      obtain ⟨message, read, named, decoded⟩ := heard finds sender small
      simp only [ClientKind.codec] at read decoded
      simp only [request, event, ClientEvent.of, read, bind, Except.bind, named, decoded]
      rfl
  | readFile path toPath outcomes =>
      have finds : (ClientKind.codec .readFileRequest).Finds { path, context := Client.noContext } .readFile .request _ :=
        ClientKind.finds_one (fun context path => ⟨path, context⟩) (clean _ (.head _)) (fun _ => rfl) (.inl rfl)
          (fun _ => rfl) rfl
      obtain ⟨message, read, named, decoded⟩ := heard finds sender small
      simp only [ClientKind.codec] at read decoded
      simp only [request, event, ClientEvent.of, read, bind, Except.bind, named, decoded]
      rfl
  | writeFile file path =>
      have finds : (ClientKind.codec .writeFileRequest).Finds
          { fileSize := file.size.toOption.getD 0, chunkCount := (chunksOf (file.size.toOption.getD 0)).toUInt32, path,
            context := Client.noContext } .writeFile .request _ :=
        ClientKind.finds_writeFileRequest (clean _ (.head _))
      obtain ⟨message, read, named, decoded⟩ := heard finds sender small
      simp only [ClientKind.codec] at read decoded
      simp only [request, event, ClientEvent.of, read, bind, Except.bind, named, decoded]
      rfl
  | remove path =>
      have finds : (ClientKind.codec .removeRequest).Finds { path, context := Client.noContext } .remove .request _ :=
        ClientKind.finds_one (fun context path => ⟨path, context⟩) (clean _ (.head _)) (fun _ => rfl) (.inl rfl)
          (fun _ => rfl) rfl
      obtain ⟨message, read, named, decoded⟩ := heard finds sender small
      simp only [ClientKind.codec] at read decoded
      simp only [request, event, ClientEvent.of, read, bind, Except.bind, named, decoded]
      rfl
  | list path =>
      have finds : (ClientKind.codec .listRequest).Finds { path, context := Client.noContext } .list .request _ :=
        ClientKind.finds_one (fun context path => ⟨path, context⟩) (clean _ (.head _)) (fun _ => rfl) (.inl rfl)
          (fun _ => rfl) rfl
      obtain ⟨message, read, named, decoded⟩ := heard finds sender small
      simp only [ClientKind.codec] at read decoded
      simp only [request, event, ClientEvent.of, read, bind, Except.bind, named, decoded]
      rfl
  | mkdir path =>
      have finds : (ClientKind.codec .makeDirRequest).Finds { path, context := Client.noContext } .mkdir .request _ :=
        ClientKind.finds_one (fun context path => ⟨path, context⟩) (clean _ (.head _)) (fun _ => rfl) (.inl rfl)
          (fun _ => rfl) rfl
      obtain ⟨message, read, named, decoded⟩ := heard finds sender small
      simp only [ClientKind.codec] at read decoded
      simp only [request, event, ClientEvent.of, read, bind, Except.bind, named, decoded]
      rfl
  | rename oldPath newPath =>
      have finds : (ClientKind.codec .renameRequest).Finds { oldPath, newPath, context := Client.noContext } .rename .request _ :=
        ClientKind.finds_renameRequest (clean _ (.head _)) (clean _ (.tail _ (.head _)))
      obtain ⟨message, read, named, decoded⟩ := heard finds sender small
      simp only [ClientKind.codec] at read decoded
      simp only [request, event, ClientEvent.of, read, bind, Except.bind, named, decoded]
      rfl
  | stat path =>
      have finds : (ClientKind.codec .statRequest).Finds { path, context := Client.noContext } .stat .request _ :=
        ClientKind.finds_one (fun context path => ⟨path, context⟩) (clean _ (.head _)) (fun _ => rfl) (.inl rfl)
          (fun _ => rfl) rfl
      obtain ⟨message, read, named, decoded⟩ := heard finds sender small
      simp only [ClientKind.codec] at read decoded
      simp only [request, event, ClientEvent.of, read, bind, Except.bind, named, decoded]
      rfl

end Operation

namespace Client

open Network

variable {ν : Type} [Network ν] {c : Client ν} {n : ν}

/-- What follows the first request of an operation. -/
abbrev Follows (n n' : ν) : Prop := Used (fun _ => True) n n'

theorem call_follows (requestId : UInt64) (job : ClientJob) (seconds : Nat) (body : BinaryReader → Except Exn Bool)
    (frame : Frame) (follows : Follows n (Network.send c.metadataNodeId frame c.network)) :
    Follows n (c.call requestId job seconds body frame).2.network := by
  have waited := follows.receiveIf seconds (Rpc.makeMessageIs requestId job .response c.metadataNodeId body)
  unfold call
  split
  · rename_i received
    rw [received] at waited
    exact waited
  · rename_i received
    rw [received] at waited
    split
    · exact waited
    · split <;> exact waited

theorem writeChunks_follows (requestId : UInt64) (left : Nat) (chunkIndex : UInt32) (file : Input) (follows : Follows n c.network) :
    Follows n (writeChunks requestId left chunkIndex file c).2.network := by
  induction left generalizing chunkIndex file c with
  | zero => exact follows
  | succ left ih =>
      unfold writeChunks
      dsimp only
      split
      · exact follows
      have called := call_follows requestId .writeChunk timeout (Rpc.matchChunk chunkIndex)
        (ClientProtocol.encodeWriteChunkRequest requestId { chunkIndex, data := file.read.1, context := noContext })
        (follows.send c.metadataNodeId _ trivial)
      split
      · rename_i result
        rw [result] at called
        exact called
      · rename_i result
        rw [result] at called
        exact called
      · rename_i result
        rw [result] at called
        split
        · exact called
        split
        · exact called
        split
        · exact called
        · exact ih _ _ called

theorem readChunks_follows (requestId fileSize : UInt64) (toPath : Bytes) (temporary : FilePath) (left : Nat)
    (chunkIndex : UInt32) (follows : Follows n c.network) :
    Follows n (readChunks requestId fileSize toPath temporary left chunkIndex c).2.network := by
  induction left generalizing chunkIndex c with
  | zero =>
      rw [readChunks, finishRead]
      dsimp only
      split
      · exact follows
      · split <;> exact follows
  | succ left ih =>
      rw [readChunks]
      have called := call_follows requestId .readChunk readChunkTimeout (Rpc.matchChunk chunkIndex)
        (ClientProtocol.encodeReadChunkRequest requestId { chunkIndex, context := noContext })
        (follows.send c.metadataNodeId _ trivial)
      split <;> rename_i got <;> rw [got] at called
      · exact called
      · exact called
      split
      · exact called
      split
      · exact called
      split
      · exact called
      split
      · exact called
      · exact ih _ called

theorem ask_follows {α : Type} (job : ClientJob) (frame : UInt64 → Frame)
    (response : ClientRpcMessage → Except Exn (ClientStatus × α)) :
    Follows (Network.send c.metadataNodeId (frame (c.currentId + 1)) c.network) (c.ask job frame response).2.network := by
  rw [ask]
  have called := call_follows (c := { c with currentId := c.currentId + 1 }) (c.currentId + 1) job timeout Rpc.matchAnyBody
    (frame (c.currentId + 1)) .refl
  split <;> rename_i got <;> rw [got] at called
  · exact called
  · exact called
  · split <;> exact called

theorem writeFile_follows {file : LocalFile} {path : Bytes} :
    (c.writeFile file path).2.network = c.network ∨
      Follows (Network.send c.metadataNodeId ((Operation.writeFile file path).request (c.currentId + 1)) c.network)
        (c.writeFile file path).2.network := by
  rw [writeFile]
  dsimp only
  split
  · exact .inl rfl
  split
  · exact .inl rfl
  rename_i fileSize size
  split
  · exact .inl rfl
  refine .inr ?_
  rw [Operation.request, size]
  have called := call_follows (c := { c with currentId := c.currentId + 1 }) (c.currentId + 1) .writeFile timeout Rpc.matchAnyBody
    (ClientProtocol.encodeWriteFileRequest (c.currentId + 1)
      { fileSize, chunkCount := (chunksOf fileSize).toUInt32, path, context := noContext }) .refl
  split <;> rename_i got <;> rw [got] at called
  · exact called
  · exact called
  split
  · exact called
  split
  · exact called
  · exact writeChunks_follows _ _ _ _ called

theorem readFile_follows {fromPath toPath : Bytes} :
    Follows (Network.send c.metadataNodeId
      (ClientProtocol.encodeReadFileRequest (c.currentId + 1) { path := fromPath, context := noContext }) c.network)
      (c.readFile fromPath toPath).2.network := by
  rw [readFile]
  dsimp only
  have called := call_follows (c := { c with currentId := c.currentId + 1 }) (c.currentId + 1) .readFile timeout Rpc.matchAnyBody
    (ClientProtocol.encodeReadFileRequest (c.currentId + 1) { path := fromPath, context := noContext }) .refl
  split <;> rename_i got <;> rw [got] at called
  · exact called
  · exact called
  split
  · exact called
  split
  · exact called
  split
  · exact called
  split
  · exact called
  split
  · exact called
  · exact readChunks_follows _ _ _ _ _ _ called

/-- An operation that sends anything sends its request first, to the metadata node. -/
theorem perform_follows (o : Operation) (c : Client World) : (o.perform c).network = c.network ∨
    Follows (Network.send c.metadataNodeId (o.request (c.currentId + 1)) c.network) (o.perform c).network := by
  cases o with
  | createFile path => exact .inr (ask_follows _ (fun id => (.createFile path : Operation).request id) _)
  | readFile fromPath toPath outcomes => exact .inr (readFile_follows (c := { c with disk := c.disk.withOutcomes outcomes }))
  | writeFile file path => exact writeFile_follows
  | remove path => exact .inr (ask_follows _ (fun id => (.remove path : Operation).request id) _)
  | list directory => exact .inr (ask_follows _ (fun id => (.list directory : Operation).request id) _)
  | mkdir path => exact .inr (ask_follows _ (fun id => (.mkdir path : Operation).request id) _)
  | rename oldPath newPath => exact .inr (ask_follows _ (fun id => (.rename oldPath newPath : Operation).request id) _)
  | stat path => exact .inr (ask_follows _ (fun id => (.stat path : Operation).request id) _)

end Client

namespace System

open MetadataStore MetadataWorker MetadataState

variable {s₀ s s' : System} {events : List NodeEvent} {p : Bytes} {env : Env} {script : List (List Act)}
  {context : RequestContext}

/-- The file that a `create_file` makes. -/
def createdFile (env : Env) (p : Bytes) : FileMetadata :=
  { path := PosixPath.lexicallyNormal p, size := 0, objId := env.objectId, replicaLocations := ([], []), createdAt := env.now,
    modifiedAt := env.now }

/-- The metadata node answers the request of `create_file p` with `Success`. -/
def Creates (p : Bytes) (env : Env) (s s' : System) : Prop :=
  ∃ (context : RequestContext) (script : List (List Act)) (frame : Frame),
    s.next (.request ((Operation.createFile p).event context) env script) = .ok s' ∧
      s'.network.sent.getLast? = some (context.sender.id, frame) ∧
        Responds ((Operation.createFile p).event context) .success frame

theorem Creates.found (sturdy : s.Sturdy) (creates : Creates p env s s') : s'.Sturdy ∧
    validFilename (PosixPath.lexicallyNormal p) = true ∧
      s'.worker.store.data.lookup (key (PosixPath.lexicallyNormal p)) = some (createdFile env p) := by
  obtain ⟨context, script, frame, stepped, last, responds⟩ := creates
  have handled := next_request stepped
  obtain ⟨status, frame', s₁, core, responds', sent⟩ := handle_handled handled
  have same : frame' = frame := by
    rw [sent] at last
    simpa [MetadataState.send, Cluster.send_sent, Operation.event, ClientEvent.context] using last
  rw [same] at responds'
  have success := responds'.status_eq responds
  cases core with
  | createFile req r s₁ run =>
      obtain ⟨u, ok⟩ := getClientStatus_success success
      subst ok
      rcases added : addMetadata env.now (PosixPath.lexicallyNormal p)
        { path := PosixPath.lexicallyNormal p, size := 0, objId := env.objectId, replicaLocations := ([], []) }
        ((s.scripted script).entered env).worker.store with ⟨r, store⟩
      simp only [onStore, added] at run
      cases run
      have absent := addMetadata_absent (s := ((s.scripted script).entered env).worker.store) sturdy.mirrored added
      have data := addMetadata_fresh added absent
      have valid := ((addMetadata_data added).2 rfl).1
      refine ⟨handled_sturdy sturdy handled, valid, ?_⟩
      have here : s'.worker.store.data = store.data := by
        rw [sent]
        rfl
      rw [here, data, Assoc.lookup_insert_ite, if_pos rfl]
      rfl

/-- Whatever the client creates, the other operations take the same string for the new file exactly if it has no
`.` and no `..` in it. -/
theorem operations_agree (blank : s₀.Blank) (heard : ∀ e ∈ events, e.From NodeClean) (h : s₀.runNode events = .ok s)
    (creates : Creates p env s s') :
    s'.worker.store.data.lookup (key (PosixPath.lexicallyNormal p)) = some (createdFile env p) ∧
      ((∀ script, (s'.scripted script).Addresses p (createdFile env p)) ↔
        ∀ c ∈ PosixPath.components p, c ≠ PosixPath.dotName ∧ c ≠ PosixPath.dotDotName) := by
  obtain ⟨sturdy, valid, found⟩ := creates.found (runNode_sturdy blank heard h)
  refine ⟨found, ?_⟩
  rw [← valid_iff_undotted valid]
  constructor
  · intro addresses
    exact (addresses []).valid
  · intro taken script
    have same := key_lexicallyNormal taken
    rw [same] at found
    exact addresses_of (s := s'.scripted script) sturdy.mirrored taken found same rfl (generated_clean_unbound env).named rfl

def answeredCreated (s : System) : Bool :=
  s.network.sent.getLast? = some ([99], ClientProtocol.encodeCreateFileResponse 1 { status := .success, context := fromClient 1 })

/-- Two slashes count as one. -/
theorem operations_agree_slashes : ∃ s s', start.runNode oneWriter = .ok s ∧
    Creates [97, 47, 47, 98] { first := 8 } s s' ∧
      ∀ script, (s'.scripted script).Addresses [97, 47, 47, 98] (createdFile { first := 8 } [97, 47, 47, 98]) := by
  let create (s : System) := s.next (.request ((Operation.createFile [97, 47, 47, 98]).event (fromClient 1)) { first := 8 } [])
  obtain ⟨s, ran, after⟩ := exists_ok (r := start.runNode oneWriter)
    (f := fun s => (create s).toOption.any answeredCreated) (by decide +kernel)
  obtain ⟨s', stepped, seen⟩ := exists_ok after
  have creates : Creates [97, 47, 47, 98] { first := 8 } s s' :=
    ⟨fromClient 1, [], _, stepped, of_decide_eq_true seen, ⟨[], rfl⟩⟩
  exact ⟨s, s', ran, creates,
    (operations_agree ⟨⟨rfl, rfl, rfl⟩, rfl, rfl⟩ (by decide) ran creates).2.2 (by decide)⟩

/-- The path is refused as a wrong one. -/
def refusesStat (p : Bytes) (s : System) : Bool :=
  (s.next (.request ((Operation.stat p).event (fromClient 2)) {} [])).toOption.any fun s' =>
    s'.network.sent.getLast? = some ([99], ClientProtocol.encodeStatResponse 2
      { status := .inputError, stat := noStat, context := fromClient 2 })

/-- `"./a"` is created and has no status. -/
theorem operations_disagree : ∃ s', Creates [46, 47, 97] { first := 7 } start s' ∧ refusesStat [46, 47, 97] s' ∧
    ¬ ∃ m, s'.Addresses [46, 47, 97] m := by
  obtain ⟨s', stepped, seen⟩ := exists_ok
    (r := start.next (.request ((Operation.createFile [46, 47, 97]).event (fromClient 1)) { first := 7 } []))
    (f := fun s' => answeredCreated s' && refusesStat [46, 47, 97] s') (by decide +kernel)
  rw [Bool.and_eq_true] at seen
  refine ⟨s', ⟨fromClient 1, [], _, stepped, of_decide_eq_true seen.1, ⟨[], rfl⟩⟩, seen.2, fun ⟨m, addresses⟩ => ?_⟩
  exact absurd addresses.valid (by decide)

end System

end Dfs
