import Dfs.Metadata.Ownership
import Dfs.Metadata.Sessions

/-!
# Records and sessions agree

A record starts without replicas; a `WriteFile` binds it to two storage nodes, and from then on
every record and session with its object names the same two.
-/

namespace Dfs

open Lib

/-- An object id and two replicas that survive a metadata file. -/
structure NamesClean (x : Bytes) (replicas : NodeId × NodeId) : Prop where
  named : x ≠ []
  objId : NulFree x
  first : NulFree replicas.1
  second : NulFree replicas.2
  small : x.length ≤ maxMessageSize ∧ replicas.1.length ≤ maxMessageSize ∧ replicas.2.length ≤ maxMessageSize

theorem NamesClean.record {m : FileMetadata} (clean : NamesClean m.objId m.replicaLocations) : m.Clean := by
  obtain ⟨small, small₁, small₂⟩ := clean.small
  refine ⟨clean.objId, clean.first, clean.second, ?_⟩
  simp only [maxMessageSize] at small small₁ small₂
  omega

/-- An id as a handshake takes it: not empty, without NUL bytes, and from a frame. -/
def NodeClean (node : NodeId) : Prop := node ≠ [] ∧ NulFree node ∧ node.length ≤ maxMessageSize

theorem NamesClean.bind {x : Bytes} {r r' : NodeId × NodeId} (clean : NamesClean x r) (clean₁ : NodeClean r'.1)
    (clean₂ : NodeClean r'.2) : NamesClean x r' :=
  ⟨clean.named, clean.objId, clean₁.2.1, clean₂.2.1, clean.small.1, clean₁.2.2, clean₂.2.2⟩

/-- A record that no check for corrupt metadata turns away. -/
structure RecordSound (m : FileMetadata) : Prop where
  bound : m.replicaLocations = ([], []) ∨
    m.replicaLocations.1 ≠ [] ∧ m.replicaLocations.2 ≠ [] ∧ m.replicaLocations.1 ≠ m.replicaLocations.2
  sized : m.size ≠ 0 → m.replicaLocations ≠ ([], [])
  counted : (chunksOf m.size).toNat ≤ 0xffffffff

namespace MetadataWorker

open MetadataStore

variable {w w' : MetadataWorker} {env : Env} {x x' : Bytes} {r r' : NodeId × NodeId} {fresh rest : List Bytes}

/-- A record or a session has the object `x` and the replicas `r`. -/
inductive Names (w : MetadataWorker) : Bytes → NodeId × NodeId → Prop where
  | record (k : FilePath) (m : FileMetadata) (found : w.store.data.lookup k = some m) :
      Names w m.objId m.replicaLocations
  | write (context : RequestContext) (write : PendingWrite) (found : w.findWrite context = some write) :
      Names w write.objectId write.replicas
  | read (context : RequestContext) (read : PendingRead) (found : w.findRead context = some read) :
      Names w read.objectId read.replicas

/-- No other record has the object of a record without replicas. -/
def Alone (data : Assoc FilePath FileMetadata) : Prop :=
  Apart (fun m m' => m.objId = m'.objId → m.replicaLocations ≠ ([], [])) data

structure Coherent (w : MetadataWorker) (fresh : List Bytes) : Prop where
  records : ∀ k m, w.store.data.lookup k = some m → RecordSound m
  sessions : w.SessionsSound
  agree : ∀ x r r', w.Names x r → w.Names x r' → r = r'
  alone : Alone w.store.data
  unused : ∀ x r, w.Names x r → x ∉ fresh
  clean : ∀ x r, w.Names x r → NamesClean x r

theorem Coherent.fewer (coherent : w.Coherent fresh) (sub : rest ⊆ fresh) : w.Coherent rest where
  records := coherent.records
  sessions := coherent.sessions
  agree := coherent.agree
  alone := coherent.alone
  unused x r names mem := coherent.unused x r names (sub mem)
  clean := coherent.clean

/-- Nothing new is named. -/
theorem Coherent.within (coherent : w.Coherent fresh) (names : ∀ x r, w'.Names x r → w.Names x r)
    (records : ∀ k m, w'.store.data.lookup k = some m → RecordSound m) (sessions : w'.SessionsSound)
    (alone : Alone w'.store.data) : w'.Coherent fresh where
  records := records
  sessions := sessions
  agree x r r' h h' := coherent.agree x r r' (names x r h) (names x r' h')
  alone := alone
  unused x r h := coherent.unused x r (names x r h)
  clean x r h := coherent.clean x r (names x r h)

/-- An object gets its replicas, and nothing else is new. -/
theorem Coherent.replace (coherent : w.Coherent fresh) (names : ∀ x' r', w'.Names x' r' →
      x' = x ∧ r' = r ∨ x' ≠ x ∧ w.Names x' r')
    (records : ∀ k m, w'.store.data.lookup k = some m → RecordSound m) (sessions : w'.SessionsSound)
    (alone : Alone w'.store.data) (unused : x ∉ fresh) (clean : NamesClean x r) : w'.Coherent fresh where
  records := records
  sessions := sessions
  agree x₁ r₁ r₂ h₁ h₂ := by
    rcases names x₁ r₁ h₁ with ⟨here, rfl⟩ | ⟨elsewhere, before₁⟩
    · rcases names x₁ r₂ h₂ with ⟨-, rfl⟩ | ⟨elsewhere, -⟩
      · rfl
      · exact absurd here elsewhere
    · rcases names x₁ r₂ h₂ with ⟨here, -⟩ | ⟨-, before₂⟩
      · exact absurd here elsewhere
      · exact coherent.agree x₁ r₁ r₂ before₁ before₂
  alone := alone
  unused x₁ r₁ h := by
    rcases names x₁ r₁ h with ⟨rfl, -⟩ | ⟨-, before⟩
    · exact unused
    · exact coherent.unused x₁ r₁ before
  clean x₁ r₁ h := by
    rcases names x₁ r₁ h with ⟨rfl, rfl⟩ | ⟨-, before⟩
    · exact clean
    · exact coherent.clean x₁ r₁ before

/-- Where a record has no replicas, nothing else names its object. -/
theorem Coherent.named_once {k : FilePath} {m : FileMetadata} (coherent : w.Coherent fresh)
    (found : w.store.data.lookup k = some m) (unbound : m.replicaLocations = ([], [])) :
    (∀ k' m', w.store.data.lookup k' = some m' → k' ≠ k → m'.objId ≠ m.objId) ∧
      ∀ r, w.Names m.objId r → r = ([], []) := by
  refine ⟨fun k' m' found' elsewhere same => ?_, fun r names => ?_⟩
  · exact coherent.alone k k' m m' found found' (Ne.symm elsewhere) same.symm unbound
  · rw [← unbound]
    exact coherent.agree _ _ _ names (.record k m found)

theorem SessionSound.replicas_ne {fileSize : UInt64} {chunkCount nextChunk : UInt32}
    (sound : SessionSound fileSize chunkCount nextChunk r) : r ≠ ([], []) := fun none => by
  have bound := sound.bound.1
  rw [none] at bound
  exact bound rfl

/-! ## Changes of the tables -/

section Change

variable {k : FilePath} {m : FileMetadata}

/-- The records stay, and the sessions name what was named. -/
theorem Coherent.keep (coherent : w.Coherent fresh) (data : w'.store.data = w.store.data)
    (writes : ∀ context write, w'.findWrite context = some write → w.Names write.objectId write.replicas)
    (reads : ∀ context read, w'.findRead context = some read → w.Names read.objectId read.replicas)
    (sessions : w'.SessionsSound) : w'.Coherent fresh := by
  refine coherent.within (fun x r names => ?_) (data ▸ coherent.records) sessions (data ▸ coherent.alone)
  cases names with
  | record k m found => exact .record k m (data ▸ found)
  | write context write found => exact writes context write found
  | read context read found => exact reads context read found

/-- A record is put whose object is named already. -/
theorem Coherent.put (coherent : w.Coherent fresh) (data : w'.store.data = w.store.data.insert k m)
    (sound : RecordSound m) (named : w.Names m.objId m.replicaLocations)
    (same : m.replicaLocations = ([], []) → ∃ m₀, w.store.data.lookup k = some m₀ ∧ m₀.objId = m.objId)
    (writes : ∀ context write, w'.findWrite context = some write → w.Names write.objectId write.replicas)
    (reads : ∀ context read, w'.findRead context = some read → w.Names read.objectId read.replicas)
    (sessions : w'.SessionsSound) : w'.Coherent fresh := by
  refine coherent.within (fun x r names => ?_) (fun k' m' found => ?_) sessions ?_
  · cases names with
    | record k' m' found =>
        rw [data, Assoc.lookup_insert_ite] at found
        split at found
        · cases found
          exact named
        · exact .record k' m' found
    | write context write found => exact writes context write found
    | read context read found => exact reads context read found
  · rw [data, Assoc.lookup_insert_ite] at found
    split at found
    · cases found
      exact sound
    · exact coherent.records k' m' found
  · rw [data]
    refine Apart.insert coherent.alone fun k' m' found elsewhere => ?_
    -- a record without replicas has been at `k` with its object before
    have single : m.replicaLocations = ([], []) → m'.objId ≠ m.objId := fun unbound => by
      obtain ⟨m₀, found₀, objId⟩ := same unbound
      have unbound₀ : m₀.replicaLocations = ([], []) := by
        rw [← unbound]
        exact coherent.agree m.objId _ _ (objId ▸ .record k m₀ found₀) named
      rw [← objId]
      exact (coherent.named_once found₀ unbound₀).1 k' m' found elsewhere
    refine ⟨fun objId unbound => single unbound objId.symm, fun objId unbound => single ?_ objId⟩
    rw [← unbound]
    exact coherent.agree m.objId _ _ named (objId ▸ .record k' m' found)

/-- A record is put that alone names its object. -/
theorem Coherent.bind (coherent : w.Coherent fresh) (data : w'.store.data = w.store.data.insert k m)
    (sound : RecordSound m)
    (others : ∀ k' m', w.store.data.lookup k' = some m' → k' ≠ k → m'.objId ≠ m.objId)
    (writes : ∀ context write, w'.findWrite context = some write →
      write.objectId = m.objId ∧ write.replicas = m.replicaLocations ∨
        write.objectId ≠ m.objId ∧ w.Names write.objectId write.replicas)
    (reads : ∀ context read, w'.findRead context = some read →
      read.objectId ≠ m.objId ∧ w.Names read.objectId read.replicas)
    (sessions : w'.SessionsSound) (unused : m.objId ∉ fresh) (clean : NamesClean m.objId m.replicaLocations) :
    w'.Coherent fresh := by
  refine coherent.replace (fun x r names => ?_) (fun k' m' found => ?_) sessions ?_ unused clean
  · cases names with
    | record k' m' found =>
        rw [data, Assoc.lookup_insert_ite] at found
        split at found
        · cases found
          exact Or.inl ⟨rfl, rfl⟩
        · rename_i elsewhere
          exact Or.inr ⟨others k' m' found elsewhere, .record k' m' found⟩
    | write context write found => exact writes context write found
    | read context read found => exact Or.inr (reads context read found)
  · rw [data, Assoc.lookup_insert_ite] at found
    split at found
    · cases found
      exact sound
    · exact coherent.records k' m' found
  · rw [data]
    refine Apart.insert coherent.alone fun k' m' found elsewhere => ?_
    have apart := others k' m' found elsewhere
    exact ⟨fun same => absurd same.symm apart, fun same => absurd same apart⟩

end Change

/-! ## One request -/

/-- The storage nodes that count as available have come through a handshake. -/
def NodesClean (w : MetadataWorker) : Prop := ∀ node, w.isAvailable node = true → NodeClean node

theorem generated_clean (env : Env) {replicas : NodeId × NodeId} (first : NulFree replicas.1) (second : NulFree replicas.2)
    (small₁ : replicas.1.length ≤ maxMessageSize) (small₂ : replicas.2.length ≤ maxMessageSize) :
    NamesClean env.objectId replicas := by
  have length : env.objectId.length = 36 := ObjectId.length_generate
  refine ⟨fun empty => ?_, ObjectId.not_mem_generate (by simp [ObjectId.Plain]), first, second, ?_, small₁, small₂⟩
  · rw [empty] at length
    cases length
  · rw [length]
    decide

theorem generated_clean_unbound (env : Env) : NamesClean env.objectId ([], []) :=
  generated_clean env (by simp [NulFree]) (by simp [NulFree]) (by simp) (by simp)

theorem recordSound_empty {m : FileMetadata} (empty : m.size = 0) (bound : m.replicaLocations = ([], []) ∨
    m.replicaLocations.1 ≠ [] ∧ m.replicaLocations.2 ≠ [] ∧ m.replicaLocations.1 ≠ m.replicaLocations.2) :
    RecordSound m :=
  ⟨bound, fun sized => absurd empty sized, by rw [empty]; decide⟩

section Step

variable {event : ClientEvent}

/-- An id from the generator names nothing yet. -/
theorem Coherent.ne_fresh (coherent : w.Coherent fresh) (mem : x' ∈ fresh) (names : w.Names x r) : x ≠ x' := fun same =>
  coherent.unused x r names (same ▸ mem)

theorem same_findWrite (writes : w'.pendingWrites = w.pendingWrites) (context : RequestContext) :
    w'.findWrite context = w.findWrite context := by
  rw [findWrite, writes, findWrite]

theorem names_findWrite (writes : w'.pendingWrites = w.pendingWrites) (context : RequestContext) (write : PendingWrite)
    (found : w'.findWrite context = some write) : w.Names write.objectId write.replicas :=
  .write context write ((same_findWrite writes context).symm.trans found)

/-- A record of an object that has just been generated, without any session. -/
theorem Coherent.bind_fresh {k : FilePath} {m : FileMetadata} (coherent : w.Coherent (m.objId :: rest))
    (once : m.objId ∉ rest) (data : w'.store.data = w.store.data.insert k m) (sound : RecordSound m)
    (writes : ∀ context write, w'.findWrite context = some write →
      write.objectId = m.objId ∧ write.replicas = m.replicaLocations ∨ w.Names write.objectId write.replicas)
    (reads : ∀ context read, w'.findRead context = some read → w.Names read.objectId read.replicas)
    (sessions : w'.SessionsSound) (clean : NamesClean m.objId m.replicaLocations) : w'.Coherent rest := by
  have fresh : ∀ {x r}, w.Names x r → x ≠ m.objId := fun names => coherent.ne_fresh List.mem_cons_self names
  refine (coherent.fewer (List.subset_cons_self _ _)).bind data sound (fun k' m' found _ => fresh (.record k' m' found))
    (fun context write found => ?_) (fun context read found => ?_) sessions once clean
  · rcases writes context write found with new | names
    · exact Or.inl new
    · exact Or.inr ⟨fresh names, names⟩
  · have names := reads context read found
    exact ⟨fresh names, names⟩

theorem WriteFileStep.coherent {req : WriteFileRequest} {status : ClientStatus}
    (step : WriteFileStep env req w w' status) (coherent : w.Coherent (env.objectId :: rest))
    (once : env.objectId ∉ rest) (nodes : w.NodesClean)
    (reads : ∀ context read, w'.findRead context = some read → w.Names read.objectId read.replicas)
    (sessions : w'.SessionsSound) : w'.Coherent rest := by
  have before : w.Coherent rest := coherent.fewer (List.subset_cons_self _ _)
  cases step with
  | refused _ bad data writes => exact before.keep data (names_findWrite writes) reads sessions
  | emptied m m' target count objId replicas size data writes =>
      obtain ⟨-, found | ⟨-, rfl⟩⟩ := target
      · have sound : RecordSound m' := recordSound_empty size (replicas ▸ (coherent.records _ m found).bound)
        refine before.put data sound ?_ (fun _ => ⟨m, found, objId.symm⟩) (names_findWrite writes) reads sessions
        rw [objId, replicas]
        exact .record _ m found
      · have sound : RecordSound m' := recordSound_empty size (Or.inl replicas)
        replace objId : m'.objId = env.objectId := objId
        rw [← objId] at coherent once
        refine coherent.bind_fresh once data sound (fun context write found => Or.inr ?_) reads sessions ?_
        · exact names_findWrite writes context write found
        · rw [objId, replicas]
          exact generated_clean_unbound env
  | opened m target count sized bound data free writes =>
      obtain ⟨-, found | ⟨-, rfl⟩⟩ := target
      · refine before.keep data (fun context write pending => ?_) reads sessions
        rw [findWrite, writes, putWrite, Nested.find_put] at pending
        split at pending
        · cases pending
          exact .record _ m found
        · exact .write context write pending
      · exact absurd rfl bound.1
  | bound _ m m' target count sized unbound selected objId size data writes =>
      obtain ⟨apart, available₁, available₂⟩ := selectReplicas_spec selected
      have clean₁ := nodes _ available₁
      have clean₂ := nodes _ available₂
      have two : m'.replicaLocations.1 ≠ [] ∧ m'.replicaLocations.2 ≠ [] ∧
        m'.replicaLocations.1 ≠ m'.replicaLocations.2 := ⟨clean₁.1, clean₂.1, apart⟩
      -- the session beside the record, if there is one, is bound to the same nodes
      have pending : ∀ context write, w'.findWrite context = some write →
          write.objectId = m'.objId ∧ write.replicas = m'.replicaLocations ∨ w.Names write.objectId write.replicas :=
        fun context write found => by
          rcases writes with ⟨-, writes⟩ | ⟨-, -, writes⟩
          · exact Or.inr (names_findWrite writes context write found)
          · rw [findWrite, writes, putWrite, Nested.find_put] at found
            split at found
            · cases found
              exact Or.inl ⟨objId.symm, rfl⟩
            · exact Or.inr (.write context write found)
      obtain ⟨-, found | ⟨-, rfl⟩⟩ := target
      · have empty : m'.size = 0 := by
          rw [size]
          by_contra sized
          exact (coherent.records _ m found).sized sized unbound
        have named : w.Names m.objId ([], []) := unbound ▸ .record _ m found
        obtain ⟨others, only⟩ := coherent.named_once found unbound
        rw [← objId] at others only named
        refine before.bind data (recordSound_empty empty (Or.inr two)) others (fun context write found => ?_)
          (fun context read found => ?_) sessions (before.unused _ _ named) ?_
        · rcases pending context write found with new | names
          · exact Or.inl new
          · by_cases same : write.objectId = m'.objId
            · exact absurd (only _ (same ▸ names)) (SessionSound.replicas_ne (sessions.writes _ _ write found))
            · exact Or.inr ⟨same, names⟩
        · have names := reads context read found
          refine ⟨fun same => ?_, names⟩
          exact absurd (only _ (same ▸ names)) (SessionSound.replicas_ne (sessions.reads _ _ read found))
        · exact (coherent.clean _ _ named).bind clean₁ clean₂
      · replace objId : m'.objId = env.objectId := objId
        rw [← objId] at coherent once
        refine coherent.bind_fresh once data (recordSound_empty size (Or.inr two)) pending reads sessions ?_
        rw [objId]
        exact generated_clean env clean₁.2.1 clean₂.2.1 clean₁.2.2 clean₂.2.2

theorem names_discard {context c : RequestContext} {write : PendingWrite}
    (writes : w'.pendingWrites = (w.discardWrite context).pendingWrites) (found : w'.findWrite c = some write) :
    w.Names write.objectId write.replicas :=
  .write c write (findWrite_discardWrite writes found)

theorem WriteChunkStep.coherent {req : WriteChunkRequest} {status : ClientStatus}
    (step : WriteChunkStep req w w' status) (coherent : w.Coherent fresh)
    (reads : ∀ context read, w'.findRead context = some read → w.Names read.objectId read.replicas)
    (sessions : w'.SessionsSound) : w'.Coherent fresh := by
  cases step with
  | unknown none same =>
      exact coherent.keep (congrArg MetadataStore.data same.store) (names_findWrite same.pendingWrites) reads sessions
  | rejected write found bad data writes =>
      exact coherent.keep data (fun _ _ found => names_discard writes found) reads sessions
  | failed write found due data writes =>
      exact coherent.keep data (fun _ _ found => names_discard writes found) reads sessions
  | more write found due part data writes =>
      refine coherent.keep data (fun context write' pending => ?_) reads sessions
      rw [findWrite, writes, putWrite, Nested.find_put] at pending
      split at pending
      · cases pending
        exact .write _ write found
      · exact .write context write' pending
  | finished _ write found due last data writes =>
      rcases data with ⟨-, data⟩ | ⟨-, -, m, objId, size, replicas, data⟩
      · exact coherent.keep data (fun _ _ found => names_discard writes found) reads sessions
      · have session := coherent.sessions.writes _ _ write found
        have bound : m.replicaLocations ≠ ([], []) := replicas ▸ SessionSound.replicas_ne session
        have sound : RecordSound m := by
          refine ⟨Or.inr (replicas ▸ session.bound), fun _ => bound, ?_⟩
          rw [size, session.count, UInt32.toNat_toUInt64]
          have small := write.chunkCount.toNat_lt
          omega
        refine coherent.put data sound ?_ (fun unbound => absurd unbound bound)
          (fun _ _ found => names_discard writes found) reads sessions
        rw [objId, replicas]
        exact .write _ write found

/-- Every record after a `rename` has been there before, if at another path. -/
theorem rename_origin {store : MetadataStore} {f g : Bytes} {k : FilePath} {m : FileMetadata}
    (found : (store.rename f g).2.data.lookup k = some m) :
    ∃ k₀ m₀, store.data.lookup k₀ = some m₀ ∧ m₀.SameObject m := by
  rcases renamed : store.rename f g with ⟨result, store'⟩
  rw [renamed] at found
  rcases rename_data renamed with same | ⟨entries, r, -, moved⟩
  · exact ⟨k, m, same ▸ found, ⟨rfl, rfl, rfl⟩⟩
  · exact moveEntries_origin moved found

theorem Coherent.rename {req : RenameRequest} (coherent : w.Coherent fresh)
    (data : w'.store.data = (w.store.rename req.oldPath req.newPath).2.data)
    (writes : w'.pendingWrites = w.pendingWrites)
    (reads : ∀ context read, w'.findRead context = some read → w.Names read.objectId read.replicas)
    (sessions : w'.SessionsSound) : w'.Coherent fresh := by
  rcases renamed : w.store.rename req.oldPath req.newPath with ⟨result, store⟩
  simp only [renamed] at data
  rcases rename_data renamed with same | ⟨entries, r, -, moved⟩
  · exact coherent.keep (data.trans same) (names_findWrite writes) reads sessions
  rw [← data] at moved
  have origin : ∀ {k m}, w'.store.data.lookup k = some m → ∃ k₀ m₀, w.store.data.lookup k₀ = some m₀ ∧ m₀.SameObject m :=
    fun found => moveEntries_origin moved found
  refine coherent.within (fun x r names => ?_) (fun k m found => ?_) sessions ?_
  · cases names with
    | record k m found =>
        obtain ⟨k₀, m₀, found₀, same⟩ := origin found
        rw [same.objId, same.replicaLocations]
        exact .record k₀ m₀ found₀
    | write context write found => exact names_findWrite writes context write found
    | read context read found => exact reads context read found
  · obtain ⟨k₀, m₀, found₀, same⟩ := origin found
    have sound := coherent.records k₀ m₀ found₀
    exact ⟨same.replicaLocations ▸ sound.bound, fun sized => same.replicaLocations ▸ sound.sized (same.size ▸ sized),
      same.size ▸ sound.counted⟩
  · exact moveEntries_apart (fun _ _ _ => ⟨id, id⟩) moved coherent.alone

/-- One request other than a `CreateFile` keeps records and sessions in agreement. -/
theorem TableStep.coherent (step : TableStep env w w' event) (coherent : w.Coherent (drawn env event ++ rest))
    (once : (drawn env event ++ rest).Nodup) (nodes : w.NodesClean)
    (created : ∀ req m, event = .createFile req → w'.store.data = w.store.data.insert (key req.path) m →
      w.store.data.lookup (key req.path) = none → m.size = 0 ∧ m.replicaLocations = ([], []))
    (reads : ∀ context read, w'.findRead context = some read → w.Names read.objectId read.replicas)
    (sessions : w'.SessionsSound) : w'.Coherent rest := by
  have before : w.Coherent rest := coherent.fewer (List.subset_append_right _ _)
  cases step with
  | still _ data writes => exact before.keep data (names_findWrite writes) reads sessions
  | created req m valid free objId data writes =>
      rw [drawn, List.singleton_append] at coherent once
      obtain ⟨size, unbound⟩ := created req m rfl data free
      rw [← objId] at coherent once
      refine coherent.bind_fresh (List.nodup_cons.1 once).1 data (recordSound_empty size (Or.inl unbound))
        (fun context write found => Or.inr (names_findWrite writes context write found)) reads sessions ?_
      rw [objId, unbound]
      exact generated_clean_unbound env
  | writeFile req status step =>
      rw [drawn, List.singleton_append] at coherent once
      exact step.coherent coherent (List.nodup_cons.1 once).1 nodes reads sessions
  | writeChunk req status step => exact step.coherent before reads sessions
  | removed req data writes =>
      refine before.within (fun x r names => ?_) (fun k m found => ?_) sessions ?_
      · cases names with
        | record k m found =>
            rw [data, Assoc.lookup_erase_ite] at found
            split at found
            · cases found
            · exact .record k m found
        | write context write found => exact names_findWrite writes context write found
        | read context read found => exact reads context read found
      · rw [data, Assoc.lookup_erase_ite] at found
        split at found
        · cases found
        · exact before.records k m found
      · rw [data]
        exact Apart.erase before.alone _
  | renamed req data writes => exact before.rename data writes reads sessions

/-! ## Names that survive a metadata file -/

/-- Every object id and every replica in use survives a metadata file. -/
def AllClean (w : MetadataWorker) : Prop := ∀ x r, w.Names x r → NamesClean x r

theorem Names.same (data : w'.store.data = w.store.data) (writes : w'.pendingWrites = w.pendingWrites)
    (reads : w'.pendingReads = w.pendingReads) (names : w'.Names x r) : w.Names x r := by
  cases names with
  | record k m found => exact .record k m (data ▸ found)
  | write context write found => exact names_findWrite writes context write found
  | read context read found =>
      rw [findRead, reads] at found
      exact .read context read found

theorem Names.withOutcomes {outcomes : List Outcome} (names : (w.withOutcomes outcomes).Names x r) : w.Names x r :=
  @Names.same w (w.withOutcomes outcomes) x r rfl rfl rfl names

/-- `Q` holds of every object in use and its replicas. -/
def All (Q : Bytes → NodeId × NodeId → Prop) (w : MetadataWorker) : Prop := ∀ x r, w.Names x r → Q x r

/-- `Q` holds of a generated object, and still where an object is bound to available nodes. -/
structure Allows (env : Env) (w : MetadataWorker) (Q : Bytes → NodeId × NodeId → Prop) : Prop where
  generated : Q env.objectId ([], [])
  bound : ∀ x r r', Q x r → w.isAvailable r'.1 = true → w.isAvailable r'.2 = true → Q x r'

/-- As `Allows`, where only pairs of different nodes count. -/
structure Admits (env : Env) (w : MetadataWorker) (Q : Bytes → NodeId × NodeId → Prop) : Prop where
  generated : Q env.objectId ([], [])
  bound : ∀ x r r', Q x r → w.isAvailable r'.1 = true → w.isAvailable r'.2 = true → r'.1 ≠ r'.2 → Q x r'

theorem Allows.admits {Q : Bytes → NodeId × NodeId → Prop} (allows : w.Allows env Q) : w.Admits env Q :=
  ⟨allows.generated, fun x r r' holds first second _ => allows.bound x r r' holds first second⟩

theorem NodesClean.allows (nodes : w.NodesClean) (env : Env) : w.Allows env NamesClean :=
  ⟨generated_clean_unbound env, fun _ _ _ clean first second => clean.bind (nodes _ first) (nodes _ second)⟩

variable {Q : Bytes → NodeId × NodeId → Prop}

/-- The record a `WriteFile` works with is one of the store or has the generated id. -/
theorem All.target {path : Bytes} {m : FileMetadata} (all : w.All Q) (generated : Q env.objectId ([], []))
    (target : w.target env path m) : Q m.objId m.replicaLocations := by
  obtain ⟨-, found | ⟨-, rfl⟩⟩ := target
  · exact all _ _ (.record _ m found)
  · exact generated

theorem All.of (all : w.All Q) (records : ∀ k m, w'.store.data.lookup k = some m → Q m.objId m.replicaLocations)
    (writes : ∀ context write, w'.findWrite context = some write → Q write.objectId write.replicas)
    (reads : ∀ context read, w'.findRead context = some read → w.Names read.objectId read.replicas) : w'.All Q := by
  intro x r names
  cases names with
  | record k m found => exact records k m found
  | write context write found => exact writes context write found
  | read context read found => exact all _ _ (reads context read found)

theorem All.records_same (all : w.All Q) (data : w'.store.data = w.store.data) (k : FilePath) (m : FileMetadata)
    (found : w'.store.data.lookup k = some m) : Q m.objId m.replicaLocations :=
  all _ _ (.record k m (data ▸ found))

theorem All.records_put {k₀ : FilePath} {m₀ : FileMetadata} (all : w.All Q)
    (data : w'.store.data = w.store.data.insert k₀ m₀) (new : Q m₀.objId m₀.replicaLocations) (k : FilePath)
    (m : FileMetadata) (found : w'.store.data.lookup k = some m) : Q m.objId m.replicaLocations := by
  rw [data, Assoc.lookup_insert_ite] at found
  split at found
  · cases found
    exact new
  · exact all _ _ (.record k m found)

theorem All.writes_same (all : w.All Q) (writes : w'.pendingWrites = w.pendingWrites) (context : RequestContext)
    (write : PendingWrite) (found : w'.findWrite context = some write) : Q write.objectId write.replicas :=
  all _ _ (names_findWrite writes context write found)

theorem All.writes_discard {c : RequestContext} (all : w.All Q)
    (writes : w'.pendingWrites = (w.discardWrite c).pendingWrites) (context : RequestContext) (write : PendingWrite)
    (found : w'.findWrite context = some write) : Q write.objectId write.replicas :=
  all _ _ (names_discard writes found)

theorem All.writes_put {c : RequestContext} {put : PendingWrite} (all : w.All Q)
    (writes : w'.pendingWrites = (w.putWrite c put).pendingWrites) (new : Q put.objectId put.replicas)
    (context : RequestContext) (write : PendingWrite) (found : w'.findWrite context = some write) :
    Q write.objectId write.replicas := by
  rw [findWrite, writes, putWrite, Nested.find_put] at found
  split at found
  · cases found
    exact new
  · exact all _ _ (.write context write found)

theorem WriteFileStep.all {req : WriteFileRequest} {status : ClientStatus}
    (step : WriteFileStep env req w w' status) (all : w.All Q) (admits : w.Admits env Q)
    (reads : ∀ context read, w'.findRead context = some read → w.Names read.objectId read.replicas) : w'.All Q := by
  cases step with
  | refused _ bad data writes => exact all.of (all.records_same data) (all.writes_same writes) reads
  | emptied m m' target count objId replicas size data writes =>
      refine all.of (all.records_put data ?_) (all.writes_same writes) reads
      rw [objId, replicas]
      exact all.target admits.generated target
  | opened m target count sized bound data free writes =>
      exact all.of (all.records_same data) (all.writes_put writes (all.target admits.generated target)) reads
  | bound _ m m' target count sized unbound selected objId size data writes =>
      obtain ⟨apart, available₁, available₂⟩ := selectReplicas_spec selected
      have new : Q m.objId m'.replicaLocations :=
        admits.bound _ _ _ (all.target admits.generated target) available₁ available₂ apart
      refine all.of (all.records_put data (objId.symm ▸ new)) ?_ reads
      rcases writes with ⟨-, writes⟩ | ⟨-, -, writes⟩
      · exact all.writes_same writes
      · exact all.writes_put writes new

theorem WriteChunkStep.all {req : WriteChunkRequest} {status : ClientStatus}
    (step : WriteChunkStep req w w' status) (all : w.All Q)
    (reads : ∀ context read, w'.findRead context = some read → w.Names read.objectId read.replicas) : w'.All Q := by
  cases step with
  | unknown none same =>
      exact all.of (all.records_same (congrArg MetadataStore.data same.store)) (all.writes_same same.pendingWrites) reads
  | rejected write found bad data writes => exact all.of (all.records_same data) (all.writes_discard writes) reads
  | failed write found due data writes => exact all.of (all.records_same data) (all.writes_discard writes) reads
  | more write found due part data writes =>
      exact all.of (all.records_same data) (all.writes_put writes (all _ _ (.write _ write found))) reads
  | finished _ write found due last data writes =>
      rcases data with ⟨-, data⟩ | ⟨-, -, m, objId, size, replicas, data⟩
      · exact all.of (all.records_same data) (all.writes_discard writes) reads
      · refine all.of (all.records_put data ?_) (all.writes_discard writes) reads
        rw [objId, replicas]
        exact all _ _ (.write _ write found)

/-- One request keeps what holds of all names, whether or not generated ids repeat. -/
theorem TableStep.all (step : TableStep env w w' event) (all : w.All Q) (admits : w.Admits env Q)
    (created : ∀ req m, event = .createFile req → w'.store.data = w.store.data.insert (key req.path) m →
      w.store.data.lookup (key req.path) = none → m.size = 0 ∧ m.replicaLocations = ([], []))
    (reads : ∀ context read, w'.findRead context = some read → w.Names read.objectId read.replicas) : w'.All Q := by
  cases step with
  | still _ data writes => exact all.of (all.records_same data) (all.writes_same writes) reads
  | created req m valid free objId data writes =>
      obtain ⟨-, unbound⟩ := created req m rfl data free
      refine all.of (all.records_put data ?_) (all.writes_same writes) reads
      rw [objId, unbound]
      exact admits.generated
  | writeFile req status step => exact step.all all admits reads
  | writeChunk req status step => exact step.all all reads
  | removed req data writes =>
      refine all.of (fun k m found => ?_) (all.writes_same writes) reads
      rw [data, Assoc.lookup_erase_ite] at found
      split at found
      · cases found
      · exact all _ _ (.record k m found)
  | renamed req data writes =>
      refine all.of (fun k m found => ?_) (all.writes_same writes) reads
      obtain ⟨k₀, m₀, found₀, same⟩ := rename_origin (data ▸ found)
      rw [same.objId, same.replicaLocations]
      exact all _ _ (.record k₀ m₀ found₀)

end Step

end MetadataWorker

namespace MetadataState

open MetadataWorker

variable {ν : Type} [Network ν] {s s' : MetadataState ν} {env : Env} {rest : List Bytes} {event : ClientEvent}

omit [Network ν] in
theorem ReadOrigin.names {w : MetadataWorker} {read : PendingRead} (origin : w.ReadOrigin read) :
    w.Names read.objectId read.replicas := by
  rcases origin with ⟨k, m, found, objectId, replicas⟩ | ⟨context, read₀, found, objectId, replicas⟩
  · rw [objectId, replicas]
    exact .record k m found
  · rw [objectId, replicas]
    exact .read context read₀ found

/-- A file that has just been created is empty and has no replicas. -/
theorem createFile_empty {req : CreateFileRequest} {m : FileMetadata}
    (data : (s.handleCreateFile env req).worker.store.data = s.worker.store.data.insert (MetadataStore.key req.path) m)
    (free : s.worker.store.data.lookup (MetadataStore.key req.path) = none) :
    m.size = 0 ∧ m.replicaLocations = ([], []) := by
  rcases added : MetadataStore.addMetadata env.now req.path
    { path := req.path, size := 0, objId := env.objectId, replicaLocations := ([], []) } s.worker.store with ⟨r, store⟩
  obtain ⟨failed, done⟩ := MetadataStore.addMetadata_data added
  simp only [handleCreateFile, onStore, added, respond, send] at data
  have here : store.data.lookup (MetadataStore.key req.path) = some m := by
    rw [data, Assoc.lookup_insert_ite, if_pos rfl]
  have old : store.data = s.worker.store.data → False := fun same => by
    rw [same, free] at here
    cases here
  cases r with
  | error e => exact (old (failed e rfl)).elim
  | ok _ =>
      obtain ⟨-, same | ⟨-, m', object, inserted⟩⟩ := done rfl
      · exact (old same).elim
      · rw [inserted, Assoc.lookup_insert_ite, if_pos rfl] at here
        cases here
        exact ⟨object.size, object.replicaLocations⟩

theorem handle_readNames (h : s.handle env event = (.ok (), s'))
    (context : RequestContext) (read : PendingRead) (found : s'.worker.findRead context = some read) :
    (s.worker.withOutcomes env.outcomes).Names read.objectId read.replicas := by
  have origin : s.worker.ReadOrigin read :=
    ((handle_reads h).mono fun _ both => both.2).all
      (fun client id read₀ found₀ => Or.inr ⟨⟨id, ⟨client, .client⟩⟩, read₀, found₀, rfl, rfl⟩) found
  exact ReadOrigin.names (w := s.worker.withOutcomes env.outcomes) origin

/-- One request keeps records and sessions in agreement. -/
theorem handle_coherent (coherent : s.worker.Coherent (drawn env event ++ rest)) (once : (drawn env event ++ rest).Nodup)
    (nodes : s.worker.NodesClean) (h : s.handle env event = (.ok (), s')) : s'.worker.Coherent rest := by
  have named : s.worker.Named := fun node available => (nodes node available).1
  have sessions := (handle_sessions coherent.sessions named h).1
  have start : (s.worker.withOutcomes env.outcomes).Coherent (drawn env event ++ rest) :=
    coherent.keep rfl (fun context write found => .write context write found)
      (fun context read found => .read context read found)
      ⟨coherent.sessions.writes, coherent.sessions.reads, coherent.sessions.writesFilled, coherent.sessions.readsFilled⟩
  refine (handle_step h).coherent start once nodes (fun req m same data free => ?_) (handle_readNames h)
    sessions
  subst same
  cases h
  exact createFile_empty (s := { s with worker := s.worker.withOutcomes env.outcomes }) data free

/-- One request keeps what holds of all names. -/
theorem handle_all {Q : Bytes → NodeId × NodeId → Prop} (all : s.worker.All Q)
    (admits : s.worker.Admits env Q) (h : s.handle env event = (.ok (), s')) : s'.worker.All Q := by
  have start : (s.worker.withOutcomes env.outcomes).All Q := fun x r names => all x r names.withOutcomes
  refine (handle_step h).all start ⟨admits.generated, admits.bound⟩ (fun req m same data free => ?_)
    (handle_readNames h)
  subst same
  cases h
  exact createFile_empty (s := { s with worker := s.worker.withOutcomes env.outcomes }) data free

/-- One request keeps the names clean. -/
theorem handle_allClean (clean : s.worker.AllClean) (nodes : s.worker.NodesClean)
    (h : s.handle env event = (.ok (), s')) : s'.worker.AllClean :=
  handle_all clean (nodes.allows env).admits h

end MetadataState

end Dfs
