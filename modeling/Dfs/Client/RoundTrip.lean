import Dfs.Client.Abandoned
import Dfs.Client.Answered

/-!
# Writing a file and reading it back

`write_file` cuts the file into chunks, the metadata node hands each of them to both replicas, and
`read_file` puts them together again.
-/

namespace Dfs

open Lib

/-! ## A file in chunks -/

section Pieces

variable {b : Bytes} {k n : Nat}

/-- As many chunks of a file, from chunk `k` on. -/
def pieces (b : Bytes) (k n : Nat) : List Bytes := (List.range' k n).map (piece b)

theorem pieces_succ : pieces b k (n + 1) = piece b k :: pieces b (k + 1) n := by
  rw [pieces, List.range'_succ, List.map_cons, pieces]

def chunkNumber (b : Bytes) : Nat := (b.length + (chunkSize - 1)) / chunkSize

theorem chunkNumber_nil : chunkNumber [] = 0 := rfl

theorem chunkNumber_succ (some : b ≠ []) : ∃ left, chunkNumber b = left + 1 := by
  have length := List.length_pos_iff.2 some
  refine Nat.exists_eq_succ_of_ne_zero ?_
  rw [chunkNumber, chunkSize]
  omega

/-- A local file that nobody changes: each read gets the next chunk of it. -/
def LocalFile.holding (b : Bytes) : LocalFile where
  opens := true
  size := .ok (UInt64.ofNat b.length)
  reads := pieces b 0 (chunkNumber b)

theorem holding_size (fits : chunkNumber b < 2 ^ 32) : (UInt64.ofNat b.length).toNat = b.length := by
  rw [chunkNumber, chunkSize] at fits
  exact Nat.mod_eq_of_lt (by omega)

theorem holding_count (fits : chunkNumber b < 2 ^ 32) : (chunksOf (UInt64.ofNat b.length)).toNat = chunkNumber b := by
  rw [chunksOf_toNat, holding_size fits, chunkNumber]

theorem holding_sized (fits : chunkNumber b < 2 ^ 32) :
    chunksOf (UInt64.ofNat b.length) = (chunksOf (UInt64.ofNat b.length)).toUInt32.toUInt64 := by
  apply UInt64.toNat_inj.1
  rw [UInt32.toNat_toUInt64, UInt64.toNat_toUInt32, Nat.mod_eq_of_lt (by rw [holding_count fits]; exact fits)]

theorem read_next {data : Bytes} (rest : List Bytes) :
    Input.read { reads := data :: rest, failed := false } =
      (data.take chunkSize, { reads := rest, failed := decide ((data.take chunkSize).length < chunkSize) }) :=
  if_neg Bool.false_ne_true

/-- Reading the next chunk. A short one is the last. -/
theorem read_piece (rest : List Bytes) :
    Input.read { reads := piece b k :: rest, failed := false } =
      (piece b k, { reads := rest, failed := decide ((piece b k).length < chunkSize) }) := by
  have whole : (piece b k).take chunkSize = piece b k := by rw [piece, List.take_take, Nat.min_self]
  have next := @read_next (piece b k) rest
  rwa [whole] at next

end Pieces

namespace Client

open Dfs.System

variable {c : Client Service} {id : UInt64} {b path : Bytes} {write : PendingWrite} {read : PendingRead} {chunks : List Bytes}

/-! ## `write_file` -/

/-- Each of the chunks is stored while the client waits; the first of them has number `k`. -/
inductive Stores (metadata : NodeId) (id : UInt64) : List Bytes → UInt32 → Service → Prop where
  | done (k : UInt32) (n : Service) : Stores metadata id [] k n
  | chunk {data : Bytes} {rest : List Bytes} {k : UInt32} {n : Service}
      (here : n.Attended SystemEvent.Smooth (Stored (n.context id)))
      (behind : Stores metadata id rest (k + 1) (writeReply metadata id k data n).2) : Stores metadata id (data :: rest) k n

/-- One turn of the loop. -/
theorem writeChunks_turn {left : Nat} (attached : c.Attached)
    (uploading : Uploading (c.network.context id) write chunks c.network.system)
    (flat : chunks.flatten = b.take (write.nextChunk.toNat * chunkSize)) (size : write.fileSize.toNat = b.length)
    (stores : Stores c.metadataNodeId id (pieces b write.nextChunk.toNat (left + 1)) write.nextChunk c.network) :
    ∃ n, writeChunks id (left + 1) write.nextChunk { reads := pieces b write.nextChunk.toNat (left + 1), failed := false } c =
        writeChunks id left (write.nextChunk + 1) { reads := pieces b (write.nextChunk.toNat + 1) left
                                                    failed := decide ((piece b write.nextChunk.toNat).length < chunkSize) }
          { c with network := n } ∧
      Stores c.metadataNodeId id (pieces b (write.nextChunk.toNat + 1) left) (write.nextChunk + 1) n ∧
      Attached { c with network := n } ∧ n.client = c.network.client ∧
      (write.nextChunk + 1 ≠ write.chunkCount → Uploading (c.network.context id) { write with nextChunk := write.nextChunk + 1 }
        (chunks ++ [piece b write.nextChunk.toNat]) n.system) ∧
      (write.nextChunk + 1 = write.chunkCount → Provides write.path b n.system) := by
  have exact := uploading.sound.exact
  have length : (piece b write.nextChunk.toNat).length = (expectedSize write.fileSize write.nextChunk).toNat := by
    rw [piece_length, exact.expected, size]
  have some : piece b write.nextChunk.toNat ≠ [] := List.ne_nil_of_length_pos (length ▸ exact.positive)
  rw [pieces_succ] at stores ⊢
  obtain ⟨⟩ | ⟨here, stores⟩ := stores
  obtain ⟨m, n, received, called, decoded, attached', client, more, last⟩ := writeChunk_called attached uploading length here
  refine ⟨n, ?_, received ▸ stores, attached', client, more, fun final => ?_⟩
  · rw [writeChunks, read_piece]
    dsimp only
    rw [if_neg some, called]
    dsimp only
    rw [decoded]
    dsimp only
    rw [if_neg (not_not.2 rfl), if_neg (not_not.2 rfl)]
  · have whole : (chunks ++ [piece b write.nextChunk.toNat]).flatten = b := by
      rw [List.flatten_append, flat, List.flatten_singleton, take_append_piece, ← exact.next, final]
      have count := chunkCount_toNat uploading.sound.count
      rw [size, chunkSize] at count
      rw [List.take_of_length_le]
      rw [chunkSize]
      omega
    rw [whole, size] at last
    exact last final rfl

/-- From a chunk on that there is, the loop writes the rest of the file. -/
theorem writeChunks_stores (left : Nat) (attached : c.Attached)
    (uploading : Uploading (c.network.context id) write chunks c.network.system)
    (flat : chunks.flatten = b.take (write.nextChunk.toNat * chunkSize)) (size : write.fileSize.toNat = b.length)
    (here : write.nextChunk.toNat + (left + 1) = write.chunkCount.toNat)
    (stores : Stores c.metadataNodeId id (pieces b write.nextChunk.toNat (left + 1)) write.nextChunk c.network) :
    ∃ c', writeChunks id (left + 1) write.nextChunk { reads := pieces b write.nextChunk.toNat (left + 1), failed := false } c =
        (.ok (.ok ()), c') ∧ Provides write.path b c'.network.system := by
  induction left generalizing c write chunks with
  | zero =>
      obtain ⟨n, turn, -, -, -, -, last⟩ := writeChunks_turn attached uploading flat size stores
      rw [turn, writeChunks]
      exact ⟨_, rfl, last (UInt32.toNat_inj.1 (uploading.sound.exact.next.trans here))⟩
  | succ left ih =>
      have next := uploading.sound.exact.next
      obtain ⟨n, turn, stores', attached', client, more, -⟩ := writeChunks_turn attached uploading flat size stores
      have part : write.nextChunk + 1 ≠ write.chunkCount := fun same => by
        rw [← same, next] at here
        omega
      have full : ¬ (piece b write.nextChunk.toNat).length < chunkSize := by
        have count := chunkCount_toNat uploading.sound.count
        rw [size] at count
        rw [piece_length]
        simp only [chunkSize] at count ⊢
        omega
      rw [← next] at stores'
      rw [turn, decide_eq_false full, ← next]
      let behind : Client Service := { c with network := n }
      let more' : PendingWrite := { write with nextChunk := write.nextChunk + 1 }
      refine @ih behind more' (chunks ++ [piece b write.nextChunk.toNat]) attached' ?_ ?_ size ?_ stores'
      · have own : n.context id = c.network.context id := by rw [Service.context, client, Service.context]
        rw [own]
        exact more part
      · rw [List.flatten_append, flat, List.flatten_singleton, take_append_piece, next]
      · change (write.nextChunk + 1).toNat + (left + 1) = write.chunkCount.toNat
        rw [next]
        omega

/-- Nothing keeps `write_file` from writing the file: its requests arrive and are handled without a failing call. -/
structure Uploads (b path : Bytes) (c : Client Service) : Prop where
  fits : ((Operation.writeFile (.holding b) path).request (c.currentId + 1)).Fits
  readable : (ClientEvent.of (((Operation.writeFile (.holding b) path).request (c.currentId + 1)).from
    ⟨c.network.client, .client⟩)).isOk = true
  hosts : c.network.Attended SystemEvent.Smooth (Hosts path b)
  stores : Stores c.metadataNodeId (c.currentId + 1) (pieces b 0 (chunkNumber b)) 0
    (writeFileReply c.metadataNodeId (c.currentId + 1) (UInt64.ofNat b.length) (chunksOf (UInt64.ofNat b.length)).toUInt32 path
      c.network).2

theorem nulFree_of_fits {text : Bytes} (whole : fits false [.text] (text ++ [0]) = true) : NulFree text := by
  induction text with
  | nil => exact List.not_mem_nil
  | cons first text ih =>
      simp only [fits, Field.skip] at whole
      rw [if_pos (by simp)] at whole
      rw [List.cons_append] at whole
      by_cases zero : first = 0
      · simp [zero] at whole
      · have rest : NulFree text := ih ?_
        · exact fun mem => (List.mem_cons.1 mem).elim (fun same => zero same.symm) rest
        simp only [fits, Field.skip]
        rw [if_pos (by simp)]
        simpa [zero] using whole

/-- A path that is read from a request has no NUL byte. -/
theorem Uploads.nulFree (uploads : Uploads b path c) : NulFree path := by
  set fileSize := UInt64.ofNat b.length
  set chunkCount := (chunksOf fileSize).toUInt32
  let bytes := write fileSize ++ (write chunkCount ++ write path)
  have request : (Operation.writeFile (.holding b) path).request (c.currentId + 1) =
    Rpc.makeFrame (c.currentId + 1) ClientJob.writeFile .request bytes := rfl
  have fits := Frame.fits_iff.1 uploads.fits
  have readable := uploads.readable
  rw [request, Rpc.makeFrame_length, maxMessageSize] at fits
  obtain ⟨m, read, header, body⟩ : ∃ m, Rpc.readMessage ClientJob ((Rpc.makeFrame (c.currentId + 1) ClientJob.writeFile .request
      bytes).from ⟨c.network.client, .client⟩) = .ok m ∧ m.rpcHeader = ⟨c.currentId + 1, .writeFile, .request⟩ ∧ m.body = bytes :=
    ⟨_, Rpc.readMessage_makeFrame (by omega) _ (.inl rfl), rfl, rfl⟩
  rw [request, ClientEvent.of, read] at readable
  simp only [bind, Except.bind, header] at readable
  have whole := ClientProtocol.decodeWriteFileRequest_isOk (m := m)
  cases decoded : ClientProtocol.decodeWriteFileRequest m with
  | error e => simp [decoded, Except.isOk, Except.toBool] at readable
  | ok req =>
      rw [decoded, header, body] at whole
      simp only [Except.isOk, Except.toBool, and_self, decide_true, Bool.true_and] at whole
      have size : (Field.word 8).skip bytes = some (write chunkCount ++ write path) := by simp [Field.skip, bytes, write]
      have count : (Field.word 4).skip (write chunkCount ++ write path) = some (write path) := by simp [Field.skip, write]
      rw [Dfs.fits, size] at whole
      dsimp only at whole
      rw [Dfs.fits, count] at whole
      exact nulFree_of_fits whole.symm

theorem writeFile_uploads (attached : c.Attached) (reached : c.network.system.Reached) (rest : c.network.system.AtRest)
    (stranger : ¬ c.network.system.Joined c.network.client) (fits : chunkNumber b < 2 ^ 32)
    (valid : MetadataStore.validFilename path = true)
    (writable : MetadataStore.Writable c.network.system.worker.store.disk.tree (MetadataStore.physical path))
    (uploads : Uploads b path c) :
    ∃ c', c.writeFile (.holding b) path = (.ok (.ok ()), c') ∧ Provides path b c'.network.system := by
  have read : ClientEvent.of (((Operation.writeFile (.holding b) path).request (c.currentId + 1)).from ⟨c.network.client, .client⟩) =
      .ok ((Operation.writeFile (.holding b) path).event (c.network.context (c.currentId + 1))) :=
    Operation.received _ _ (by simpa [Operation.texts] using uploads.nulFree) (Frame.fits_iff.1 uploads.fits)
  obtain ⟨m, n, received, called, decoded, attached', client, more, last⟩ :=
    @writeFile_called { c with currentId := c.currentId + 1 } (c.currentId + 1) b path _ _ ⟨attached.clear, attached.node⟩ reached
      rest stranger (holding_size fits) (holding_sized fits) valid writable read uploads.hosts
  have small : ¬ (chunksOf (UInt64.ofNat b.length)).toNat > 0xffffffff := by
    rw [holding_count fits]
    omega
  have opens : ¬ (LocalFile.holding b).opens = false := by simp [LocalFile.holding]
  have sizes : (LocalFile.holding b).size = .ok (UInt64.ofNat b.length) := rfl
  rw [writeFile, if_neg opens, sizes]
  dsimp only
  rw [if_neg small, called]
  dsimp only
  rw [decoded]
  dsimp only
  rw [if_neg (not_not.2 rfl)]
  have count : (chunksOf (UInt64.ofNat b.length)).toUInt32.toNat = chunkNumber b := by
    rw [UInt64.toNat_toUInt32, holding_count fits, Nat.mod_eq_of_lt fits]
  rw [count]
  by_cases empty : b = []
  · subst empty
    rw [chunkNumber_nil, writeChunks]
    exact ⟨_, rfl, last rfl⟩
  · obtain ⟨write, rfl, size, number, zero, uploading⟩ := more empty
    have stores := uploads.stores
    obtain ⟨left, chunks⟩ := chunkNumber_succ empty
    have own : n.context (c.currentId + 1) = c.network.context (c.currentId + 1) := by
      rw [Service.context, client, Service.context]
    have first : write.nextChunk.toNat = 0 := by rw [zero, UInt32.toNat_zero]
    rw [received, chunks, ← first, ← zero] at stores
    have reads : (LocalFile.holding b).reads = pieces b 0 (chunkNumber b) := rfl
    rw [reads, chunks, ← zero]
    have loop := writeChunks_stores left attached' (by rw [own]; exact uploading) (by simp [first]) (by rw [size, holding_size fits])
      (by rw [first, number, count, chunks, Nat.zero_add]) stores
    rw [first] at loop
    exact loop

/-! ## `read_file` -/

section Local

variable {ν : Type} [Network ν] {c : Client ν} {name : Name} {toPath data : Bytes}

/-- No call on a local file fails from here on. -/
def Fine (d : Disk) : Prop := ∀ i, ¬ MetadataStore.Fails d.outcomes i

theorem Fine.drawn {d : Disk} (fine : Fine d) : Fine d.drawn := fun i bad => fine (i + 1) (MetadataStore.fails_drawn.1 bad)

omit [Network ν] in
theorem finishRead_puts (apart : name ≠ toPath) (fine : Fine c.disk) (free : c.disk.tree.kind (localPath toPath) ≠ some .dir)
    (source : c.disk.tree.content [name] = some b) :
    ∃ c', c.finishRead toPath [name] = (.ok (.ok ()), c') ∧ c'.disk.tree.content (localPath toPath) = some b := by
  have flushed := (settled c.disk).2 (fine 0)
  have closed := (settled c.disk.drawn).2 (fine.drawn 0)
  obtain ⟨t, moved, done⟩ := rename_moves (d := c.disk.drawn.drawn) source apart
    (not_or.2 ⟨fine.drawn.drawn 0, free⟩)
  have differs : ([name] : FilePath) ≠ [toPath] := fun same => apart (List.singleton_inj.1 same)
  rw [finishRead, flushed]
  dsimp only
  rw [closed]
  dsimp only [Except.bind]
  rw [localPath, done]
  refine ⟨_, rfl, ?_⟩
  change t.content [toPath] = some b
  rw [FileTree.rename_file_content differs source moved, if_pos rfl]

/-- A chunk behind what the temporary file has already. -/
theorem write_grows {d : Disk} (data : Bytes) (fine : Fine d) (source : d.tree.content [name] = some b) :
    ∃ d', d.write [name] data = (.ok (), d') ∧ Fine d' ∧ d'.tree.content [name] = some (b ++ data) ∧
      ∀ q, q ≠ [name] → d'.tree.kind q = d.tree.kind q := by
  obtain ⟨-, frame, -⟩ := @write_passed _ _ _ data source
  have done := (write_result d [name] data).2 (fine 0)
  exact ⟨_, Prod.ext done rfl, fine.drawn, Disk.write_ok (Prod.ext done rfl) source, frame⟩

end Local

/-- Each of so many chunks is fetched while the client waits; the first of them has number `k`. -/
inductive Fetches (metadata : NodeId) (id : UInt64) : Nat → UInt32 → Service → Prop where
  | done (k : UInt32) (n : Service) : Fetches metadata id 0 k n
  | chunk {left : Nat} {k : UInt32} {n : Service} (here : n.Attended SystemEvent.Background (Fetched (n.context id) k))
      (behind : Fetches metadata id left (k + 1) (chunkReply metadata id k n).2) : Fetches metadata id (left + 1) k n

variable {name : Name} {toPath : Bytes}

/-- One turn of the loop. -/
theorem readChunks_turn (toPath : Bytes) {left : Nat} (attached : c.Attached)
    (downloading : Downloading (c.network.context id) read b c.network.system)
    (fetches : Fetches c.metadataNodeId id (left + 1) read.nextChunk c.network) (fine : Fine c.disk)
    (source : c.disk.tree.content [name] = some (b.take (read.nextChunk.toNat * chunkSize))) :
    ∃ n d, readChunks id read.fileSize toPath [name] (left + 1) read.nextChunk c =
        readChunks id read.fileSize toPath [name] left (read.nextChunk + 1) { c with network := n, disk := d } ∧
      Fetches c.metadataNodeId id left (read.nextChunk + 1) n ∧ Attached { c with network := n, disk := d } ∧
      n.client = c.network.client ∧
      (read.nextChunk + 1 ≠ read.chunkCount →
        Downloading (c.network.context id) { read with nextChunk := read.nextChunk + 1 } b n.system) ∧
      Fine d ∧ d.tree.content [name] = some (b.take ((read.nextChunk.toNat + 1) * chunkSize)) ∧
      ∀ q, q ≠ [name] → d.tree.kind q = c.disk.tree.kind q := by
  have exact := chunkExact_of_below downloading.sized downloading.due
  have length : (piece b read.nextChunk.toNat).length = (expectedSize read.fileSize read.nextChunk).toNat := by
    rw [piece_length, exact.expected, downloading.length]
  obtain ⟨⟩ | ⟨here, fetches⟩ := fetches
  obtain ⟨m, n, received, called, decoded, attached', client, more⟩ := readChunk_called attached downloading here
  obtain ⟨d, written, fine', grown, frame⟩ := write_grows (piece b read.nextChunk.toNat) fine source
  rw [take_append_piece] at grown
  refine ⟨n, d, ?_, received ▸ fetches, ⟨attached'.clear, attached'.node⟩, client, more, fine', grown, frame⟩
  rw [readChunks, called]
  dsimp only
  rw [decoded]
  dsimp only
  rw [if_neg (not_not.2 rfl), if_neg (not_or.2 ⟨not_not.2 rfl, not_not.2 length⟩), written]

/-- From a chunk on that there is, the loop reads the rest of the file. -/
theorem readChunks_fetches (left : Nat) (attached : c.Attached)
    (downloading : Downloading (c.network.context id) read b c.network.system)
    (here : read.nextChunk.toNat + (left + 1) = read.chunkCount.toNat)
    (fetches : Fetches c.metadataNodeId id (left + 1) read.nextChunk c.network) (fine : Fine c.disk) (apart : name ≠ toPath)
    (free : c.disk.tree.kind (localPath toPath) ≠ some .dir)
    (source : c.disk.tree.content [name] = some (b.take (read.nextChunk.toNat * chunkSize))) :
    ∃ c', readChunks id read.fileSize toPath [name] (left + 1) read.nextChunk c = (.ok (.ok ()), c') ∧
      c'.disk.tree.content (localPath toPath) = some b := by
  have differs : localPath toPath ≠ [name] := fun same => apart (List.singleton_inj.1 same).symm
  induction left generalizing c read with
  | zero =>
      obtain ⟨n, d, turn, -, -, -, -, fine', grown, frame⟩ := readChunks_turn toPath attached downloading fetches fine source
      have whole : b.take ((read.nextChunk.toNat + 1) * chunkSize) = b := by
        have count := chunkCount_toNat downloading.sized
        rw [downloading.length, chunkSize] at count
        rw [List.take_of_length_le]
        rw [chunkSize]
        omega
      rw [whole] at grown
      rw [turn, readChunks]
      exact finishRead_puts (c := { c with network := n, disk := d }) apart fine' (by rw [frame _ differs]; exact free) grown
  | succ left ih =>
      have next := (chunkExact_of_below downloading.sized downloading.due).next
      obtain ⟨n, d, turn, fetches', attached', client, more, fine', grown, frame⟩ :=
        readChunks_turn toPath attached downloading fetches fine source
      have part : read.nextChunk + 1 ≠ read.chunkCount := fun same => by
        rw [← same, next] at here
        omega
      have own : n.context id = c.network.context id := by rw [Service.context, client, Service.context]
      rw [turn]
      let behind : Client Service := { c with network := n, disk := d }
      let read' : PendingRead := { read with nextChunk := read.nextChunk + 1 }
      refine @ih behind read' attached'
        (by rw [own]; exact more part) ?_ fetches' fine' (by rw [frame _ differs]; exact free) ?_
      · change (read.nextChunk + 1).toNat + (left + 1) = read.chunkCount.toNat
        rw [next]
        omega
      · change d.tree.content [name] = some (b.take ((read.nextChunk + 1).toNat * chunkSize))
        rw [next]
        exact grown

/-- Nothing keeps `read_file` from reading the file: of each chunk one of the replicas answers the `GET`, and no call on a
local file fails. -/
structure Downloads (b path toPath : Bytes) (c : Client Service) : Prop where
  offered : c.network.Attended SystemEvent.Background (Offered path b)
  fetches : Fetches c.metadataNodeId (c.currentId + 1) (chunkNumber b) 0 (c.fileReply path).2
  named : toPath ≠ []
  fine : Fine c.disk
  free : c.disk.tree.kind (localPath toPath) ≠ some .dir
  temporary : c.disk.tree.kind (temporaryPath toPath (c.currentId + 1)) ≠ some .dir

theorem readFile_downloads (attached : c.Attached) (stranger : ¬ c.network.system.Joined c.network.client)
    (fits : chunkNumber b < 2 ^ 32) (provides : Provides path b c.network.system) (clean : NulFree path)
    (short : path.length + 11 ≤ maxMessageSize) (downloads : Downloads b path toPath c) :
    ∃ c', c.readFile path toPath = (.ok (.ok ()), c') ∧ c'.disk.tree.content (localPath toPath) = some b := by
  have read : ClientEvent.of ((ClientProtocol.encodeReadFileRequest (c.currentId + 1) { path, context := noContext }).from
      ⟨c.network.client, .client⟩) = .ok (.readFile { path, context := c.network.context (c.currentId + 1) }) :=
    Operation.received (o := .readFile path toPath []) _ _ (by simpa [Operation.texts] using clean) (by
      simp [Operation.request, ClientProtocol.encodeReadFileRequest, Rpc.makeFrame_length, write]
      omega)
  obtain ⟨m, n, fileSize, chunkCount, received, called, decoded, size, sized, attached', client, more⟩ :=
    @readFile_called { c with currentId := c.currentId + 1 } (c.currentId + 1) b path ⟨attached.clear, attached.node⟩ provides
      stranger (by rw [chunkNumber] at fits; exact fits) read downloads.offered
  have count : chunkCount.toNat = chunkNumber b := by rw [chunkCount_toNat sized, size, chunkNumber]
  obtain ⟨t, made, opened⟩ := open_creates (d := c.disk) (not_or.2 ⟨downloads.fine 0, downloads.temporary⟩)
  have source : t.content [toPath ++ temporarySuffix (c.currentId + 1)] = some [] := by
    rw [FileTree.setFile_content made, if_pos rfl]
  have free : t.kind (localPath toPath) ≠ some .dir := by
    have destination : t.kind (localPath toPath) = c.disk.tree.kind (localPath toPath) :=
      FileTree.setFile_kind made fun same => temporary_ne toPath _ (List.singleton_inj.1 same).symm
    rw [destination]
    exact downloads.free
  have fetches := downloads.fetches
  change Fetches _ _ _ _ (Network.receiveIf _ _ _).2 at fetches
  rw [received] at fetches
  rw [readFile, called]
  dsimp only
  rw [decoded]
  dsimp only
  rw [if_neg (not_not.2 rfl), if_neg (not_not.2 sized), if_neg downloads.named, temporaryPath, localPath, opened]
  dsimp only
  rw [count]
  by_cases empty : b = []
  · subst empty
    rw [chunkNumber_nil, readChunks]
    exact finishRead_puts (temporary_ne _ _) downloads.fine.drawn free source
  · obtain ⟨read, rfl, rfl, zero, downloading⟩ := more empty
    obtain ⟨left, chunks⟩ := chunkNumber_succ empty
    have own : n.context (c.currentId + 1) = c.network.context (c.currentId + 1) := by
      rw [Service.context, client, Service.context]
    have first : read.nextChunk.toNat = 0 := by rw [zero, UInt32.toNat_zero]
    rw [chunks, ← zero] at fetches
    rw [chunks, ← zero]
    let behind : Client Service :=
      { network := n, disk := c.disk.drawn.reach t, metadataNodeId := c.metadataNodeId, currentId := c.currentId + 1 }
    exact readChunks_fetches left (c := behind) ⟨attached'.clear, attached'.node⟩ (by rw [own]; exact downloading)
      (by rw [first, count, chunks, Nat.zero_add]) fetches downloads.fine.drawn (temporary_ne _ _)
      free (by rw [first, Nat.zero_mul, List.take_zero]; exact source)

/-! ## The round trip -/

/-- From a state in which nothing is under way, whatever the path has held before: what `write_file` has written
`read_file` gets back, byte for byte. -/
theorem written_read_back {s₀ : System} {events : List NodeEvent} {d : Client Service} (blank : s₀.Blank)
    (ordinary : s₀.network.Ordinary) (heard : ∀ e ∈ events, e.From NodeClean) (ran : s₀.runNode events = .ok c.network.system)
    (rest : c.network.system.AtRest) (attached : c.Attached) (stranger : ¬ c.network.system.Joined c.network.client)
    (fits : chunkNumber b < 2 ^ 32) (valid : MetadataStore.validFilename path = true)
    (writable : MetadataStore.Writable c.network.system.worker.store.disk.tree (MetadataStore.physical path))
    (uploads : Uploads b path c) (behind : d.network.system = (c.writeFile (.holding b) path).2.network.system)
    (attached' : d.Attached) (stranger' : ¬ d.network.system.Joined d.network.client) (downloads : Downloads b path toPath d) :
    (c.writeFile (.holding b) path).1 = .ok (.ok ()) ∧ (d.readFile path toPath).1 = .ok (.ok ()) ∧
      (d.readFile path toPath).2.disk.tree.content (localPath toPath) = some b := by
  have reached : c.network.system.Reached :=
    run_keeps (P := System.Reached) (fun _ _ e mem reached stepped => nextNode_reached reached (heard e mem) stepped)
      (blank.reached ordinary) ran
  obtain ⟨c', written, provides⟩ := writeFile_uploads attached reached rest stranger fits valid writable uploads
  rw [written] at behind ⊢
  rw [← behind] at provides
  have short : path.length + 11 ≤ maxMessageSize := by
    have whole := Frame.fits_iff.1 uploads.fits
    simp only [Operation.request, ClientProtocol.encodeWriteFileRequest, Rpc.makeFrame_length, List.length_append] at whole
    simp [write] at whole
    omega
  obtain ⟨d', got, content⟩ := readFile_downloads attached' stranger' fits provides uploads.nulFree short downloads
  rw [got]
  exact ⟨rfl, rfl, content⟩

theorem step_script (event : SystemEvent) (n : Service) : (n.step event).script = n.script := by
  rw [Service.step]
  split <;> rfl

theorem act_script (a : ServiceAct) (n : Service) : (n.act a).script = n.script := by
  cases a with
  | loseAnswer i => rfl
  | arrive i =>
      simp only [Service.act, Service.arrive]
      split
      · rfl
      · split <;> rfl
  | other event =>
      simp only [Service.act]
      split
      · rfl
      · exact step_script event n
  | handle i env script =>
      simp only [Service.act]
      split
      · rfl
      rw [Service.handle]
      split
      · rfl
      · dsimp only
        split
        · rfl
        · exact step_script _ _
        · rfl

/-- Each wait takes what happens during it from the script. -/
theorem receiveIf_script (seconds : Nat) (p : Message → Bool) (n : Service) :
    (Network.receiveIf seconds p n).2.script = n.script.tail := by
  have acts : ∀ (l : List ServiceAct) (n : Service), (n.acts l).script = n.script := fun l => by
    induction l with
    | nil => exact fun _ => rfl
    | cons a l ih => exact fun n => (ih (n.act a)).trans (act_script a n)
  change (n.await.take p).2.script = _
  unfold Service.take
  split <;> exact acts _ _

/-- The client `"c"` and the waits of its `write_file`: both storage nodes show up, and each takes one chunk. -/
def writer : Client Service :=
  { alone with network := { alone.network with script := alone.network.script ++ [[.handle 0 {} [System.served], .arrive 0]] } }

/-- The same client goes on with `read_file`. -/
def reader : Client Service :=
  let c := (writer.writeFile (.holding [1, 2]) [112]).2
  { writer with
    network := { c.network with script := [[.handle 0 {} [], .arrive 0], [.handle 0 {} [System.served], .arrive 0]] }
    currentId := c.currentId }

theorem start_rest : System.start.AtRest where
  calm := ⟨rfl, fun node peer found => by rw [lookup_start found]; exact ⟨rfl, rfl⟩⟩
  writes c := rfl
  reads c := rfl

theorem writer_attached : writer.Attached := ⟨⟨rfl, rfl, rfl, rfl⟩, rfl⟩

/-- Every node that has been heard of is there. -/
theorem joined_of_any {s : System} (all : (s.worker.storageNodes.any fun node _ => (s.network.peers.lookup node).isNone) = false)
    {node : NodeId} (available : s.worker.isAvailable node = true) : s.Joined node := by
  rw [MetadataWorker.isAvailable, Option.any_eq_true] at available
  obtain ⟨storage, found, -⟩ := available
  by_contra away
  have bad := (Assoc.any_iff s.worker.storageNodes fun node _ => (s.network.peers.lookup node).isNone).2
    ⟨node, storage, found, by rw [not_joined.1 away]; rfl⟩
  rw [all] at bad
  cases bad

/-- The writer has the answer to its first request. -/
def begunWrite : Service :=
  (writeFileReply writer.metadataNodeId 1 (UInt64.ofNat 2) (chunksOf (UInt64.ofNat 2)).toUInt32 [112] writer.network).2

theorem begunWrite_stored : begunWrite.Attended SystemEvent.Smooth (Stored (begunWrite.context 1)) := by
  refine ⟨[], [], {}, [System.served], _, ?_, by simp, rfl, by decide, by decide, fun write found => ?_⟩
  · rw [begunWrite, writeFileReply, receiveIf_script]
    rfl
  · have all : (begunWrite.system.worker.findWrite (begunWrite.context 1)).all
        (fun write => decide (RepliesInTime write.replicas [System.served])) = true := by decide +kernel
    rw [found] at all
    exact of_decide_eq_true all

theorem writer_uploads : Uploads [1, 2] [112] writer where
  fits := Frame.fits_iff.2 (by decide +kernel)
  readable := by decide +kernel
  hosts := by
    refine ⟨System.joined, [], { first := 7 }, [], _, rfl, ?_, rfl, by decide, fun _ =>
      ⟨?_, fun node => joined_of_any (by decide +kernel)⟩⟩
    · intro e mem
      simp only [System.joined, List.append_nil, List.mem_cons, List.not_mem_nil, or_false] at mem
      rcases mem with rfl | rfl
      · exact (by decide : NodeClean [97])
      · exact (by decide : NodeClean [98])
    · rw [MetadataWorker.Supplied, if_pos (by decide +kernel)]
      exact ⟨[97], [98], by decide, by decide +kernel, by decide +kernel⟩
  stores := by
    have list : pieces [1, 2] 0 (chunkNumber [1, 2]) = [[1, 2]] := by decide +kernel
    rw [list]
    exact .chunk begunWrite_stored (.done _ _)

/-- The reader has the answer to its first request. -/
def begunRead : Service := (reader.fileReply [112]).2

theorem next_of_any {cluster : Cluster} {node : NodeId} {tag : Nat}
    (first : ((cluster.peers.lookup node).any fun peer => peer.inbox.head?.map (·.1) = some tag) = true) : cluster.Next node tag := by
  obtain ⟨peer, found, first⟩ := (Option.any_eq_true _ _).1 first
  exact ⟨peer, found, of_decide_eq_true first⟩

theorem begunRead_fetched : begunRead.Attended SystemEvent.Background (Fetched (begunRead.context 2) 0) := by
  refine ⟨[], [], {}, [System.served], _, ?_, by simp, rfl, fun read here => .inl ?_⟩
  · rw [begunRead, fileReply, receiveIf_script]
    rfl
  · have session : begunRead.system.worker.findRead (begunRead.context 2) =
        some ⟨[112], ({ first := 7 } : Env).objectId, 2, 1, 0, ([97], [98])⟩ := by
      decide +kernel
    cases session.symm.trans here
    refine ⟨by decide +kernel, ⟨[], [], _, rfl, by simp, next_of_any (by decide +kernel)⟩, by decide +kernel⟩

theorem reader_attached : reader.Attached where
  clear := ⟨List.length_eq_zero_iff.1 (by decide +kernel), List.length_eq_zero_iff.1 (by decide +kernel),
    List.length_eq_zero_iff.1 (by decide +kernel), by decide +kernel⟩
  node := by decide +kernel

theorem reader_downloads : Downloads [1, 2] [112] [113] reader where
  offered := by
    refine ⟨[], [], {}, [], _, rfl, by simp, rfl, fun _ m here => .inl ?_⟩
    have all : (reader.network.system.worker.store.data.lookup (MetadataStore.key [112])).all
        (fun m => reader.network.system.worker.isAvailable m.replicaLocations.1) = true := by decide +kernel
    rw [here] at all
    exact all
  fetches := by
    have count : chunkNumber [1, 2] = 1 := by decide +kernel
    rw [count]
    exact .chunk begunRead_fetched (.done _ _)
  named := by decide
  fine i := by simp [MetadataStore.Fails, reader, writer, alone]
  free := by decide +kernel
  temporary := by decide +kernel

theorem written_read_back_two : (writer.writeFile (.holding [1, 2]) [112]).1 = .ok (.ok ()) ∧
    (reader.readFile [112] [113]).1 = .ok (.ok ()) ∧
      (reader.readFile [112] [113]).2.disk.tree.content (localPath [113]) = some [1, 2] :=
  @written_read_back writer [1, 2] [112] [113] System.start [] reader ⟨⟨rfl, rfl, rfl⟩, rfl, rfl⟩ System.start_ordinary (by simp)
    rfl start_rest writer_attached (by rw [not_joined]; decide +kernel) (by decide +kernel) (by decide +kernel) (by decide +kernel)
    writer_uploads rfl
    reader_attached (by rw [not_joined]; decide +kernel) reader_downloads

end Client

end Dfs
