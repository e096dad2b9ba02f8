import Dfs.Client.Client
import Dfs.Common.Formats
import Dfs.Metadata.Responses
import Dfs.Metadata.Sessions

/-!
# What `read_file` leaves behind

The destination changes in one rename, and only with all its chunks. Everything else depends on two
things that the code does not look after: a reply that the filter accepts can still be too short for
its decoder, and then an exception leaves the operation with the temporary file in place, as does a
removal that fails.
-/

namespace Dfs

open Lib
open MetadataStore (Fails fails_drawn outcome_fine outcome_fails)

namespace Client

variable {ν : Type} [Network ν]

/-! ## The replies -/

/-- What comes back for `READ_FILE`, and the network behind it. -/
def fileReply (fromPath : Bytes) (c : Client ν) : Option Message × ν :=
  Network.receiveIf timeout (Rpc.makeMessageIs (c.currentId + 1) ClientJob.readFile .response c.metadataNodeId Rpc.matchAnyBody)
    (Network.send c.metadataNodeId
      (ClientProtocol.encodeReadFileRequest (c.currentId + 1) { path := fromPath, context := noContext }) c.network)

/-- What comes back for `READ_CHUNK` number `i`, and the network behind it. -/
def chunkReply (metadata : NodeId) (requestId : UInt64) (i : UInt32) (n : ν) : Option Message × ν :=
  Network.receiveIf readChunkTimeout (Rpc.makeMessageIs requestId ClientJob.readChunk .response metadata (Rpc.matchChunk i))
    (Network.send metadata (ClientProtocol.encodeReadChunkRequest requestId { chunkIndex := i, context := noContext }) n)

/-- The lengths that the decoders want. -/
def fileReplyLength : Nat := 23

def chunkReplyLength : Nat := 15

/-- The file that a reply announces, where `read_file` goes on with it. -/
def announcedBy (message : Message) : Option (UInt64 × UInt32) :=
  match Rpc.readMessage ClientJob message >>= ClientProtocol.decodeReadFileResponse with
  | .error _ => none
  | .ok response =>
      if response.status = .success ∧ chunksOf response.fileSize = response.chunkCount.toUInt64 then
        some (response.fileSize, response.chunkCount)
      else none

/-- The data of chunk `i` in a reply, where they are what `read_file` expects. -/
def chunkFrom (fileSize : UInt64) (i : UInt32) (message : Message) : Option Bytes :=
  match Rpc.readMessage ClientJob message >>= ClientProtocol.decodeReadChunkResponse with
  | .error _ => none
  | .ok response =>
      if response.status = .success ∧ response.chunkIndex = i ∧ response.data.length = (expectedSize fileSize i).toNat then
        some response.data
      else none

/-- The data of as many chunks from `i` on, in order, as they come back. -/
inductive Receives (metadata : NodeId) (requestId fileSize : UInt64) : Nat → UInt32 → ν → List Bytes → Prop where
  | done (i : UInt32) (n : ν) : Receives metadata requestId fileSize 0 i n []
  | chunk {left : Nat} {i : UInt32} {n : ν} {message : Message} {data : Bytes} {rest : List Bytes}
      (reply : (chunkReply metadata requestId i n).1 = some message) (here : chunkFrom fileSize i message = some data)
      (behind : Receives metadata requestId fileSize left (i + 1) (chunkReply metadata requestId i n).2 rest) :
      Receives metadata requestId fileSize (left + 1) i n (data :: rest)

/-! ## The condition -/

/-- What has to hold of the replies and of the file calls to come when `read_file` has opened its
temporary file and wants as many chunks from `i` on: no reply is too short for its decoder, and the
temporary file can be removed when something else goes wrong. -/
def Removable (metadata : NodeId) (requestId fileSize : UInt64) (blocked : Prop) : Nat → UInt32 → ν → List Outcome → Prop
  | 0, _, _, outcomes =>
      -- flush, close, rename
      if Fails outcomes 0 ∨ Fails outcomes 1 then ¬ Fails outcomes 2
      else Fails outcomes 2 ∨ blocked → ¬ Fails outcomes 3
  | left + 1, i, n, outcomes =>
      match (chunkReply metadata requestId i n).1 with
      | none => ¬ Fails outcomes 1
      | some message =>
          chunkReplyLength ≤ message.buffer.length ∧
            match chunkFrom fileSize i message with
            | none => ¬ Fails outcomes 1
            | some _ =>
                -- write, close, remove
                if Fails outcomes 0 then ¬ Fails outcomes 2
                else Removable metadata requestId fileSize blocked left (i + 1) (chunkReply metadata requestId i n).2 outcomes.tail

/-- No reply that `read_file` decodes is cut short, and its temporary file can be removed where it has to be. -/
def Tidies (fromPath toPath : Bytes) (c : Client ν) : Prop :=
  match (c.fileReply fromPath).1 with
  | none => True
  | some message =>
      message.buffer.length = fileReplyLength ∧
        ∀ fileSize count, announcedBy message = some (fileSize, count) → toPath ≠ [] →
          ¬ (Fails c.disk.outcomes 0 ∨ c.disk.tree.kind (temporaryPath toPath (c.currentId + 1)) = some .dir) →
            Removable c.metadataNodeId (c.currentId + 1) fileSize (c.disk.tree.kind (localPath toPath) = some .dir) count.toNat 0
              (c.fileReply fromPath).2 c.disk.outcomes.tail

/-- All of the file or nothing, and no temporary file, unless no call has changed the disk. -/
structure AllOrNothing (fromPath toPath : Bytes) (c : Client ν) (r : Returned Unit) (c' : Client ν) : Prop where
  returns : ∃ outcome, r = .ok outcome
  success : r = .ok (.ok ()) → ∃ message fileSize count chunks, (c.fileReply fromPath).1 = some message ∧
    announcedBy message = some (fileSize, count) ∧
    Receives c.metadataNodeId (c.currentId + 1) fileSize count.toNat 0 (c.fileReply fromPath).2 chunks ∧
    c'.disk.tree.content (localPath toPath) = some chunks.flatten ∧ chunks.flatten.length = fileSize.toNat
  failure : ∀ e, r = .ok (.error e) → c'.disk.tree.kind (localPath toPath) = c.disk.tree.kind (localPath toPath)
  tidy : c'.disk.tree.kind (temporaryPath toPath (c.currentId + 1)) = none ∨ c'.disk.trail = c.disk.trail

variable {c : Client ν} {d : Disk} {p temporary : FilePath} {toPath b : Bytes}

/-! ## File calls -/

/-- A file can be removed unless the call fails. -/
theorem remove_clears (source : d.tree.content p = some b) : (d.remove p).2.tree.kind p = none ↔ ¬ Fails d.outcomes 0 := by
  obtain ⟨t, removed, gone⟩ := FileTree.remove_file source
  rw [Disk.remove, Disk.call]
  by_cases bad : Fails d.outcomes 0
  · obtain ⟨e, failed⟩ := outcome_fails bad
    rw [failed]
    have there : d.tree.kind p ≠ none := by rw [FileTree.content_eq_some.1 source]; simp
    exact iff_of_false there (not_not.2 bad)
  · rw [outcome_fine bad]
    dsimp only
    rw [removed]
    exact iff_of_true gone bad

theorem rename_fails {old new : Name} (source : d.tree.content [old] = some b) (apart : old ≠ new)
    (blocked : Fails d.outcomes 0 ∨ d.tree.kind [new] = some .dir) : ∃ e, d.rename [old] [new] = (.error e, d.drawn) := by
  rw [Disk.rename, Disk.call]
  by_cases bad : Fails d.outcomes 0
  · obtain ⟨e, failed⟩ := outcome_fails bad
    rw [failed]
    exact ⟨e, rfl⟩
  · have differs : ([old] : FilePath) ≠ [new] := fun same => apart (List.singleton_inj.1 same)
    have refused : FileTree.rename [old] [new] d.tree = .error .isADirectory := by
      rw [FileTree.rename, FileTree.content_eq_some.1 source]
      dsimp only
      rw [if_neg differs, if_pos ⟨by simp, blocked.resolve_left bad⟩]
    rw [outcome_fine bad]
    dsimp only
    rw [refused]
    exact ⟨_, rfl⟩

/-- A file can take another name, unless a directory has it or the call fails. -/
theorem rename_moves {old new : Name} (source : d.tree.content [old] = some b) (apart : old ≠ new)
    (free : ¬ (Fails d.outcomes 0 ∨ d.tree.kind [new] = some .dir)) :
    ∃ t, FileTree.rename [old] [new] d.tree = .ok ((), t) ∧ d.rename [old] [new] = (.ok (), d.drawn.reach t) := by
  obtain ⟨fine, open_⟩ := not_or.1 free
  have movable : d.tree.Movable [old] [new] := by
    refine ⟨by simp, rfl, ?_, ?_⟩
    · rw [List.prefix_cons_iff]
      simp [apart]
    · rw [List.prefix_cons_iff]
      simp [Ne.symm apart]
  obtain ⟨t, moved⟩ := FileTree.rename_file source movable open_
  refine ⟨t, moved, ?_⟩
  rw [Disk.rename, Disk.call, outcome_fine fine]
  dsimp only
  rw [moved]

theorem open_fails {name : Name} (blocked : Fails d.outcomes 0 ∨ d.tree.kind [name] = some .dir) :
    ∃ e d', d.openTruncate [name] = (.error e, d') := by
  rw [Disk.openTruncate, Disk.call]
  by_cases bad : Fails d.outcomes 0
  · obtain ⟨e, failed⟩ := outcome_fails bad
    rw [failed]
    exact ⟨e, _, rfl⟩
  · have isDirectory := blocked.resolve_left bad
    have refused : FileTree.setFile [name] [] d.tree = .error .isADirectory := by
      rw [FileTree.setFile, dif_neg fun ok => (ok.2.2.resolve_left (by simp)) isDirectory, if_pos isDirectory]
    rw [outcome_fine bad]
    dsimp only
    rw [refused]
    exact ⟨_, _, rfl⟩

theorem open_creates {name : Name} (free : ¬ (Fails d.outcomes 0 ∨ d.tree.kind [name] = some .dir)) :
    ∃ t, FileTree.setFile [name] [] d.tree = .ok ((), t) ∧ d.openTruncate [name] = (.ok (), d.drawn.reach t) := by
  obtain ⟨fine, open_⟩ := not_or.1 free
  have placeable : d.tree.Placeable [name] (.file []) := ⟨by simp, rfl, .inr open_⟩
  refine ⟨_, dif_pos placeable, ?_⟩
  rw [Disk.openTruncate, Disk.call, outcome_fine fine]
  dsimp only
  rw [FileTree.setFile, dif_pos placeable]

/-! ## From the open temporary file on -/

/-- How `read_file` ends from a disk on which its temporary file is open: what the destination holds after a success,
what an error leaves as it was, and when the temporary file is gone. -/
structure Ends (toPath : Bytes) (temporary : FilePath) (whole : Bytes → Prop) (clears : Prop) (d : Disk)
    (out : Returned Unit × Client ν) : Prop where
  success : out.1 = .ok (.ok ()) → ∃ bytes, whole bytes ∧ out.2.disk.tree.content (localPath toPath) = some bytes
  frame : out.1 ≠ .ok (.ok ()) → ∀ q, q ≠ temporary → out.2.disk.tree.kind q = d.tree.kind q
  trail : ∃ ts, out.2.disk.trail = d.trail ++ ts
  clear : (∃ outcome, out.1 = .ok outcome) ∧ out.2.disk.tree.kind temporary = none ↔ clears

section Ends

variable {whole whole' : Bytes → Prop} {clears : Prop} {d' : Disk} {out : Returned Unit × Client ν}

omit [Network ν]

theorem Ends.behind (ends : Ends toPath temporary whole clears d' out) (frame : ∀ q, q ≠ temporary → d'.tree.kind q = d.tree.kind q)
    (trail : ∃ ts, d'.trail = d.trail ++ ts) (weaker : ∀ bytes, whole bytes → whole' bytes) :
    Ends toPath temporary whole' clears d out where
  success h := by
    obtain ⟨bytes, all, content⟩ := ends.success h
    exact ⟨bytes, weaker bytes all, content⟩
  frame h q ne := (ends.frame h q ne).trans (frame q ne)
  trail := by
    obtain ⟨ts, first⟩ := trail
    obtain ⟨ts', second⟩ := ends.trail
    exact ⟨ts ++ ts', by rw [second, first, List.append_assoc]⟩
  clear := ends.clear

theorem Ends.when {clears' : Prop} (ends : Ends toPath temporary whole clears d out) (same : clears' ↔ clears) :
    Ends toPath temporary whole clears' d out :=
  ⟨ends.success, ends.frame, ends.trail, ends.clear.trans same.symm⟩

theorem remove_passed (d : Disk) (p : FilePath) : (∃ ts, (d.remove p).2.trail = d.trail ++ ts) ∧
    ∀ q, q ≠ p → (d.remove p).2.tree.kind q = d.tree.kind q := by
  rcases removed : d.remove p with ⟨r, d'⟩
  cases r with
  | error e =>
      obtain ⟨tree, trail⟩ := Disk.call_error removed
      refine ⟨⟨[], by rw [List.append_nil]; exact trail⟩, fun q _ => ?_⟩
      show d'.tree.kind q = _
      rw [tree]
  | ok gone =>
      obtain ⟨done, trail⟩ := Disk.call_ok removed
      exact ⟨⟨_, trail⟩, fun q ne => FileTree.remove_kind done ne⟩

/-- An error that is answered by the removal of the temporary file. -/
theorem removed_ends {e : ClientError} (source : c.disk.tree.content temporary = some b) :
    Ends toPath temporary whole (¬ Fails c.disk.outcomes 0) c.disk ((.ok (.error e), c.removeTemporary temporary) : Returned Unit × Client ν) := by
  obtain ⟨trail, frame⟩ := remove_passed c.disk temporary
  refine ⟨nofun, fun _ => frame, trail, ?_⟩
  rw [← remove_clears source]
  exact and_iff_right ⟨_, rfl⟩

theorem discarded_ends {e : ClientError} (source : c.disk.tree.content temporary = some b) :
    Ends toPath temporary whole (¬ Fails c.disk.outcomes 1) c.disk
      ((.ok (.error e), c.discardTemporary temporary) : Returned Unit × Client ν) := by
  have closed : c.disk.settle.2 = c.disk.drawn := by rw [MetadataStore.settle_eq]
  rw [← fails_drawn, ← closed]
  have source' : c.disk.settle.2.tree.content temporary = some b := by
    rw [closed]
    exact source
  refine (removed_ends (c := { c with disk := c.disk.settle.2 }) source').behind ?_ ?_ fun _ => id
  · rw [closed]
    exact fun _ _ => rfl
  · rw [closed]
    exact ⟨[], (List.append_nil _).symm⟩

/-- An exception leaves the file where it is. -/
theorem thrown_ends {e : Exn} : Ends toPath temporary whole False c.disk ((.error e, c) : Returned Unit × Client ν) :=
  ⟨nofun, fun _ _ _ => rfl, ⟨[], (List.append_nil _).symm⟩, iff_of_false (fun h => nomatch h.1) id⟩

theorem settled (d : Disk) : (Fails d.outcomes 0 → ∃ e, d.settle = (.error e, d.drawn)) ∧
    (¬ Fails d.outcomes 0 → d.settle = (.ok (), d.drawn)) := by
  constructor
  · intro bad
    obtain ⟨e, failed⟩ := outcome_fails bad
    exact ⟨e, MetadataStore.settle_error failed⟩
  · intro fine
    exact MetadataStore.settle_ok (outcome_fine fine)

/-- After the last chunk. -/
theorem finishRead_ends {name : Name} (apart : name ≠ toPath) (source : c.disk.tree.content [name] = some b) :
    Ends toPath [name] (· = b)
      (if Fails c.disk.outcomes 0 ∨ Fails c.disk.outcomes 1 then ¬ Fails c.disk.outcomes 2
        else Fails c.disk.outcomes 2 ∨ c.disk.tree.kind (localPath toPath) = some .dir → ¬ Fails c.disk.outcomes 3) c.disk
      (c.finishRead toPath [name]) := by
  -- the disk behind `n` calls that change nothing
  have behind : ∀ {e : ClientError} (d : Disk), d.tree = c.disk.tree → d.trail = c.disk.trail →
      Ends toPath [name] (· = b) (¬ Fails d.outcomes 0) c.disk
        ((.ok (.error e), { c with disk := d }.removeTemporary [name]) : Returned Unit × Client ν) := by
    intro e d tree trail
    have source' : d.tree.content [name] = some b := by rw [tree]; exact source
    refine (removed_ends (c := { c with disk := d }) source').behind (fun q _ => ?_) ?_ fun _ => id
    · show d.tree.kind q = _
      rw [tree]
    · exact ⟨[], by rw [List.append_nil]; exact trail⟩
  have second : Fails c.disk.drawn.outcomes 0 ↔ Fails c.disk.outcomes 1 := fails_drawn
  have third : Fails c.disk.drawn.drawn.outcomes 0 ↔ Fails c.disk.outcomes 2 := fails_drawn.trans fails_drawn
  have fourth : Fails c.disk.drawn.drawn.drawn.outcomes 0 ↔ Fails c.disk.outcomes 3 :=
    fails_drawn.trans (fails_drawn.trans fails_drawn)
  have ended := @behind .readError c.disk.drawn.drawn rfl rfl
  rw [third] at ended
  rw [finishRead]
  by_cases flush : Fails c.disk.outcomes 0
  · obtain ⟨e, flushed⟩ := (settled c.disk).1 flush
    have closed : c.disk.drawn.settle.2 = c.disk.drawn.drawn := by rw [MetadataStore.settle_eq]
    rw [if_pos (.inl flush), flushed]
    dsimp only [Except.bind]
    rw [closed]
    exact ended
  have flushed := (settled c.disk).2 flush
  by_cases close : Fails c.disk.outcomes 1
  · obtain ⟨e, closed⟩ := (settled c.disk.drawn).1 (second.2 close)
    rw [if_pos (.inr close), flushed]
    dsimp only
    rw [closed]
    exact ended
  have closed := (settled c.disk.drawn).2 (mt second.1 close)
  rw [if_neg (not_or.2 ⟨flush, close⟩), flushed]
  dsimp only
  rw [closed]
  dsimp only [Except.bind, localPath]
  by_cases blocked : Fails c.disk.outcomes 2 ∨ c.disk.tree.kind [toPath] = some .dir
  · obtain ⟨e, refused⟩ := rename_fails (d := c.disk.drawn.drawn) source apart (blocked.imp_left third.2)
    rw [refused]
    have last := @behind .readError c.disk.drawn.drawn.drawn rfl rfl
    rw [fourth] at last
    have clears : (Fails c.disk.outcomes 2 ∨ c.disk.tree.kind [toPath] = some .dir → ¬ Fails c.disk.outcomes 3) ↔
        ¬ Fails c.disk.outcomes 3 := ⟨fun h => h blocked, fun h _ => h⟩
    rw [clears]
    exact last
  · obtain ⟨t, moved, done⟩ := rename_moves (d := c.disk.drawn.drawn) source apart (mt (Or.imp_left third.1) blocked)
    rw [done]
    have differs : ([name] : FilePath) ≠ [toPath] := fun same => apart (List.singleton_inj.1 same)
    have kind := FileTree.rename_file_kind differs source moved
    refine ⟨fun _ => ⟨b, rfl, ?_⟩, fun bad => absurd rfl bad, ⟨[t], rfl⟩, ?_⟩
    · show t.content [toPath] = some b
      rw [FileTree.content_eq_some, kind, if_pos rfl]
    · refine iff_of_true ⟨⟨_, rfl⟩, ?_⟩ fun taken => absurd taken blocked
      show t.kind [name] = none
      rw [kind, if_neg differs, if_pos rfl]

end Ends

section Calls

variable {requestId : UInt64} {job : ClientJob} {seconds : Nat} {body : BinaryReader → Except Exn Bool} {frame : Frame}
  {message : Message}

theorem call_timeout (silent : (Network.receiveIf seconds (Rpc.makeMessageIs requestId job .response c.metadataNodeId body)
      (Network.send c.metadataNodeId frame c.network)).1 = none) :
    c.call requestId job seconds body frame = (.ok (.error .timeout), { c with
      network := (Network.receiveIf seconds (Rpc.makeMessageIs requestId job .response c.metadataNodeId body)
        (Network.send c.metadataNodeId frame c.network)).2 }) := by
  unfold call
  generalize Network.receiveIf seconds (Rpc.makeMessageIs requestId job .response c.metadataNodeId body)
    (Network.send c.metadataNodeId frame c.network) = received at silent ⊢
  obtain ⟨r, n⟩ := received
  cases silent
  rfl

/-- A message that has passed the filter can be read and has the header that is checked again. -/
theorem call_received (received : (Network.receiveIf seconds (Rpc.makeMessageIs requestId job .response c.metadataNodeId body)
      (Network.send c.metadataNodeId frame c.network)).1 = some message) :
    Rpc.makeMessageIs requestId job .response c.metadataNodeId body message = true ∧
      ∃ rpcMessage, Rpc.readMessage ClientJob message = .ok rpcMessage ∧
        c.call requestId job seconds body frame = (.ok (.ok rpcMessage), { c with
          network := (Network.receiveIf seconds (Rpc.makeMessageIs requestId job .response c.metadataNodeId body)
            (Network.send c.metadataNodeId frame c.network)).2 }) := by
  have accepted := Network.receiveIf_accepts _ _ _ _ received
  refine ⟨accepted, ?_⟩
  obtain ⟨matched, rest, made⟩ := Rpc.exists_makeFrame_of_accepted accepted
  have read : ∃ rpcMessage, Rpc.readMessage ClientJob message = .ok rpcMessage ∧
      rpcMessage.rpcHeader = { requestId, job, kind := .response } := by
    rw [made] at matched ⊢
    exact ⟨_, Rpc.readMessage_matched matched (.inr rfl), rfl⟩
  obtain ⟨rpcMessage, read, header⟩ := read
  refine ⟨rpcMessage, read, ?_⟩
  unfold call
  generalize Network.receiveIf seconds (Rpc.makeMessageIs requestId job .response c.metadataNodeId body)
    (Network.send c.metadataNodeId frame c.network) = result at received ⊢
  obtain ⟨r, n⟩ := result
  cases received
  dsimp only
  rw [read]
  exact if_neg (not_not.2 header)

end Calls

theorem write_result (d : Disk) (p : FilePath) (data : Bytes) :
    (Fails d.outcomes 0 → ∃ e, (d.write p data).1 = .error e) ∧ (¬ Fails d.outcomes 0 → (d.write p data).1 = .ok ()) := by
  constructor
  · intro bad
    obtain ⟨e, failed⟩ := outcome_fails bad
    exact ⟨e, by rw [Disk.write, failed]⟩
  · intro fine
    rw [Disk.write, outcome_fine fine]

/-- The write of a chunk keeps the temporary file a file. -/
theorem write_passed {data : Bytes} (source : d.tree.content p = some b) :
    (∃ ts, (d.write p data).2.trail = d.trail ++ ts) ∧ (∀ q, q ≠ p → (d.write p data).2.tree.kind q = d.tree.kind q) ∧
      ∃ b', (d.write p data).2.tree.content p = some b' := by
  rcases written : d.write p data with ⟨r, d'⟩
  obtain ⟨n, last, -, trail⟩ := Disk.write_tree written
  have content := Disk.overwritten_file source ((d.tree.content p).getD [] ++ data.take n)
  rw [← last] at content
  exact ⟨⟨_, trail⟩, fun q ne => Disk.write_kind written ne, _, content⟩

omit [Network ν] in
/-- The write of a chunk: an error is answered by the removal of the temporary file, and `next` goes on with the chunk behind
what the file held. -/
theorem write_ends {whole : Bytes → Prop} {clears : Prop} {data : Bytes} {next : Disk → Returned Unit × Client ν}
    (source : c.disk.tree.content temporary = some b)
    (goes : ∀ d, d.tree.content temporary = some (b ++ data) → (∀ q, q ≠ temporary → d.tree.kind q = c.disk.tree.kind q) →
      d.outcomes = c.disk.outcomes.tail → Ends toPath temporary whole clears d (next d)) :
    Ends toPath temporary whole (if Fails c.disk.outcomes 0 then ¬ Fails c.disk.outcomes 2 else clears) c.disk
      (match c.disk.write temporary data with
        | (.error _, disk) => (.ok (.error .readError), { c with disk }.discardTemporary temporary)
        | (.ok _, disk) => next disk) := by
  obtain ⟨trail, frame, b', kept⟩ := @write_passed c.disk temporary b data source
  have drawn : (c.disk.write temporary data).2.outcomes = c.disk.outcomes.tail := rfl
  have result := write_result c.disk temporary data
  rcases written : c.disk.write temporary data with ⟨r, d⟩
  rw [written] at trail frame kept drawn result
  dsimp only at trail frame kept drawn result ⊢
  by_cases bad : Fails c.disk.outcomes 0
  · obtain ⟨e, failed⟩ := result.1 bad
    rw [if_pos bad, failed]
    have ended := @discarded_ends _ { c with disk := d } _ toPath b' whole .readError kept
    refine (ended.behind frame trail fun _ => id).when (not_congr ?_)
    show _ ↔ Fails d.outcomes 1
    rw [drawn]
    exact (@fails_drawn c.disk 1).symm
  · have done := result.2 bad
    rw [if_neg bad, done]
    have grown : d.tree.content temporary = some (b ++ data) := Disk.write_ok (by rw [written, done]) source
    exact (goes d grown frame drawn).behind frame trail fun _ => id

theorem chunkFrom_eq {fileSize : UInt64} {i : UInt32} {message : Message} {rpcMessage : ClientRpcMessage}
    {response : ReadChunkResponse} (read : Rpc.readMessage ClientJob message = .ok rpcMessage)
    (decoded : ClientProtocol.decodeReadChunkResponse rpcMessage = .ok response) :
    chunkFrom fileSize i message =
      if response.status = .success ∧ response.chunkIndex = i ∧ response.data.length = (expectedSize fileSize i).toNat then
        some response.data
      else none := by
  have both : (Rpc.readMessage ClientJob message >>= ClientProtocol.decodeReadChunkResponse) = .ok response := by
    rw [read]
    exact decoded
  rw [chunkFrom, both]

theorem readChunks_ends {requestId fileSize : UInt64} {name : Name} (apart : name ≠ toPath) (left : Nat) (i : UInt32)
    (c : Client ν) (b : Bytes) (source : c.disk.tree.content [name] = some b) :
    Ends toPath [name]
      (fun bytes => ∃ chunks, Receives c.metadataNodeId requestId fileSize left i c.network chunks ∧ bytes = b ++ chunks.flatten)
      (Removable c.metadataNodeId requestId fileSize (c.disk.tree.kind (localPath toPath) = some .dir) left i c.network
        c.disk.outcomes)
      c.disk (c.readChunks requestId fileSize toPath [name] left i) := by
  induction left generalizing i c b with
  | zero =>
      rw [readChunks, Removable]
      refine (finishRead_ends apart source).behind (fun _ _ => rfl) ⟨[], (List.append_nil _).symm⟩ ?_
      rintro bytes rfl
      exact ⟨[], .done i _, (List.append_nil _).symm⟩
  | succ left ih =>
      rw [readChunks, Removable]
      let behind : Client ν := { c with network := (chunkReply c.metadataNodeId requestId i c.network).2 }
      cases reply : (chunkReply c.metadataNodeId requestId i c.network).1 with
      | none =>
          rw [call_timeout reply]
          exact @discarded_ends _ behind _ _ _ _ _ source
      | some message =>
          obtain ⟨accepted, rpcMessage, read, called⟩ := call_received reply
          have decodes := ClientProtocol.receive_readChunkResponse_isOk accepted
          rw [read] at decodes
          change (ClientProtocol.decodeReadChunkResponse rpcMessage).isOk = _ at decodes
          rw [called]
          dsimp only
          cases decoded : ClientProtocol.decodeReadChunkResponse rpcMessage with
          | error e =>
              rw [decoded] at decodes
              have short : ¬ chunkReplyLength ≤ message.buffer.length := of_decide_eq_false decodes.symm
              exact (@thrown_ends _ behind _ _ _ _).when (iff_of_false (fun h => short h.1) id)
          | ok response =>
              rw [decoded] at decodes
              have long : chunkReplyLength ≤ message.buffer.length := of_decide_eq_true decodes.symm
              have from_ : chunkFrom fileSize i message = _ := chunkFrom_eq read decoded
              dsimp only
              by_cases success : response.status = .success
              · rw [if_neg (not_not.2 success)]
                by_cases fits : response.chunkIndex = i ∧ response.data.length = (expectedSize fileSize i).toNat
                · rw [if_pos ⟨success, fits⟩] at from_
                  have fits' : ¬ (response.chunkIndex ≠ i ∨ response.data.length ≠ (expectedSize fileSize i).toNat) := by
                    rw [not_or, not_not, not_not]
                    exact fits
                  rw [from_, if_neg fits']
                  dsimp only
                  refine (@write_ends _ behind [name] toPath b _ _ response.data _ source fun d grown frame drawn => ?_).when
                    (and_iff_right long)
                  have rest := ih (i + 1) { behind with disk := d } (b ++ response.data) grown
                  have destination : d.tree.kind (localPath toPath) = c.disk.tree.kind (localPath toPath) :=
                    frame _ fun same => apart (List.singleton_inj.1 same).symm
                  change Ends _ _ _ (Removable _ _ _ (d.tree.kind (localPath toPath) = _) _ _ _ d.outcomes) _ _ at rest
                  rw [destination, drawn] at rest
                  refine rest.behind (fun _ _ => rfl) ⟨[], (List.append_nil _).symm⟩ ?_
                  rintro bytes ⟨chunks, receives, rfl⟩
                  refine ⟨response.data :: chunks, .chunk reply from_ receives, ?_⟩
                  rw [List.flatten_cons, List.append_assoc]
                · rw [if_neg fun all => fits all.2] at from_
                  rw [from_, if_pos (not_and_or.1 fits)]
                  exact (@discarded_ends _ behind _ _ _ _ _ source).when (and_iff_right long)
              · rw [if_neg fun all => success all.1] at from_
                rw [if_pos success, from_]
                exact (@discarded_ends _ behind _ _ _ _ _ source).when (and_iff_right long)

/-! ## The whole operation -/

/-- The chunks of a file are all of its bytes. -/
theorem Receives.length {metadata : NodeId} {requestId fileSize : UInt64} {count : UInt32} {left : Nat} {i : UInt32} {n : ν}
    {chunks : List Bytes} (receives : Receives metadata requestId fileSize left i n chunks)
    (sized : chunksOf fileSize = count.toUInt64) (here : i.toNat + left = count.toNat) :
    chunks.flatten.length = fileSize.toNat - i.toNat * chunkSize := by
  induction receives with
  | done i n =>
      have rounded := chunkCount_toNat sized
      rw [List.flatten_nil, List.length_nil]
      simp only [chunkSize] at rounded ⊢
      omega
  | @chunk left i n message data rest reply from_ behind ih =>
      have bound := count.toNat_lt
      have below : i < count := UInt32.lt_iff_toNat_lt.2 (by omega)
      have exact_ := chunkExact_of_below sized below
      have length : data.length = (expectedSize fileSize i).toNat := by
        unfold chunkFrom at from_
        split at from_
        · cases from_
        · split at from_
          · rename_i fits
            cases from_
            exact fits.2.2
          · cases from_
      rw [List.flatten_cons, List.length_append, length, exact_.expected, ih (by rw [exact_.next]; omega), exact_.next]
      simp only [chunkSize]
      omega

variable {fromPath : Bytes}

/-- Nothing has happened to the disk. -/
theorem untouched {e : ClientError} {c' : Client ν} (tree : c'.disk.tree = c.disk.tree) (trail : c'.disk.trail = c.disk.trail) :
    AllOrNothing fromPath toPath c (.ok (.error e)) c' :=
  ⟨⟨_, rfl⟩, nofun, fun _ _ => by rw [tree], .inr trail⟩

theorem announcedBy_eq {message : Message} {rpcMessage : ClientRpcMessage} {response : ReadFileResponse}
    (read : Rpc.readMessage ClientJob message = .ok rpcMessage)
    (decoded : ClientProtocol.decodeReadFileResponse rpcMessage = .ok response) :
    announcedBy message =
      if response.status = .success ∧ chunksOf response.fileSize = response.chunkCount.toUInt64 then
        some (response.fileSize, response.chunkCount)
      else none := by
  have both : (Rpc.readMessage ClientJob message >>= ClientProtocol.decodeReadFileResponse) = .ok response := by
    rw [read]
    exact decoded
  rw [announcedBy, both]

theorem temporary_ne (toPath : Bytes) (requestId : UInt64) : toPath ++ temporarySuffix requestId ≠ toPath := by
  intro same
  have lengths := congrArg List.length same
  simp [temporarySuffix] at lengths

/-- Once the temporary file is open, only its removal is in question. -/
theorem Ends.allOrNothing {whole : Bytes → Prop} {clears : Prop} {out : Returned Unit × Client ν} {t : FileTree}
    (ends : Ends toPath (temporaryPath toPath (c.currentId + 1)) whole clears d out) (opened : d.trail = c.disk.trail ++ [t])
    (destination : d.tree.kind (localPath toPath) = c.disk.tree.kind (localPath toPath))
    (all : ∀ bytes, whole bytes → ∃ message fileSize count chunks, (c.fileReply fromPath).1 = some message ∧
      announcedBy message = some (fileSize, count) ∧
      Receives c.metadataNodeId (c.currentId + 1) fileSize count.toNat 0 (c.fileReply fromPath).2 chunks ∧
      bytes = chunks.flatten ∧ chunks.flatten.length = fileSize.toNat) :
    AllOrNothing fromPath toPath c out.1 out.2 ↔ clears := by
  rw [← ends.clear]
  constructor
  · intro whole
    refine ⟨whole.returns, whole.tidy.resolve_right fun same => ?_⟩
    obtain ⟨ts, passed⟩ := ends.trail
    have lengths := congrArg List.length (passed.symm.trans same)
    rw [opened] at lengths
    simp only [List.length_append, List.length_singleton] at lengths
    omega
  · rintro ⟨returns, gone⟩
    refine ⟨returns, fun done => ?_, fun e failed => ?_, .inl gone⟩
    · obtain ⟨bytes, here, content⟩ := ends.success done
      obtain ⟨message, fileSize, count, chunks, reply, announced, receives, rfl, length⟩ := all bytes here
      exact ⟨message, fileSize, count, chunks, reply, announced, receives, content, length⟩
    · have apart : localPath toPath ≠ temporaryPath toPath (c.currentId + 1) :=
        fun same => temporary_ne toPath _ (List.singleton_inj.1 same).symm
      rw [ends.frame (by rw [failed]; nofun) _ apart, destination]

/-- `read_file` gets all of the file or nothing exactly where no reply that it takes is cut short and its temporary file
can be removed where it has to be. -/
theorem readFile_allOrNothing_iff (fromPath toPath : Bytes) (c : Client ν) :
    AllOrNothing fromPath toPath c (c.readFile fromPath toPath).1 (c.readFile fromPath toPath).2 ↔ c.Tidies fromPath toPath := by
  rw [readFile, Tidies]
  let behind : Client ν := { c with currentId := c.currentId + 1, network := (c.fileReply fromPath).2 }
  cases reply : (c.fileReply fromPath).1 with
  | none =>
      rw [@call_timeout _ _ { c with currentId := c.currentId + 1 } _ _ _ _ _ reply]
      exact iff_of_true (untouched rfl rfl) trivial
  | some message =>
      obtain ⟨accepted, rpcMessage, read, called⟩ := @call_received _ _ { c with currentId := c.currentId + 1 } _ _ _ _ _ _ reply
      have decodes := ClientProtocol.receive_readFileResponse_isOk accepted
      rw [read] at decodes
      change (ClientProtocol.decodeReadFileResponse rpcMessage).isOk = _ at decodes
      rw [called]
      dsimp only
      cases decoded : ClientProtocol.decodeReadFileResponse rpcMessage with
      | error e =>
          rw [decoded] at decodes
          have misfit : ¬ message.buffer.length = fileReplyLength := of_decide_eq_false decodes.symm
          exact iff_of_false (fun whole => nomatch whole.returns) fun h => misfit h.1
      | ok response =>
          rw [decoded] at decodes
          have fits : message.buffer.length = fileReplyLength := of_decide_eq_true decodes.symm
          have announced := announcedBy_eq read decoded
          dsimp only
          by_cases success : response.status = .success
          · rw [if_neg (not_not.2 success)]
            by_cases sized : chunksOf response.fileSize = response.chunkCount.toUInt64
            · rw [if_pos ⟨success, sized⟩] at announced
              rw [if_neg (not_not.2 sized)]
              by_cases none : toPath = []
              · rw [if_pos none]
                exact iff_of_true (@untouched _ _ _ _ _ _ behind rfl rfl) ⟨fits, fun _ _ _ ne => absurd none ne⟩
              rw [if_neg none]
              by_cases blocked : Fails c.disk.outcomes 0 ∨ c.disk.tree.kind (temporaryPath toPath (c.currentId + 1)) = some .dir
              · obtain ⟨e, d, refused⟩ := open_fails blocked
                have same := Disk.call_error refused
                rw [temporaryPath, localPath, refused]
                exact iff_of_true (@untouched _ _ _ _ _ _ { behind with disk := d } same.1 same.2)
                  ⟨fits, fun _ _ _ _ free => absurd blocked free⟩
              · obtain ⟨t, made, opened⟩ := open_creates blocked
                have source : t.content [toPath ++ temporarySuffix (c.currentId + 1)] = some [] := by
                  rw [FileTree.setFile_content made, if_pos rfl]
                have ends := @readChunks_ends _ _ toPath (c.currentId + 1) response.fileSize _
                  (temporary_ne toPath (c.currentId + 1)) response.chunkCount.toNat 0
                  { behind with disk := c.disk.drawn.reach t } [] source
                have destination : t.kind (localPath toPath) = c.disk.tree.kind (localPath toPath) :=
                  FileTree.setFile_kind made fun same => temporary_ne toPath _ (List.singleton_inj.1 same).symm
                have whole := @Ends.allOrNothing _ _ c _ _ fromPath _ _ _ _ ends rfl destination ?_
                · change _ ↔ Removable _ _ _ (t.kind (localPath toPath) = _) _ _ _ c.disk.outcomes.tail at whole
                  rw [destination] at whole
                  rw [temporaryPath, localPath, opened]
                  refine whole.trans ⟨fun rest => ⟨fits, fun fileSize count same _ _ => ?_⟩, fun h => ?_⟩
                  · cases announced.symm.trans same
                    exact rest
                  · exact h.2 _ _ announced none blocked
                · rintro bytes ⟨chunks, receives, rfl⟩
                  refine ⟨message, _, _, chunks, reply, announced, receives, rfl, ?_⟩
                  have length := receives.length sized (by simp)
                  simpa using length
            · rw [if_neg fun both => sized both.2] at announced
              rw [if_pos sized]
              exact iff_of_true (@untouched _ _ _ _ _ _ behind rfl rfl)
                ⟨fits, fun _ _ same => nomatch announced.symm.trans same⟩
          · rw [if_neg fun both => success both.1] at announced
            rw [if_pos success]
            exact iff_of_true (@untouched _ _ _ _ _ _ behind rfl rfl)
              ⟨fits, fun _ _ same => nomatch announced.symm.trans same⟩

/-- A new client on an empty disk, with the messages that will have come from the metadata node `"m"`. -/
def expecting (frames : List Frame) : Client Inbox where
  network := ⟨frames.map (·.from ⟨[109], .metadata⟩)⟩
  disk := { tree := .empty, outcomes := [], trail := [], outside := fun _ => none }
  metadataNodeId := [109]
  currentId := 0

/-- The file has one byte, but the reply to `READ_CHUNK` ends behind its chunk index. -/
def cutShort : Client Inbox :=
  expecting [ClientProtocol.encodeReadFileResponse 1 { status := .success, fileSize := 1, chunkCount := 1, context := noContext },
    Rpc.makeFrame 1 ClientJob.readChunk .response (write (0 : UInt32))]

/-- An exception leaves `read_file`, and the temporary file stays. -/
theorem cutShort_thrown :
    ¬ AllOrNothing [112] [113] cutShort (cutShort.readFile [112] [113]).1 (cutShort.readFile [112] [113]).2 ∧
      ((cutShort.readFile [112] [113]).2.disk.tree.kind (temporaryPath [113] 1)).isSome = true := by
  refine ⟨fun whole => ?_, by decide +kernel⟩
  obtain ⟨outcome, returned⟩ := whole.returns
  have thrown : (cutShort.readFile [112] [113]).1.isOk = false := by decide +kernel
  rw [returned] at thrown
  cases thrown

end Client

end Dfs
