import Dfs.Client.Link
import Dfs.Metadata.Traffic

/-!
# Whose reply a client accepts

A client knows a reply by its sender, request id, job and chunk index, and the request ids of every
process start again from 1. So what it accepts answers the request it has just sent, or one of
another process that looked the same and was on its way at that moment.
-/

namespace Dfs

open Lib

/-! ## What tells frames apart -/

/-- The key of a request. -/
def ClientEvent.key (event : ClientEvent) : RequestKey := ⟨event.context.requestId, event.job, event.chunkIndex⟩

namespace RequestKey

variable {key : RequestKey} {kind : RpcKind} {frame : Frame} {s : NodeIdentity} {event : ClientEvent}

/-- The frame has been made for the key. -/
def In (key : RequestKey) (kind : RpcKind) (frame : Frame) : Prop :=
  key.chunkIndex.isSome = key.job.chunked ∧
    ∃ rest, frame = Rpc.makeFrame key.requestId key.job kind ((key.chunkIndex.map write).getD [] ++ rest)

theorem In.of (here : key.In kind frame) : RequestKey.of frame = some key := by
  obtain ⟨requestId, job, chunkIndex⟩ := key
  obtain ⟨chunked, rest, rfl⟩ := here
  dsimp only at chunked ⊢
  obtain ⟨r, read, holds⟩ := Rpc.readHeader_frame requestId job kind ((chunkIndex.map write).getD [] ++ rest)
  rw [RequestKey.of, read]
  dsimp only
  cases chunkIndex with
  | none =>
      rw [if_neg (by simp [← chunked])]
  | some i =>
      obtain ⟨r', index, -⟩ := LawfulSerial.read_write i r rest trivial holds
      rw [if_pos (by simp [← chunked]), index]

theorem of_responds {status : ClientStatus} (responds : Responds event status frame) : event.key.In .response frame := by
  obtain ⟨rest, rfl⟩ := responds
  refine ⟨?_, write status ++ rest, rfl⟩
  cases event <;> rfl

/-- What a filter of the client tells from a response. -/
theorem In.accepted {requestId : UInt64} {job : ClientJob} {sender : NodeId} {p : BinaryReader → Except Exn Bool}
    (here : key.In .response frame) (h : Rpc.makeMessageIs requestId job .response sender p (frame.from s) = true) :
    key.requestId = requestId ∧ key.job = job ∧
      ∀ i, p = Rpc.matchChunk i → key.job.chunked = true → key.chunkIndex = some i := by
  obtain ⟨chunked, rest, rfl⟩ := here
  obtain ⟨-, id, same, -, r, holds, accepts⟩ := Rpc.makeMessageIs_accepts h
  refine ⟨id, same, fun i chunk isChunked => ?_⟩
  rw [isChunked] at chunked
  obtain ⟨j, found⟩ := Option.isSome_iff_exists.1 chunked
  rw [found] at holds ⊢
  obtain ⟨r', index, -⟩ := LawfulSerial.read_write j r rest trivial holds
  subst chunk
  simp only [Rpc.matchChunk, index, bind, Except.bind, pure, Except.pure, Except.ok.injEq, decide_eq_true_eq] at accepts
  rw [accepts]

end RequestKey

/-- A request is read together with the context it comes with. -/
theorem clientEvent_read {message : Message} {event : ClientEvent} (decoded : ClientEvent.of message = .ok event) :
    ∃ rpcMessage, Rpc.readMessage ClientJob message = .ok rpcMessage ∧ event.context = .of rpcMessage ∧
      event.job = rpcMessage.rpcHeader.job ∧
      ∀ i, event.chunkIndex = some i → ∃ r, (BinaryReader.start rpcMessage.body).read UInt32 = .ok (i, r) := by
  rw [ClientEvent.of] at decoded
  cases read : Rpc.readMessage ClientJob message with
  | error e =>
      rw [read] at decoded
      cases decoded
  | ok rpcMessage =>
      refine ⟨rpcMessage, rfl, ?_⟩
      simp only [read, bind, Except.bind] at decoded
      split at decoded
      all_goals try split at decoded
      all_goals cases decoded
      all_goals rename_i job _ request body
      all_goals
        simp only [ClientProtocol.decodeCreateFileRequest, ClientProtocol.decodeReadFileRequest,
          ClientProtocol.decodeReadChunkRequest, ClientProtocol.decodeWriteFileRequest, ClientProtocol.decodeWriteChunkRequest,
          ClientProtocol.decodeRemoveRequest, ClientProtocol.decodeListRequest, ClientProtocol.decodeMakeDirRequest,
          ClientProtocol.decodeRenameRequest, ClientProtocol.decodeStatRequest, bind, Except.bind] at body
        repeat' split at body
        all_goals cases body
        refine ⟨rfl, job.symm, ?_⟩
      all_goals intro i same
      all_goals cases same
      all_goals exact ⟨_, by assumption⟩

theorem RequestKey.In.read {key : RequestKey} {frame : Frame} {s : NodeIdentity} {event : ClientEvent}
    (here : key.In .request frame) (decoded : ClientEvent.of (frame.from s) = .ok event) : event.key = key := by
  obtain ⟨requestId, job, chunkIndex⟩ := key
  obtain ⟨chunked, rest, rfl⟩ := here
  dsimp only at chunked
  obtain ⟨rpcMessage, read, context, same, chunk⟩ := clientEvent_read decoded
  have matched := (Rpc.exists_makeFrame_of_read read).1
  rw [Rpc.readMessage_matched matched (.inl rfl)] at read
  cases read
  have index : event.chunkIndex.isSome = event.job.chunked := by cases event <;> rfl
  have jobs : event.job = job := same
  rw [ClientEvent.key, context, jobs]
  congr 1
  rw [jobs, ← chunked] at index
  cases found : event.chunkIndex with
  | none =>
      rw [found] at index
      exact (Option.isNone_iff_eq_none.1 (Option.isSome_eq_false_iff.1 index.symm)).symm
  | some i =>
      rw [found] at index
      obtain ⟨j, rfl⟩ := Option.isSome_iff_exists.1 index.symm
      obtain ⟨r, first⟩ := chunk i found
      obtain ⟨r', second, -⟩ := LawfulSerial.read_write j (BinaryReader.start (write j ++ rest)) rest trivial
        (BinaryReader.holds_start _)
      cases first.symm.trans second
      rfl

/-! ## What is on its way -/

/-- A frame of the metadata node that the client can take for a response has been made for the request it
belongs to. -/
def Reply.Sound (reply : Reply) : Prop :=
  (∃ key, RequestKey.of reply.ask.frame = some key ∧ key.In .response reply.frame) ∨
    reply.frame.header.type ≠ .clientRpc

/-- A request has been made for its key, and the key has the id of its operation. -/
def Ask.Sound (ask : Ask) : Prop :=
  ∃ key : RequestKey, key.In .request ask.frame ∧ key.requestId = UInt64.ofNat ask.operation

namespace Link

variable {l l' l'' : Link} {hand : List Ask} {reply : Reply} {ask : Ask}

theorem mem_replies : reply ∈ l.replies ↔ reply ∈ l.pendingFrames ∨ reply ∈ l.written ∨ reply ∈ l.messageQueue := by
  simp [replies]

theorem mem_outstanding : ask ∈ l.outstanding ↔ ask ∈ l.requests ∨ ∃ reply ∈ l.replies, reply.ask = ask := by
  simp [outstanding]

/-- From `l` to `l'` nothing new is asked; `hand` are the requests that are being handled. -/
structure Later (hand : List Ask) (l l' : Link) : Prop where
  client : l'.client = l.client
  metadata : l'.metadata = l.metadata
  process : l'.process = l.process
  operation : l'.operation = l.operation
  outstanding : ∀ ask ∈ l'.outstanding, ask ∈ hand ∨ ask ∈ l.outstanding
  replies : ∀ reply ∈ l'.replies, reply ∈ l.replies ∨ reply.Sound

theorem Later.refl : Later hand l l := ⟨rfl, rfl, rfl, rfl, fun _ => .inr, fun _ => .inl⟩

theorem Later.trans (first : Later hand l l') (second : Later hand l' l'') : Later hand l l'' where
  client := second.client.trans first.client
  metadata := second.metadata.trans first.metadata
  process := second.process.trans first.process
  operation := second.operation.trans first.operation
  outstanding ask mem := (second.outstanding ask mem).elim .inl (first.outstanding ask)
  replies reply mem := (second.replies reply mem).elim (first.replies reply) .inr

/-- What is under way may move on or be lost. -/
theorem Later.moved (client : l'.client = l.client) (metadata : l'.metadata = l.metadata) (process : l'.process = l.process)
    (operation : l'.operation = l.operation) (requests : l'.requests ⊆ l.requests) (replies : l'.replies ⊆ l.replies) :
    Later hand l l' := by
  refine ⟨client, metadata, process, operation, fun ask mem => .inr ?_, fun reply mem => .inl (replies mem)⟩
  rw [mem_outstanding] at mem ⊢
  exact mem.imp (@requests ask) fun ⟨reply, there, same⟩ => ⟨reply, replies there, same⟩

/-- Frames for the request in hand are under way. -/
theorem Later.added (client : l'.client = l.client) (metadata : l'.metadata = l.metadata) (process : l'.process = l.process)
    (operation : l'.operation = l.operation) (requests : l'.requests = l.requests) (sound : reply.Sound)
    (replies : ∀ other ∈ l'.replies, other ∈ l.replies ∨ other = reply) : Later [reply.ask] l l' := by
  refine ⟨client, metadata, process, operation, fun ask mem => ?_, fun other mem => ?_⟩
  · rw [mem_outstanding, requests] at mem
    rcases mem with asked | ⟨other, there, rfl⟩
    · exact .inr (mem_outstanding.2 (.inl asked))
    · rcases replies other there with old | rfl
      · exact .inr (mem_outstanding.2 (.inr ⟨other, old, rfl⟩))
      · exact .inl List.mem_cons_self
  · rcases replies other mem with old | rfl
    · exact .inl old
    · exact .inr sound

theorem Later.act (a : LinkAct) : Later hand l (l.act a) := by
  cases a with
  | register process =>
      rw [Link.act]
      split
      · rw [register, Link.hand]
        split
        · refine .moved rfl rfl rfl rfl (List.Subset.refl _) fun reply mem => ?_
          simp only [mem_replies, List.not_mem_nil, List.mem_append] at mem ⊢
          rcases mem with none | (there | waits) | queued
          · exact none.elim
          · exact .inr (.inl there)
          · exact .inl waits
          · exact .inr (.inr queued)
        · refine .moved rfl rfl rfl rfl (List.Subset.refl _) fun reply mem => ?_
          rw [mem_replies] at mem ⊢
          exact mem.elim nofun .inr
      · exact .refl
  | fail => exact .moved rfl rfl rfl rfl (List.Subset.refl _) (List.Subset.refl _)
  | deliver i =>
      rw [Link.act, deliver]
      split
      · exact .refl
      rename_i reply found
      refine .moved rfl rfl rfl rfl (List.Subset.refl _) fun other mem => ?_
      simp only [mem_replies, List.mem_append, List.mem_singleton] at mem ⊢
      rcases mem with waits | there | queued | rfl
      · exact .inl waits
      · exact .inr (.inl (List.mem_of_mem_eraseIdx there))
      · exact .inr (.inr queued)
      · exact .inr (.inl (List.mem_of_getElem? found))
  | loseReply i =>
      refine .moved rfl rfl rfl rfl (List.Subset.refl _) fun reply mem => ?_
      rw [mem_replies] at mem ⊢
      exact mem.imp_right (.imp_left List.mem_of_mem_eraseIdx)
  | loseRequest i =>
      exact .moved rfl rfl rfl rfl (fun ask => List.mem_of_mem_eraseIdx) (List.Subset.refl _)

theorem Later.acts (as : List LinkAct) : Later hand l (l.acts as) := by
  induction as generalizing l with
  | nil => exact .refl
  | cons a as ih => exact (Later.act a).trans ih

/-- The metadata node sends a frame for the request in its hand. -/
theorem Later.send (sound : reply.Sound) : Later [reply.ask] l (l.send reply) := by
  rw [Link.send]
  split
  · refine .added rfl rfl rfl rfl rfl sound fun other mem => ?_
    simp only [mem_replies, List.mem_append, List.mem_singleton] at mem ⊢
    rcases mem with (waits | rfl) | rest
    · exact .inl (.inl waits)
    · exact .inr rfl
    · exact .inl (.inr rest)
  · rw [Link.hand]
    split
    · refine .added rfl rfl rfl rfl rfl sound fun other mem => ?_
      simp only [mem_replies, List.mem_append, List.mem_singleton] at mem ⊢
      rcases mem with waits | (there | rfl) | queued
      · exact .inl (.inl waits)
      · exact .inl (.inr (.inl there))
      · exact .inr rfl
      · exact .inl (.inr (.inr queued))
    · exact .refl

end Link

/-! ## The metadata node -/

namespace Desk

variable {d d' : Desk}

/-- What a handler does to the network in front of it. -/
theorem used_later (used : Network.Used (fun frame => (⟨frame, d.ask⟩ : Reply).Sound) d d') :
    d'.ask = d.ask ∧ Link.Later [d.ask] d.link d'.link := by
  refine used.keeps (P := fun d' => d'.ask = d.ask ∧ Link.Later [d.ask] d.link d'.link) (fun d' node frame holds sound => ?_)
    (fun d' timeout p holds => ?_) ⟨rfl, .refl⟩
  · obtain ⟨same, later⟩ := holds
    simp only [Network.send]
    split
    · refine ⟨same, later.trans ?_⟩
      rw [← same] at sound ⊢
      exact Link.Later.send sound
    · exact ⟨same, later⟩
  · simp only [Network.receiveIf]
    split
    · exact holds
    · exact ⟨holds.1, holds.2.trans (.acts _)⟩

end Desk

namespace World

variable {w w' w'' : World}

/-- The metadata node and the network go on while the client waits. -/
structure Later (w w' : World) : Prop where
  link : Link.Later [] w.link w'.link
  asked : w'.asked = w.asked
  accepted : w'.accepted = w.accepted

theorem Later.refl : Later w w := ⟨.refl, rfl, rfl⟩

theorem Later.trans (first : Later w w') (second : Later w' w'') : Later w w'' :=
  ⟨first.link.trans second.link, second.asked.trans first.asked, second.accepted.trans first.accepted⟩

/-- Only requests of the client are in the hands of the metadata node. -/
def Proper (w : World) : Prop := ∀ ask ∈ w.link.outstanding, ask.Sound

theorem Later.proper (later : Later w w') (proper : w.Proper) : w'.Proper := fun ask mem =>
  (later.link.outstanding ask mem).elim nofun (proper ask)

/-- Requests to storage nodes are frames of another type. -/
theorem asks_sound {worker : MetadataWorker} {event : ClientEvent} (ask : Ask) :
    MetadataState.Asks (fun frame => (⟨frame, ask⟩ : Reply).Sound) worker event := by
  cases event with
  | writeChunk req => exact fun write _ _ => .inr nofun
  | readChunk req => exact fun read _ id => .inr nofun
  | remove req => exact fun m _ id => .inr nofun
  | _ => trivial

theorem Later.handle (proper : w.Proper) (i : Nat) (env : Env) (waits : List (Option Message × List LinkAct)) :
    Later w (w.handle i env waits) := by
  rw [World.handle]
  split
  · exact .refl
  split
  · exact .refl
  rename_i ask taken
  have asked := List.mem_of_getElem? taken
  have here : ask ∈ w.link.outstanding := Link.mem_outstanding.2 (.inl asked)
  have left : Link.Later [] w.link { w.link with requests := w.link.requests.eraseIdx i } :=
    .moved rfl rfl rfl rfl (fun ask => List.mem_of_mem_eraseIdx) (List.Subset.refl _)
  dsimp only
  split
  · exact ⟨left, rfl, rfl⟩
  · rename_i event decoded
    obtain ⟨key, made, -⟩ := proper ask here
    have read : ClientEvent.of (ask.frame.from ⟨w.link.client, .client⟩) = .ok event := by
      rw [NodeJob.of] at decoded
      split at decoded
      · split at decoded
        · cases decoded
        · rename_i read
          cases decoded
          exact read
      · split at decoded <;> cases decoded
    have responds : ∀ status frame, Responds event status frame → (⟨frame, ask⟩ : Reply).Sound := fun status frame answers =>
      .inl ⟨key, made.of, made.read read ▸ RequestKey.of_responds answers⟩
    let desk : Desk := { link := { w.link with requests := w.link.requests.eraseIdx i }, ask, waits }
    let s : MetadataState Desk := { worker := w.worker, network := desk }
    have used : Network.Used (fun frame => (⟨frame, ask⟩ : Reply).Sound) desk (MetadataState.handle env event s).2.network :=
      MetadataState.handle_sends (s := s) (asks_sound ask) responds
    obtain ⟨-, later⟩ := Desk.used_later (d := desk) used
    refine ⟨⟨later.client, later.metadata, later.process, later.operation, fun other mem => .inr ?_, fun reply mem => ?_⟩, rfl, rfl⟩
    · rcases later.outstanding other mem with hand | out
      · exact List.mem_singleton.1 hand ▸ here
      · exact (left.outstanding other out).resolve_left List.not_mem_nil
    · exact (later.replies reply mem).elim (left.replies reply) .inr
  · exact ⟨left, rfl, rfl⟩

theorem Later.act (proper : w.Proper) (a : WorldAct) : Later w (w.act a) := by
  cases a with
  | link a => exact ⟨.act a, rfl, rfl⟩
  | handle i env waits => exact .handle proper i env waits

theorem Later.acts (proper : w.Proper) (as : List WorldAct) : Later w (w.acts as) := by
  induction as generalizing w with
  | nil => exact .refl
  | cons a as ih =>
      have first := Later.act proper a
      exact first.trans (ih (first.proper proper))

theorem Later.await (proper : w.Proper) : Later w w.await := by
  let rest : World := { w with script := w.script.tail }
  have waits : Later w rest := ⟨.refl, rfl, rfl⟩
  exact waits.trans (.acts (w := rest) proper _)

end World

/-! ## One request of the client -/

/-- `other` is of an earlier process, or 2⁶⁴ operations older than `ask`. -/
def Ask.Precedes (other ask : Ask) : Prop :=
  other.process < ask.process ∨ other.process = ask.process ∧ other.operation + 2 ^ 64 ≤ ask.operation

/-- What has been accepted belongs to the request sent last or to one of its rivals, which are all older. -/
def Acceptance.Sound (a : Acceptance) : Prop :=
  ∃ asked, a.asked = some asked ∧ (a.reply.ask = asked.ask ∨ a.reply.ask ∈ asked.rivals) ∧
    ∀ other ∈ asked.rivals, other.Precedes asked.ask

/-- The request sent last has the key, and what is on its way with that key is it or a rival. -/
def World.Awaits (key : RequestKey) (w : World) : Prop :=
  ∃ asked, w.asked = some asked ∧
    (∀ ask ∈ w.link.outstanding, RequestKey.of ask.frame = some key → ask = asked.ask ∨ ask ∈ asked.rivals) ∧
    ∀ other ∈ asked.rivals, other.Precedes asked.ask

/-- An operation with the request id `id` has sent requests with the keys `used` to `node`. -/
structure World.Performing (node : NodeId) (id : UInt64) (used : List RequestKey) (w : World) : Prop where
  metadata : w.link.metadata = node
  current : id = UInt64.ofNat w.link.operation
  proper : w.Proper
  process : ∀ ask ∈ w.link.outstanding, ask.process ≤ w.link.process
  operation : ∀ ask ∈ w.link.outstanding, ask.process = w.link.process → ask.operation ≤ w.link.operation
  used : ∀ ask ∈ w.link.outstanding, ask.process = w.link.process → ask.operation = w.link.operation →
    ∃ key ∈ used, RequestKey.of ask.frame = some key
  replies : ∀ reply ∈ w.link.replies, reply.Sound
  accepted : ∀ a ∈ w.accepted, a.Sound

namespace World

variable {w w' : World} {key : RequestKey} {node : NodeId} {id : UInt64} {used : List RequestKey} {frame : Frame}

/-- The part of an invariant that is about the link. -/
theorem Performing.onward (performing : w.Performing node id used) (link : Link.Later [] w.link w'.link)
    (accepted : ∀ a ∈ w'.accepted, a.Sound) : w'.Performing node id used := by
  have out : ∀ ask ∈ w'.link.outstanding, ask ∈ w.link.outstanding := fun ask mem => (link.outstanding ask mem).elim nofun fun there => there
  refine ⟨link.metadata.trans performing.metadata, ?_, fun ask mem => performing.proper ask (out ask mem), fun ask mem => ?_, fun ask mem => ?_, fun ask mem => ?_,
    fun reply mem => (link.replies reply mem).elim (performing.replies reply) fun there => there, accepted⟩
  · rw [link.operation]
    exact performing.current
  · rw [link.process]
    exact performing.process ask (out ask mem)
  · rw [link.process, link.operation]
    exact performing.operation ask (out ask mem)
  · rw [link.process, link.operation]
    exact performing.used ask (out ask mem)

theorem Performing.later (performing : w.Performing node id used) (later : Later w w') : w'.Performing node id used :=
  performing.onward later.link (later.accepted ▸ performing.accepted)

theorem Awaits.later (awaits : w.Awaits key) (later : Later w w') : w'.Awaits key := by
  obtain ⟨asked, sent, only, older⟩ := awaits
  exact ⟨asked, later.asked.trans sent, fun ask mem => only ask ((later.link.outstanding ask mem).elim nofun fun there => there), older⟩

/-- The same request id comes back after 2⁶⁴ operations. -/
theorem wrapped {m n : Nat} (less : m < n) (same : UInt64.ofNat m = UInt64.ofNat n) : m + 2 ^ 64 ≤ n := by
  have toNat := congrArg UInt64.toNat same
  simp only [UInt64.toNat_ofNat'] at toNat
  omega

/-- A request is sent; its rivals are on their way since before this operation. -/
theorem Performing.send (performing : w.Performing node id used) (made : key.In .request frame) (current : key.requestId = id)
    (new : key ∉ used) : (w.send frame).Performing node id (key :: used) ∧ (w.send frame).Awaits key := by
  let ask : Ask := ⟨w.link.process, w.link.operation, frame⟩
  have out : ∀ other ∈ (w.send frame).link.outstanding, other = ask ∨ other ∈ w.link.outstanding := by
    intro other mem
    rw [Link.mem_outstanding] at mem
    rcases mem with asked | there
    · rcases List.mem_append.1 asked with old | this
      · exact .inr (Link.mem_outstanding.2 (.inl old))
      · exact .inl (List.mem_singleton.1 this)
    · exact .inr (Link.mem_outstanding.2 (.inr there))
  constructor
  · refine ⟨performing.metadata, performing.current, fun other mem => ?_, fun other mem => ?_, fun other mem here => ?_, fun other mem here latest => ?_,
      performing.replies, performing.accepted⟩
    · rcases out other mem with rfl | old
      · exact ⟨key, made, current.trans performing.current⟩
      · exact performing.proper other old
    · rcases out other mem with rfl | old
      · exact Nat.le_refl _
      · exact performing.process other old
    · rcases out other mem with rfl | old
      · exact Nat.le_refl _
      · exact performing.operation other old here
    · rcases out other mem with rfl | old
      · exact ⟨key, List.mem_cons_self, made.of⟩
      · obtain ⟨key', mem', found⟩ := performing.used other old here latest
        exact ⟨key', List.mem_cons_of_mem key mem', found⟩
  · refine ⟨_, rfl, fun other mem same => ?_, fun other mem => ?_⟩
    · rcases out other mem with this | old
      · exact .inl this
      · exact .inr (List.mem_filter.2 ⟨old, by simp [same, made.of]⟩)
    · obtain ⟨old, same⟩ := List.mem_filter.1 mem
      have found : RequestKey.of other.frame = some key := (of_decide_eq_true same).trans made.of
      obtain ⟨key', made', numbered⟩ := performing.proper other old
      cases made'.of.symm.trans found
      by_cases here : other.process = w.link.process
      · have before := performing.operation other old here
        have earlier : other.operation ≠ w.link.operation := fun latest => by
          obtain ⟨key'', mem'', found''⟩ := performing.used other old here latest
          cases found''.symm.trans found
          exact new mem''
        have wraps : UInt64.ofNat other.operation = UInt64.ofNat w.link.operation := by
          rw [← numbered, current, performing.current]
        exact .inr ⟨here, wrapped (Nat.lt_of_le_of_ne before earlier) wraps⟩
      · exact .inl (Nat.lt_of_le_of_ne (performing.process other old) here)

/-- `p` takes no other response than one that has been made for the key. -/
def Selects (key : RequestKey) (p : Message → Bool) : Prop :=
  ∀ m, p m = true → m.header.type = .clientRpc ∧
    ∀ key' frame s, m = Frame.from frame s → key'.In .response frame → key' = key

theorem Performing.take {p : Message → Bool} (performing : w.Performing node id used) (awaits : w.Awaits key) (selects : Selects key p) :
    (w.take p).2.Performing node id used := by
  rw [World.take]
  split
  · exact performing
  rename_i reply messageQueue popped
  obtain ⟨found, rest⟩ := Prod.mk.inj popped
  have queued : reply ∈ w.link.messageQueue := List.mem_of_find?_eq_some found
  have left : ∀ other ∈ messageQueue, other ∈ w.link.messageQueue := fun other mem =>
    List.mem_of_mem_eraseP (rest ▸ mem)
  have link : Link.Later [] w.link { w.link with messageQueue } := by
    refine .moved rfl rfl rfl rfl (List.Subset.refl _) fun other mem => ?_
    rw [Link.mem_replies] at mem ⊢
    exact mem.imp_right (.imp_right (left other))
  refine performing.onward link fun a mem => ?_
  rcases List.mem_append.1 mem with old | new
  · exact performing.accepted a old
  rw [List.mem_singleton.1 new]
  obtain ⟨asked, sent, only, older⟩ := awaits
  have accepts : p (reply.frame.from ⟨w.link.metadata, .metadata⟩) = true := by
    have holds := List.find?_some found
    exact holds
  obtain ⟨rpc, selected⟩ := selects _ accepts
  have there : reply ∈ w.link.replies := Link.mem_replies.2 (.inr (.inr queued))
  refine ⟨asked, sent, only reply.ask (Link.mem_outstanding.2 (.inr ⟨reply, there, rfl⟩)) ?_, older⟩
  rcases performing.replies reply there with ⟨key', found', made⟩ | other
  · rwa [← selected key' reply.frame _ rfl made]
  · exact absurd rpc other

end World

/-! ## The operations -/

namespace Client

variable {c : Client World} {used : List RequestKey} {frame : Frame} {requestId : UInt64} {job : ClientJob}
  {chunkIndex : Option UInt32}

def Performing (used : List RequestKey) (c : Client World) : Prop := c.network.Performing c.metadataNodeId c.currentId used

/-- The filter for the response to a request. -/
theorem selects {node : NodeId} {body : BinaryReader → Except Exn Bool}
    (made : RequestKey.In ⟨requestId, job, chunkIndex⟩ .request frame)
    (chunk : ∀ i, chunkIndex = some i → body = Rpc.matchChunk i) :
    World.Selects ⟨requestId, job, chunkIndex⟩ (Rpc.makeMessageIs requestId job .response node body) := by
  intro m accepts
  refine ⟨(Rpc.makeMessageIs_type accepts).1, ?_⟩
  rintro ⟨requestId', job', chunkIndex'⟩ frame s rfl answer
  obtain ⟨rfl, rfl, index⟩ := answer.accepted accepts
  have chunked : chunkIndex'.isSome = chunkIndex.isSome := answer.1.trans made.1.symm
  cases chunkIndex with
  | none => rw [Option.isNone_iff_eq_none.1 (Option.isSome_eq_false_iff.1 chunked)]
  | some i =>
      have here : chunkIndex' = some i := index i (chunk i rfl) made.1.symm
      rw [here]

theorem call_performing (seconds : Nat) (body : BinaryReader → Except Exn Bool) (performing : c.Performing used)
    (made : RequestKey.In ⟨requestId, job, chunkIndex⟩ .request frame) (current : requestId = c.currentId)
    (new : ⟨requestId, job, chunkIndex⟩ ∉ used) (chunk : ∀ i, chunkIndex = some i → body = Rpc.matchChunk i) :
    (c.call requestId job seconds body frame).2.Performing (⟨requestId, job, chunkIndex⟩ :: used) ∧
      (c.call requestId job seconds body frame).2.currentId = requestId := by
  have selects : World.Selects ⟨requestId, job, chunkIndex⟩
      (Rpc.makeMessageIs requestId job .response c.metadataNodeId body) := selects made chunk
  obtain ⟨sent, awaits⟩ := World.Performing.send performing made current new
  have onward : World.Later (c.network.send frame) (c.network.send frame).await := .await sent.proper
  have taken := (sent.later onward).take (awaits.later onward) selects
  have received : Network.receiveIf seconds (Rpc.makeMessageIs requestId job .response c.metadataNodeId body)
      (Network.send c.metadataNodeId frame c.network) =
        (c.network.send frame).await.take (Rpc.makeMessageIs requestId job .response c.metadataNodeId body) := by
    simp only [Network.send, performing.metadata, Network.receiveIf]
    rfl
  rw [call, received]
  rcases got : (c.network.send frame).await.take
    (Rpc.makeMessageIs requestId job .response c.metadataNodeId body) with ⟨m, network⟩
  rw [got] at taken
  cases m with
  | none => exact ⟨taken, current.symm⟩
  | some m =>
      dsimp only
      split
      · exact ⟨taken, current.symm⟩
      · split <;> exact ⟨taken, current.symm⟩

/-- An operation that begins. -/
def Ready (c : Client World) : Prop := { c with currentId := c.currentId + 1 }.Performing []

theorem ask_performing {α : Type} {job : ClientJob} {frame : UInt64 → Frame}
    {response : ClientRpcMessage → Except Exn (ClientStatus × α)} (ready : c.Ready)
    (made : ∀ id, RequestKey.In ⟨id, job, none⟩ .request (frame id)) :
    ∃ used, (c.ask job frame response).2.Performing used := by
  have called := (call_performing timeout Rpc.matchAnyBody ready (made _) rfl List.not_mem_nil nofun).1
  refine ⟨[⟨c.currentId + 1, job, none⟩], ?_⟩
  rw [ask]
  split <;> rename_i got <;> rw [got] at called
  · exact called
  · exact called
  · split <;> exact called

/-- The chunks sent so far come before `chunkIndex`. -/
def Before (job : ClientJob) (chunkIndex : UInt32) (used : List RequestKey) : Prop :=
  ∀ key ∈ used, key.job = job → ∃ i, key.chunkIndex = some i ∧ i < chunkIndex

theorem Before.new {chunkIndex : UInt32} {id : UInt64} (before : Before job chunkIndex used) :
    ⟨id, job, some chunkIndex⟩ ∉ used := by
  intro mem
  obtain ⟨i, same, less⟩ := before _ mem rfl
  cases same
  exact absurd less (UInt32.lt_irrefl _)

theorem Before.next {chunkIndex : UInt32} {id : UInt64} (before : Before job chunkIndex used)
    (small : chunkIndex.toNat + 1 < 2 ^ 32) : Before job (chunkIndex + 1) (⟨id, job, some chunkIndex⟩ :: used) := by
  have succ : (chunkIndex + 1).toNat = chunkIndex.toNat + 1 := by
    rw [UInt32.toNat_add, UInt32.toNat_one, Nat.mod_eq_of_lt small]
  have less : chunkIndex < chunkIndex + 1 := UInt32.lt_iff_toNat_lt.2 (by omega)
  intro key mem same
  rcases List.mem_cons.1 mem with rfl | old
  · exact ⟨chunkIndex, rfl, less⟩
  · obtain ⟨i, found, below⟩ := before key old same
    exact ⟨i, found, UInt32.lt_trans below less⟩

theorem writeChunks_performing (left : Nat) {chunkIndex : UInt32} {file : Input} (performing : c.Performing used)
    (current : requestId = c.currentId) (small : chunkIndex.toNat + left < 2 ^ 32)
    (before : Before .writeChunk chunkIndex used) :
    ∃ used, (c.writeChunks requestId left chunkIndex file).2.Performing used := by
  induction left generalizing c chunkIndex file used with
  | zero => exact ⟨used, performing⟩
  | succ left ih =>
      rw [writeChunks]
      rcases file.read with ⟨data, file⟩
      dsimp only
      split
      · exact ⟨used, performing⟩
      have made : RequestKey.In ⟨requestId, .writeChunk, some chunkIndex⟩ .request
          (ClientProtocol.encodeWriteChunkRequest requestId { chunkIndex, data, context := noContext }) := ⟨rfl, data, rfl⟩
      obtain ⟨called, same⟩ := call_performing timeout (Rpc.matchChunk chunkIndex) performing made current before.new
        fun i found => Option.some.inj found ▸ rfl
      split <;> rename_i got <;> rw [got] at called same
      · exact ⟨_, called⟩
      · exact ⟨_, called⟩
      split
      · exact ⟨_, called⟩
      split
      · exact ⟨_, called⟩
      split
      · exact ⟨_, called⟩
      · refine ih called same.symm ?_ (before.next (by omega))
        rw [UInt32.toNat_add, UInt32.toNat_one, Nat.mod_eq_of_lt (by omega)]
        omega

theorem readChunks_performing {fileSize : UInt64} {toPath : Bytes} {temporary : FilePath} (left : Nat) {chunkIndex : UInt32}
    (performing : c.Performing used) (current : requestId = c.currentId) (small : chunkIndex.toNat + left < 2 ^ 32)
    (before : Before .readChunk chunkIndex used) :
    ∃ used, (c.readChunks requestId fileSize toPath temporary left chunkIndex).2.Performing used := by
  induction left generalizing c chunkIndex used with
  | zero =>
      refine ⟨used, ?_⟩
      rw [readChunks, finishRead]
      dsimp only
      split
      · exact performing
      · split <;> exact performing
  | succ left ih =>
      rw [readChunks]
      have made : RequestKey.In ⟨requestId, .readChunk, some chunkIndex⟩ .request
          (ClientProtocol.encodeReadChunkRequest requestId { chunkIndex, context := noContext }) :=
        ⟨rfl, [], by rw [ClientProtocol.encodeReadChunkRequest]; simp⟩
      obtain ⟨called, same⟩ := call_performing readChunkTimeout (Rpc.matchChunk chunkIndex) performing made current before.new
        fun i found => Option.some.inj found ▸ rfl
      split <;> rename_i got <;> rw [got] at called same
      · exact ⟨_, called⟩
      · exact ⟨_, called⟩
      split
      · exact ⟨_, called⟩
      split
      · exact ⟨_, called⟩
      split
      · exact ⟨_, called⟩
      split
      · exact ⟨_, called⟩
      · refine ih called same.symm ?_ (before.next (by omega))
        rw [UInt32.toNat_add, UInt32.toNat_one, Nat.mod_eq_of_lt (by omega)]
        omega

theorem before_first (id : UInt64) {job' : ClientJob} (other : job' ≠ job) : Before job 0 [⟨id, job', none⟩] := by
  intro key mem same
  rw [List.mem_singleton.1 mem] at same
  exact absurd same other

theorem writeFile_performing {file : LocalFile} {path : Bytes} (ready : c.Ready) :
    ∃ used, (c.writeFile file path).2.Performing used := by
  rw [writeFile]
  dsimp only
  split
  · exact ⟨[], ready⟩
  split
  · exact ⟨[], ready⟩
  rename_i fileSize size
  split
  · exact ⟨[], ready⟩
  have made : RequestKey.In ⟨c.currentId + 1, .writeFile, none⟩ .request (ClientProtocol.encodeWriteFileRequest (c.currentId + 1)
      { fileSize, chunkCount := (chunksOf fileSize).toUInt32, path, context := noContext }) := ⟨rfl, _, rfl⟩
  obtain ⟨called, same⟩ := call_performing timeout Rpc.matchAnyBody ready made rfl List.not_mem_nil nofun
  split <;> rename_i got <;> rw [got] at called same
  · exact ⟨_, called⟩
  · exact ⟨_, called⟩
  split
  · exact ⟨_, called⟩
  split
  · exact ⟨_, called⟩
  · refine writeChunks_performing _ called same.symm ?_ (before_first _ nofun)
    have bound := (chunksOf fileSize).toUInt32.toNat_lt
    simpa using bound

theorem readFile_performing {fromPath toPath : Bytes} (ready : c.Ready) :
    ∃ used, (c.readFile fromPath toPath).2.Performing used := by
  rw [readFile]
  dsimp only
  have made : RequestKey.In ⟨c.currentId + 1, .readFile, none⟩ .request
      (ClientProtocol.encodeReadFileRequest (c.currentId + 1) { path := fromPath, context := noContext }) := ⟨rfl, _, rfl⟩
  obtain ⟨called, same⟩ := call_performing timeout Rpc.matchAnyBody ready made rfl List.not_mem_nil nofun
  split <;> rename_i got <;> rw [got] at called same
  · exact ⟨_, called⟩
  · exact ⟨_, called⟩
  split
  · exact ⟨_, called⟩
  rename_i response decoded
  split
  · exact ⟨_, called⟩
  split
  · exact ⟨_, called⟩
  split
  · exact ⟨_, called⟩
  split
  · exact ⟨_, called⟩
  · refine readChunks_performing _ called same.symm ?_ (before_first _ nofun)
    have bound := response.chunkCount.toNat_lt
    simpa using bound

end Client

end Dfs
