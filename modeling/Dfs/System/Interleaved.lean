import Dfs.System.Acknowledged
import Dfs.System.Writers

/-!
# An upload among other requests

The chunks of one session come between the requests of other clients, and any of them may fail: `PUT`s are lost or come
late, file calls fail, processes end. Each chunk that is answered `Success` leaves the session where the next one needs
it, and with the last one the file is what the session has sent.
-/

namespace Dfs

open Lib

namespace MetadataWorker

open MetadataStore
open Dfs.System (sessionKey findWrite_putWrite)

variable {w w' : MetadataWorker} {env : Env} {event : ClientEvent} {context c : RequestContext} {k : FilePath} {x : Bytes}
  {n : Nat} {replicas : NodeId × NodeId} {write : PendingWrite}

/-! ## The tables -/

/-- The chunk of the session that the request brings. -/
def partOf (context : RequestContext) : ClientEvent → Option WriteChunkRequest
  | .writeChunk req => if sessionKey req.context = sessionKey context then some req else none
  | _ => none

/-- No other session writes the object. -/
def Sole (w : MetadataWorker) (context : RequestContext) (x : Bytes) : Prop :=
  ∀ c write, w.findWrite c = some write → write.objectId = x → sessionKey c = sessionKey context

/-- A request of somebody else leaves the file at `k` with the object `x` to the session. -/
def Yields (w : MetadataWorker) (context : RequestContext) (k : FilePath) (x : Bytes) (env : Env) : ClientEvent → Prop
  | .writeFile req => w.Leaves k x env (.writeFile req) ∧ key req.path ≠ k ∧ sessionKey req.context ≠ sessionKey context
  | event => w.Leaves k x env event

instance (w : MetadataWorker) (context : RequestContext) (k : FilePath) (x : Bytes) (env : Env) (event : ClientEvent) :
    Decidable (w.Yields context k x env event) := by
  unfold Yields
  split <;> infer_instance

theorem Yields.leaves (yields : w.Yields context k x env event) : w.Leaves k x env event := by
  cases event with
  | writeFile req => exact yields.1
  | _ => exact yields

theorem sessionKey_inj (same : sessionKey c = sessionKey context) :
    c.sender.id = context.sender.id ∧ c.requestId = context.requestId := Prod.mk.inj same

theorem findWrite_key (same : sessionKey c = sessionKey context) : w.findWrite c = w.findWrite context := by
  obtain ⟨sender, id⟩ := sessionKey_inj same
  rw [findWrite, findWrite, sender, id]

theorem partOf_some {req : WriteChunkRequest} (own : partOf context event = some req) :
    event = .writeChunk req ∧ sessionKey req.context = sessionKey context := by
  cases event with
  | writeChunk req' =>
      rw [partOf] at own
      split at own
      · rename_i same
        cases own
        exact ⟨rfl, same⟩
      · cases own
  | _ => cases own

theorem partOf_none {req : WriteChunkRequest} (other : partOf context (.writeChunk req) = none) :
    sessionKey req.context ≠ sessionKey context := fun same => by
  rw [partOf, if_pos same] at other
  cases other

/-- A request that is not for the session leaves it where it is. -/
theorem TableStep.spares_session (step : TableStep env w w' event) (other : partOf context event = none)
    (unopened : ∀ req, event = .writeFile req → sessionKey req.context ≠ sessionKey context) :
    w'.findWrite context = w.findWrite context := by
  have apart : ∀ {c : RequestContext}, sessionKey c ≠ sessionKey context →
      ¬ (context.sender.id = c.sender.id ∧ context.requestId = c.requestId) := fun ne same =>
    ne (Prod.ext same.1.symm same.2.symm)
  cases step with
  | writeFile req status step => exact step.writes_change.find_other (apart (unopened req rfl))
  | writeChunk req status step => exact step.writes_change.find_other (apart (partOf_none other))
  | still _ data writes => exact same_findWrite writes context
  | created req m valid free objId data writes => exact same_findWrite writes context
  | removed req data writes => exact same_findWrite writes context
  | renamed req data writes => exact same_findWrite writes context

/-- A session goes on with its object, or it has been opened for one. -/
theorem TableStep.origin (step : TableStep env w w' event) (found : w'.findWrite c = some write) :
    (∃ write₀, w.findWrite c = some write₀ ∧ write.objectId = write₀.objectId) ∨
      ∃ req m, event = .writeFile req ∧ w.target env req.path m ∧ write.objectId = m.objId := by
  have kept : w'.pendingWrites = w.pendingWrites → ∃ write₀, w.findWrite c = some write₀ ∧ write.objectId = write₀.objectId :=
    fun writes => ⟨write, (same_findWrite writes c).symm.trans found, rfl⟩
  have fewer : ∀ {context}, w'.pendingWrites = (w.discardWrite context).pendingWrites →
      ∃ write₀, w.findWrite c = some write₀ ∧ write.objectId = write₀.objectId :=
    fun writes => ⟨write, findWrite_discardWrite writes found, rfl⟩
  cases step with
  | still _ data writes => exact .inl (kept writes)
  | created req m valid free objId data writes => exact .inl (kept writes)
  | removed req data writes => exact .inl (kept writes)
  | renamed req data writes => exact .inl (kept writes)
  | writeFile req status step =>
      have opened : ∀ {m : FileMetadata} {nodes : NodeId × NodeId}, w.target env req.path m →
          w'.pendingWrites = (w.putWrite req.context (sessionOf req m.objId nodes)).pendingWrites →
          (∃ write₀, w.findWrite c = some write₀ ∧ write.objectId = write₀.objectId) ∨
            ∃ req' m, ClientEvent.writeFile req = .writeFile req' ∧ w.target env req'.path m ∧ write.objectId = m.objId := by
        intro m nodes target writes
        rw [findWrite_putWrite writes] at found
        split at found
        · cases found
          exact .inr ⟨req, m, rfl, target, rfl⟩
        · exact .inl ⟨write, found, rfl⟩
      cases step with
      | refused _ bad data writes => exact .inl (kept writes)
      | emptied m m' target count objId nodes size data writes => exact .inl (kept writes)
      | opened m target count sized bound data free writes => exact opened target writes
      | bound _ m m' target count sized unbound selected objId size data writes =>
          rcases writes with ⟨-, writes⟩ | ⟨-, -, writes⟩
          · exact .inl (kept writes)
          · exact opened target writes
  | writeChunk req status step =>
      cases step with
      | unknown none same => exact .inl (kept same.pendingWrites)
      | rejected write₀ there bad data writes => exact .inl (fewer writes)
      | failed write₀ there due data writes => exact .inl (fewer writes)
      | finished _ write₀ there due last data writes => exact .inl (fewer writes)
      | more write₀ there due part data writes =>
          rw [findWrite_putWrite writes] at found
          split at found
          · rename_i own
            cases found
            exact .inl ⟨write₀, (findWrite_key (Prod.ext own.1 own.2)).trans there, rfl⟩
          · exact .inl ⟨write, found, rfl⟩

theorem Sole.step (sole : w.Sole context x) (step : TableStep env w w' event) (custody : w.Custody k x n replicas)
    (leaves : w.Leaves k x env event) (elsewhere : ∀ req, event = .writeFile req → key req.path ≠ k) : w'.Sole context x := by
  intro c write found same
  rcases step.origin found with ⟨write₀, before, object⟩ | ⟨req, m, rfl, target, object⟩
  · exact sole c write₀ before (object ▸ same)
  · exact absurd (custody.target leaves.1 target (object ▸ same)) (elsewhere req rfl)

theorem Yields.elsewhere (yields : w.Yields context k x env event) :
    ∀ req, event = .writeFile req → key req.path ≠ k ∧ sessionKey req.context ≠ sessionKey context := by
  rintro req rfl
  exact yields.2

/-- As long as the session is open, the file stays where it is. -/
theorem Yields.carried (yields : w.Yields context k x env event) (found : w.findWrite context = some write)
    (own : write.objectId = x) : w.carried k event = k := by
  cases event with
  | rename req =>
      have outside : ¬ key req.oldPath <+: k := fun inside => yields inside context write found own
      rw [MetadataWorker.carried]
      split
      · exact FileTree.relocate_outside outside
      · rfl
  | _ => rfl

end MetadataWorker

namespace System

open Cluster MetadataState MetadataStore MetadataWorker

variable {s s' : System} {context : RequestContext} {session : PendingWrite} {reqs : List WriteChunkRequest}
  {req : WriteChunkRequest} {env : Env} {event : ClientEvent} {script : List (List Act)} {k : FilePath} {x b : Bytes}
  {replicas : NodeId × NodeId} {W : StorageWorker → Prop} {n : Nat}

/-! ## Both replicas -/

/-- `W` holds of both nodes, and nothing that waits for them is about `x`. -/
def Replicated (s : System) (replicas : NodeId × NodeId) (x : Bytes) (W : StorageWorker → Prop) : Prop :=
  s.network.At replicas.1 (Untroubled s.network.self x W) ∧ s.network.At replicas.2 (Untroubled s.network.self x W)

theorem Replicated.used (replicated : s.Replicated replicas x W) (persistent : Persistent x W)
    (used : Network.Used (Avoiding s.network.self x) s.network s'.network) : s'.Replicated replicas x W := by
  obtain ⟨self, first⟩ := untroubled_used persistent used replicated.1
  obtain ⟨-, second⟩ := untroubled_used persistent used replicated.2
  rw [Replicated, self]
  exact ⟨first, second⟩

theorem Replicated.acts (replicated : s.Replicated replicas x W) (persistent : Persistent x W) (acts : List Act) :
    System.Replicated { s with network := s.network.acts acts } replicas x W := by
  rw [Replicated, acts_self]
  exact ⟨(untroubled_lasting persistent).acts rfl acts replicated.1, (untroubled_lasting persistent).acts rfl acts replicated.2⟩

/-- A response to a client is no request to a storage node. -/
theorem Replicated.respond {job : ClientJob} {body : Bytes} {encode : UInt64 → Frame} {c : RequestContext}
    (replicated : s.Replicated replicas x W) (response : encode c.requestId = Rpc.makeFrame c.requestId job .response body) :
    System.Replicated (MetadataState.respond c encode s) replicas x W := by
  have avoiding : Avoiding s.network.self x (encode c.requestId) := fun event read => by
    rw [response] at read
    exact absurd read of_clientFrame
  have self : (s.network.send c.sender.id (encode c.requestId)).self = s.network.self := send_self
  have there : ∀ {node}, s.network.At node (Untroubled s.network.self x W) →
      (s.network.send c.sender.id (encode c.requestId)).At node (Untroubled s.network.self x W) := untroubled_send avoiding
  refine ⟨?_, ?_⟩
  · exact self ▸ there replicated.1
  · exact self ▸ there replicated.2

theorem asks_avoiding {w : MetadataWorker} {asker : NodeIdentity} (generated : w.All fun x _ => Generated x)
    (object : Generated x) (sole : w.Sole context x) (custody : w.Custody k x n replicas) (leaves : w.Leaves k x env event)
    (other : partOf context event = none) : Asks (Avoiding asker x) w event := by
  cases event with
  | writeChunk req =>
      intro write found due event read
      have object' : Generated write.objectId := generated _ _ (.write _ write found)
      have small : write.objectId.length + req.data.length < 2 ^ 30 := by
        have chunk := due.2.2.trans_le (expectedSize_le _ _)
        rw [chunkSize] at chunk
        have id := object'.length
        omega
      rw [of_putRequest object'.nulFree small] at read
      cases read
      exact avoids_other object object' fun same => partOf_none other (sole _ write found same)
  | readChunk req =>
      intro read found id event got
      have object' : Generated read.objectId := generated _ _ (.read _ read found)
      rw [of_getRequest object'.nulFree (object'.length.trans_lt (by decide))] at got
      cases got
      exact avoids_get x _
  | remove req =>
      intro m found id event read
      have there := (getMetadata_ok found).2
      have object' : Generated m.objId := generated _ _ (.record _ m there)
      rw [of_deleteRequest object'.nulFree (object'.length.trans_lt (by decide))] at read
      cases read
      exact avoids_other object object' fun same => leaves (custody.owns.records _ m there same)
  | _ => trivial

/-! ## One session -/

/-- What the requests carry. -/
def contents (reqs : List WriteChunkRequest) : Bytes := (reqs.map (·.data)).flatten

theorem contents_concat : contents (reqs ++ [req]) = contents reqs ++ req.data := by simp [contents]

/-- The session has taken the chunks of `reqs`, and each replica that counts as many has them. -/
structure Advancing (context : RequestContext) (session : PendingWrite) (reqs : List WriteChunkRequest) (s : System) : Prop where
  reached : s.Reached
  sessions : s.worker.SessionsSound
  collected : s.Collected
  found : s.worker.findWrite context = some (session.after reqs.length)
  conforms : Conforms session.fileSize session.chunkCount reqs
  custody : ∃ n, s.worker.Custody (key session.path) session.objectId n session.replicas
  sole : s.worker.Sole context session.objectId
  grown : s.Replicated session.replicas session.objectId
    (Grown session.objectId (UInt32.ofNat reqs.length) (contents reqs))

theorem Advancing.sound (advancing : s.Advancing context session reqs) : (session.after reqs.length).Sound :=
  advancing.sessions.writes _ _ _ advancing.found

theorem Advancing.generated (advancing : s.Advancing context session reqs) : Generated session.objectId :=
  advancing.reached.removable.generated _ _ (.write _ (session.after reqs.length) advancing.found)

theorem Advancing.below (advancing : s.Advancing context session reqs) :
    (UInt32.ofNat reqs.length).toNat = reqs.length ∧ reqs.length < session.chunkCount.toNat := by
  have bound := advancing.conforms.length_le
  have small : (UInt32.ofNat reqs.length).toNat = reqs.length := by
    rw [UInt32.toNat_ofNat', Nat.mod_eq_of_lt (Nat.lt_of_le_of_lt bound session.chunkCount.toNat_lt)]
  have next : UInt32.ofNat reqs.length < session.chunkCount := advancing.sound.next
  rw [UInt32.lt_iff_toNat_lt, small] at next
  exact ⟨small, next⟩

theorem Advancing.due_iff (advancing : s.Advancing context session reqs) :
    (session.after reqs.length).Due req ↔ InOrder session.fileSize session.chunkCount reqs.length req :=
  PendingWrite.due_after advancing.sound.count advancing.below.2

/-- A request of somebody else leaves the session where it is. -/
theorem Advancing.other (advancing : s.Advancing context session reqs) (other : partOf context event = none)
    (yields : (s.worker.withOutcomes env.outcomes).Yields context (key session.path) session.objectId env event)
    (reached : s'.Reached) (sessions : s'.worker.SessionsSound) (collected : s'.Collected)
    (h : s.next (.request event env script) = .ok s') : s'.Advancing context session reqs := by
  have handled := next_request h
  have step : TableStep env (s.worker.withOutcomes env.outcomes) s'.worker event := handle_step (s := s.scripted script) handled
  obtain ⟨n, custody⟩ := advancing.custody
  have custody' : (s.worker.withOutcomes env.outcomes).Custody (key session.path) session.objectId n session.replicas :=
    custody.of_same rfl rfl
  have asks : Asks (Avoiding s.network.self session.objectId) (MetadataState.entered (s.scripted script) env).worker event :=
    asks_avoiding (fun x r names => advancing.reached.removable.generated x r names.withOutcomes) advancing.generated
      advancing.sole custody' yields.leaves other
  have used : Network.Used (Avoiding s.network.self session.objectId) (s.scripted script).network s'.network := by
    have sends := handle_sends (s := s.scripted script) asks fun _ _ responds event read => by
      obtain ⟨rest, rfl⟩ := responds
      exact absurd read of_clientFrame
    rwa [handled] at sends
  have after : s'.worker.Custody ((s.worker.withOutcomes env.outcomes).carried (key session.path) event) session.objectId n
      session.replicas :=
    handle_custody (s := s.scripted script) (Mirrors.filed advancing.reached.removable.sturdy.mirrored) custody
      yields.leaves handled
  rw [yields.carried advancing.found rfl] at after
  exact
    { reached
      sessions
      collected
      found := (step.spares_session other fun req same => (yields.elsewhere req same).2).trans advancing.found
      conforms := advancing.conforms
      custody := ⟨n, after⟩
      sole := Sole.step (w := s.worker.withOutcomes env.outcomes) advancing.sole step custody' yields.leaves
        fun req same => (yields.elsewhere req same).1
      grown := Replicated.used (s := s.scripted script) advancing.grown grown_persistent used }

theorem writeChunk_accepted (h : s.writeChunk env req = (.ok .success, s')) :
    ∃ write, s.worker.findWrite req.context = some write ∧ write.Due req := by
  by_contra none
  obtain ⟨s₁, refused⟩ := writeChunk_early (s := s) env fun write found due => none ⟨write, found, due⟩
  rw [refused] at h
  cases h

/-- A chunk of the session that is answered `Success` is the next one, and both replicas have it behind the others. -/
theorem Advancing.took {s₁ : System} (advancing : s.Advancing context session reqs)
    (own : sessionKey req.context = sessionKey context)
    (clear : s.network.Clear session.replicas.1 req.context.requestId req.chunkIndex)
    (clear' : s.network.Clear session.replicas.2 req.context.requestId req.chunkIndex)
    (honest : ∀ acts ∈ script, ∀ a ∈ acts, a.Honest) (run : (s.prepared env script).writeChunk env req = (.ok .success, s₁)) :
    Conforms session.fileSize session.chunkCount (reqs ++ [req]) ∧ req.chunkIndex = UInt32.ofNat reqs.length ∧
      s₁.Replicated session.replicas session.objectId
        (Made (MetadataState.putFor s.network.self req (session.after reqs.length)) (contents reqs)) := by
  have found : s.worker.findWrite req.context = some (session.after reqs.length) := (findWrite_key own).trans advancing.found
  obtain ⟨write, there, due⟩ := writeChunk_accepted run
  cases there.symm.trans found
  have order := advancing.due_iff.1 due
  have index : req.chunkIndex = UInt32.ofNat reqs.length := due.1
  have first : req.chunkIndex = 0 → contents reqs = [] := fun zero => by
    have none : reqs.length = 0 := by rw [← order.index, zero]; rfl
    rw [List.eq_nil_of_length_eq_zero none]
    rfl
  obtain ⟨grown, grown'⟩ := advancing.grown
  rw [← index] at grown grown'
  obtain ⟨self, made, made'⟩ := writeChunk_made (s := s.prepared env script) (advancing.collected.prepared honest) found due
    advancing.generated advancing.sound.bound.2.2 clear clear' first grown grown' run rfl
  refine ⟨conforms_append.2 ⟨advancing.conforms, order⟩, index, ?_⟩
  rw [Replicated, self]
  exact ⟨made, made'⟩

/-- A chunk of the session that is answered `Success` and is not the last one takes the session further. -/
theorem Advancing.more {s₁ : System} (advancing : s.Advancing context session reqs)
    (own : sessionKey req.context = sessionKey context)
    (clear : s.network.Clear session.replicas.1 req.context.requestId req.chunkIndex)
    (clear' : s.network.Clear session.replicas.2 req.context.requestId req.chunkIndex)
    (honest : ∀ acts ∈ script, ∀ a ∈ acts, a.Honest) (part : req.chunkIndex + 1 ≠ session.chunkCount)
    (run : (s.prepared env script).writeChunk env req = (.ok .success, s₁))
    (reached : s'.Reached) (sessions : s'.worker.SessionsSound) (collected : s'.Collected)
    (h : s.next (.request (.writeChunk req) env script) = .ok s') : s'.Advancing context session (reqs ++ [req]) := by
  obtain ⟨status, s₂, run', rfl⟩ := next_writeChunk h
  cases run.symm.trans run'
  obtain ⟨conforms, index, made⟩ := advancing.took own clear clear' honest run
  have found : s.worker.findWrite req.context = some (session.after reqs.length) := (findWrite_key own).trans advancing.found
  have step : WriteChunkStep req (s.prepared env script).worker s₁.worker .success := (writeChunk_step run).2
  cases step with
  | finished _ write there due last data writes =>
      cases found.symm.trans there
      rw [index] at part
      exact absurd last part
  | more write there due part' data writes =>
      cases found.symm.trans there
      have counted : UInt32.ofNat reqs.length + 1 = UInt32.ofNat (reqs ++ [req]).length := by
        rw [List.length_append, List.length_singleton, UInt32.ofNat_add]
        rfl
      obtain ⟨n, custody⟩ := advancing.custody
      have custody' : s₁.worker.Custody (key session.path) session.objectId n session.replicas :=
        WriteChunkStep.custody (.more _ there due part' data writes) (custody.of_same rfl rfl) fun write' found' _ => by
          cases found.symm.trans found'
          exact part'
      have follows : s₁.worker.findWrite context = some (session.after (reqs ++ [req]).length) := by
        rw [findWrite_putWrite writes, if_pos (sessionKey_inj own.symm)]
        show some { session with nextChunk := UInt32.ofNat reqs.length + 1 } = some (session.after _)
        rw [counted]
        rfl
      have sole : s₁.worker.Sole context session.objectId := fun c write' found' same => by
        rw [findWrite_putWrite writes] at found'
        split at found'
        · rename_i here
          exact (Prod.ext here.1 here.2 : sessionKey c = sessionKey req.context).trans own
        · exact advancing.sole c write' found' same
      have grown : System.Replicated s₁ session.replicas session.objectId
          (Grown session.objectId (UInt32.ofNat (reqs ++ [req]).length) (contents (reqs ++ [req]))) := by
        have same : Made (MetadataState.putFor s.network.self req (session.after reqs.length)) (contents reqs) =
            Grown session.objectId (req.chunkIndex + 1) (contents reqs ++ req.data) := by
          funext w
          rw [Made, show (MetadataState.putFor s.network.self req (session.after reqs.length)).finalChunk = false from
            decide_eq_false part]
          rfl
        rw [← counted, contents_concat, ← index, ← same]
        exact made
      exact
        { reached
          sessions
          collected
          found := follows
          conforms
          custody := ⟨n, custody'⟩
          sole
          grown := grown.respond rfl }

/-- A chunk of the session that does not take it further closes it. -/
theorem Advancing.part (advancing : s.Advancing context session reqs) (own : sessionKey req.context = sessionKey context)
    (clear : s.network.Clear session.replicas.1 req.context.requestId req.chunkIndex)
    (clear' : s.network.Clear session.replicas.2 req.context.requestId req.chunkIndex)
    (honest : ∀ acts ∈ script, ∀ a ∈ acts, a.Honest)
    (reached : s'.Reached) (sessions : s'.worker.SessionsSound) (collected : s'.Collected)
    (h : s.next (.request (.writeChunk req) env script) = .ok s') :
    s'.worker.findWrite context = none ∨ s'.Advancing context session (reqs ++ [req]) := by
  obtain ⟨status, s₁, run, same⟩ := next_writeChunk h
  have found : s.worker.findWrite req.context = some (session.after reqs.length) := (findWrite_key own).trans advancing.found
  have step : WriteChunkStep req (s.prepared env script).worker s₁.worker status := (writeChunk_step run).2
  have worker : s'.worker = s₁.worker := by
    rw [same]
    rfl
  by_cases success : status = .success
  swap
  · left
    rw [findWrite_key own.symm, worker]
    exact discarded_failed (w := (s.prepared env script).worker) found success step
  subst success
  by_cases part : req.chunkIndex + 1 = session.chunkCount
  · left
    rw [findWrite_key own.symm, worker]
    cases step with
    | finished _ write there due last data writes =>
        rw [findWrite, writes, discardWrite, Nested.find_discard, if_pos ⟨rfl, rfl⟩]
    | more write there due unfinished data writes =>
        cases found.symm.trans there
        rw [← due.1] at unfinished
        exact absurd part unfinished
  · exact .inr (advancing.more own clear clear' honest part run reached sessions collected h)

theorem Replicated.kept (replicated : s.Replicated replicas x fun w => w.committed x = some b) : s.Kept x b replicas := by
  have offers : ∀ {node}, s.network.At node (Untroubled s.network.self x fun w => w.committed x = some b) →
      s.network.At node (Offers s.network.self x b) := by
    rintro node ⟨peer, found, untroubled⟩
    exact ⟨peer, found, untroubled.worker, fun e mem event read => (untroubled.inbox e mem event read).spares⟩
  exact ⟨offers replicated.1, offers replicated.2⟩

/-- The last chunk completes the file. -/
theorem Advancing.whole (advancing : s.Advancing context session reqs)
    (conforms : Conforms session.fileSize session.chunkCount (reqs ++ [req])) (index : req.chunkIndex = UInt32.ofNat reqs.length)
    (final : req.chunkIndex + 1 = session.chunkCount) :
    (reqs ++ [req]).length = session.chunkCount.toNat ∧ (contents (reqs ++ [req])).length = session.fileSize.toNat := by
  have ended : req.chunkIndex.toNat + 1 = session.chunkCount.toNat := by
    have inside : req.chunkIndex < session.chunkCount := by
      rw [index]
      exact advancing.sound.next
    rw [← final, (chunkExact_of_below advancing.sound.count inside).next]
  have all : (reqs ++ [req]).length = session.chunkCount.toNat := by
    rw [List.length_append, List.length_singleton, ← ended, index, advancing.below.1]
  refine ⟨all, ?_⟩
  rw [contents, List.length_flatten, List.map_map]
  exact conforms.whole advancing.sound.count all

/-- With its last chunk, when that is answered `Success`, the session is over and the file is what it has sent. -/
theorem Advancing.last {s₁ : System} (advancing : s.Advancing context session reqs)
    (own : sessionKey req.context = sessionKey context)
    (clear : s.network.Clear session.replicas.1 req.context.requestId req.chunkIndex)
    (clear' : s.network.Clear session.replicas.2 req.context.requestId req.chunkIndex)
    (honest : ∀ acts ∈ script, ∀ a ∈ acts, a.Honest) (final : req.chunkIndex + 1 = session.chunkCount)
    (run : (s.prepared env script).writeChunk env req = (.ok .success, s₁))
    (h : s.next (.request (.writeChunk req) env script) = .ok s') :
    s'.InPlace (key session.path) session.objectId (contents (reqs ++ [req])) session.replicas := by
  obtain ⟨status, s₂, run', rfl⟩ := next_writeChunk h
  cases run.symm.trans run'
  obtain ⟨conforms, index, made⟩ := advancing.took own clear clear' honest run
  have found : s.worker.findWrite req.context = some (session.after reqs.length) := (findWrite_key own).trans advancing.found
  have step : WriteChunkStep req (s.prepared env script).worker s₁.worker .success := (writeChunk_step run).2
  have length := (advancing.whole conforms index final).2
  have committed : System.Replicated s₁ session.replicas session.objectId
      fun w => w.committed session.objectId = some (contents (reqs ++ [req])) := by
    have same : Made (MetadataState.putFor s.network.self req (session.after reqs.length)) (contents reqs) =
        fun w => w.committed session.objectId = some (contents (reqs ++ [req])) := by
      funext w
      rw [Made, if_pos (show (MetadataState.putFor s.network.self req (session.after reqs.length)).finalChunk = true from
        decide_eq_true final), contents_concat]
      rfl
    exact same ▸ made
  cases step with
  | more write there due part data writes =>
      cases found.symm.trans there
      rw [index] at final
      exact absurd final part
  | finished _ write there due last data writes =>
      cases found.symm.trans there
      rcases data with ⟨bad, -⟩ | ⟨-, valid, m, object, size, located, data⟩
      · exact absurd rfl bad
      replace data : s₁.worker.store.data = s.worker.store.data.insert (key session.path) m := data
      obtain ⟨n, custody⟩ := advancing.custody
      refine ⟨advancing.generated, ⟨⟨m, ?_, object, size ▸ length.symm, fun _ => located⟩, fun _ none => ?_, ?_, ?_⟩,
        fun _ => (committed.respond rfl).kept⟩
      · show s₁.worker.store.data.lookup (key session.path) = some m
        rw [data, Assoc.lookup_insert_ite, if_pos rfl]
      · exact advancing.sound.bound.1 (congrArg Prod.fst none)
      · intro k' m' found' same
        replace found' : s₁.worker.store.data.lookup k' = some m' := found'
        rw [data, Assoc.lookup_insert_ite] at found'
        split at found'
        · assumption
        · exact custody.owns.records k' m' found' same
      · intro c write' found' same
        exact custody.owns.writes c write' (findWrite_discardWrite writes found') same

/-! ## Runs -/

/-- What a step does to let the session go on: a chunk of the session meets none with the same id and index under way, and a
request of somebody else leaves the file to the session. -/
def GivesWay (context : RequestContext) (session : PendingWrite) (s : System) : SystemEvent → Prop
  | .request event env _ =>
      match partOf context event with
      | some req => s.network.Clear session.replicas.1 req.context.requestId req.chunkIndex ∧
          s.network.Clear session.replicas.2 req.context.requestId req.chunkIndex
      | none => (s.worker.withOutcomes env.outcomes).Yields context (key session.path) session.objectId env event
  | _ => True

/-- Storage nodes make up no replies. The metadata node may end at any time. -/
def Unimpeded (context : RequestContext) (session : PendingWrite) (s : System) : NodeEvent → Prop
  | .step e => Honest e ∧ s.Counted e ∧ s.GivesWay context session e
  | _ => True

/-- The chunk of the session that the event brings. -/
def partIn (context : RequestContext) : NodeEvent → Option WriteChunkRequest
  | .step (.request event _ _) => partOf context event
  | _ => none

variable {e : NodeEvent} {events : List NodeEvent}

theorem Fresh.findWrite (fresh : s.Fresh) (c : RequestContext) : s.worker.findWrite c = none := by
  rw [MetadataWorker.findWrite, fresh.writes, Nested.find_empty]

/-- A session that is over stays over. -/
theorem nextNode_over (over_ : s.worker.findWrite context = none) (unimpeded : s.Unimpeded context session e)
    (h : s.nextNode e = .ok s') : s'.worker.findWrite context = none := by
  cases e with
  | restart outcomes => exact (restarted_fresh h).findWrite context
  | crash event env script point outcomes => exact (restarted_fresh h).findWrite context
  | step e =>
      cases e with
      | storage acts =>
          cases h
          exact over_
      | heartbeat now sender =>
          cases h
          exact over_
      | checkTimeouts now =>
          cases h
          exact over_
      | request event env script =>
          have step : TableStep env (s.worker.withOutcomes env.outcomes) s'.worker event :=
            handle_step (s := s.scripted script) (next_request h)
          have gives := unimpeded.2.2
          rw [GivesWay] at gives
          split at gives
          · rename_i req own
            obtain ⟨rfl, -⟩ := partOf_some own
            cases found : s'.worker.findWrite context with
            | none => rfl
            | some write =>
                rcases step.origin found with ⟨write₀, before, -⟩ | ⟨req', m, same, -⟩
                · exact absurd (over_.symm.trans before) (by simp)
                · cases same
          · rename_i other
            exact (step.spares_session other fun req same => (gives.elsewhere req same).2).trans over_

/-- A step that brings no chunk of the session leaves it where it is. -/
theorem Advancing.beside {e : SystemEvent} (advancing : s.Advancing context session reqs) (heard : e.From NodeClean)
    (honest : Honest e) (counted : s.Counted e) (others : ∀ event env script, e = .request event env script →
      partOf context event = none ∧
        (s.worker.withOutcomes env.outcomes).Yields context (key session.path) session.objectId env event)
    (h : s.next e = .ok s') : s'.Advancing context session reqs := by
  have reached := nextNode_reached (e := .step e) advancing.reached heard h
  have sessions := nextNode_sessions (e := .step e) advancing.sessions
    (fun node there => (advancing.reached.removable.sturdy.known node there).1) h
  have collected := next_collected advancing.collected honest counted h
  obtain ⟨n, custody⟩ := advancing.custody
  cases e with
  | request event env script =>
      obtain ⟨other, yields⟩ := others event env script rfl
      exact advancing.other other yields reached sessions collected h
  | storage acts =>
      cases h
      exact { advancing with reached, sessions, collected, grown := advancing.grown.acts grown_persistent acts }
  | heartbeat now sender =>
      cases h
      exact { advancing with reached, sessions, collected, custody := ⟨n, custody.of_same rfl rfl⟩ }
  | checkTimeouts now =>
      cases h
      exact { advancing with reached, sessions, collected, custody := ⟨n, custody.of_same rfl rfl⟩ }

/-- A step of anybody closes the session or leaves it where it should be. -/
theorem nextNode_advancing (advancing : s.Advancing context session reqs) (heard : e.From NodeClean)
    (unimpeded : s.Unimpeded context session e) (h : s.nextNode e = .ok s') :
    s'.worker.findWrite context = none ∨ s'.Advancing context session (reqs ++ (partIn context e).toList) := by
  cases e with
  | restart outcomes => exact .inl ((restarted_fresh h).findWrite context)
  | crash event env script point outcomes => exact .inl ((restarted_fresh h).findWrite context)
  | step e =>
      obtain ⟨honest, counted, gives⟩ := unimpeded
      cases part : partIn context (.step e) with
      | none =>
          right
          rw [Option.toList_none, List.append_nil]
          refine advancing.beside heard honest counted (fun event env script same => ?_) h
          subst same
          rw [partIn] at part
          rw [GivesWay, part] at gives
          exact ⟨part, gives⟩
      | some req =>
          cases e with
          | request event env script =>
              rw [partIn] at part
              obtain ⟨rfl, own⟩ := partOf_some part
              rw [GivesWay, part] at gives
              exact advancing.part own gives.1 gives.2 honest (nextNode_reached advancing.reached heard h)
                (nextNode_sessions advancing.sessions (fun node there => (advancing.reached.removable.sturdy.known node there).1) h)
                (next_collected advancing.collected honest counted h) h
          | _ => cases part

/-- The chunks of the session that the events bring. -/
def parts (context : RequestContext) (events : List NodeEvent) : List WriteChunkRequest := events.filterMap (partIn context)

theorem parts_cons : parts context (e :: events) = (partIn context e).toList ++ parts context events := by
  rw [parts, parts, List.filterMap_cons]
  cases partIn context e <;> rfl

theorem run_over {u : System} (over_ : s.worker.findWrite context = none)
    (along : Along nextNode (Unimpeded context session) s events) (ran : s.runNode events = .ok u) :
    u.worker.findWrite context = none :=
  run_invariant (P := fun s _ => s.worker.findWrite context = none) (fun _ _ _ _ => nextNode_over) over_ along ran

theorem run_advancing {u : System} (advancing : s.Advancing context session reqs) (heard : ∀ e ∈ events, e.From NodeClean)
    (along : Along nextNode (Unimpeded context session) s events) (ran : s.runNode events = .ok u) :
    u.worker.findWrite context = none ∨ u.Advancing context session (reqs ++ parts context events) := by
  induction events generalizing s reqs with
  | nil =>
      cases ran
      right
      rw [parts, List.filterMap_nil, List.append_nil]
      exact advancing
  | cons e events ih =>
      obtain ⟨s₁, stepped, rest⟩ := run_cons ran
      rw [parts_cons, ← List.append_assoc]
      rcases nextNode_advancing advancing (heard e List.mem_cons_self) along.1 stepped with over_ | next
      · exact .inl (run_over over_ (along.2 s₁ stepped) rest)
      · exact ih next (fun e' mem => heard e' (List.mem_cons_of_mem _ mem)) (along.2 s₁ stepped) rest

/-! ## The start -/

/-- Nobody else writes the object of the record at `k`, and no request about it waits for a node that can get its chunks. -/
structure Unclaimed (k : FilePath) (m : FileMetadata) (s : System) : Prop where
  records : ∀ k' m', s.worker.store.data.lookup k' = some m' → m'.objId = m.objId → k' = k
  writes : ∀ c write, s.worker.findWrite c = some write → write.objectId ≠ m.objId
  nodes : ∀ node, (if m.replicaLocations = ([], []) then s.worker.isAvailable node = true
      else node = m.replicaLocations.1 ∨ node = m.replicaLocations.2) →
    s.network.At node (Untroubled s.network.self m.objId fun _ => True)

theorem Replicated.mono {W' : StorageWorker → Prop} (replicated : s.Replicated replicas x W) (imp : ∀ w, W w → W' w) :
    s.Replicated replicas x W' := by
  obtain ⟨⟨peer, found, holds⟩, ⟨peer', found', holds'⟩⟩ := replicated
  exact ⟨⟨peer, found, imp _ holds.worker, holds.inbox⟩, ⟨peer', found', imp _ holds'.worker, holds'.inbox⟩⟩

/-- A `WriteFile` that opens a session for an object nobody else writes. -/
theorem Advancing.opened {req : WriteFileRequest} (free : s.worker.findWrite req.context = none)
    (unclaimed : ∀ m, s.worker.target env req.path m → s.Unclaimed (key req.path) m)
    (reached : s'.Reached) (sessions : s'.worker.SessionsSound) (collected : s'.Collected)
    (found : s'.worker.findWrite req.context = some session) (h : s.next (.request (.writeFile req) env script) = .ok s') :
    session.path = req.path ∧ s'.Advancing req.context session [] := by
  have handled := next_request h
  have closed : s'.worker.pendingWrites ≠ s.worker.pendingWrites := fun same => by
    rw [findWrite, same, ← findWrite, free] at found
    cases found
  have calls : ∀ x, Network.Used (Avoiding s.network.self x) (s.scripted script).network s'.network := fun x => by
    have asks : Asks (Avoiding s.network.self x) (MetadataState.entered (s.scripted script) env).worker (.writeFile req) :=
      trivial
    have sends := handle_sends (s := s.scripted script) asks fun _ _ responds event read => by
      obtain ⟨rest, rfl⟩ := responds
      exact absurd read of_clientFrame
    rwa [handled] at sends
  have begins : ∀ (m : FileMetadata) (nodes : NodeId × NodeId) (n : Nat), s.Unclaimed (key req.path) m →
      s'.worker.pendingWrites = (s.worker.putWrite req.context (sessionOf req m.objId nodes)).pendingWrites →
      s.Replicated nodes m.objId (fun _ => True) → (∃ m', s'.worker.store.data.lookup (key req.path) = some m' ∧
        m'.objId = m.objId ∧ m'.size.toNat = n ∧ m'.replicaLocations = nodes) →
      (∀ k' m', s'.worker.store.data.lookup k' = some m' → k' = key req.path ∨ s.worker.store.data.lookup k' = some m') →
      session.path = req.path ∧ s'.Advancing req.context session [] := by
    intro m nodes n unclaimed writes replicated record others
    have session_eq : session = sessionOf req m.objId nodes := by
      rw [findWrite_putWrite writes, if_pos ⟨rfl, rfl⟩] at found
      exact (Option.some.inj found).symm
    subst session_eq
    have sound := sessions.writes _ _ _ found
    obtain ⟨m', there, object, size, located⟩ := record
    refine ⟨rfl, reached, sessions, collected, found, conforms_nil, ⟨n, ⟨m', there, object, size, fun _ => located⟩,
      fun _ none => sound.bound.1 (congrArg Prod.fst none), fun k' m₁ found' same => ?_, fun c write found' same => ?_⟩,
      fun c write found' same => ?_, ?_⟩
    · exact (others k' m₁ found').elim id fun before => unclaimed.records k' m₁ before same
    · rw [findWrite_putWrite writes] at found'
      split at found'
      · cases found'
        rfl
      · exact absurd same (unclaimed.writes c write found')
    · rw [findWrite_putWrite writes] at found'
      split at found'
      · rename_i here
        exact Prod.ext here.1 here.2
      · exact absurd same (unclaimed.writes c write found')
    · have persistent : Persistent m.objId fun _ => True := ⟨fun _ _ _ _ => trivial, fun _ _ => trivial⟩
      have after : s'.Replicated nodes m.objId fun _ => True :=
        Replicated.used (s := s.scripted script) replicated persistent (calls m.objId)
      exact after.mono fun w _ some => absurd rfl some
  have step : TableStep env (s.worker.withOutcomes env.outcomes) s'.worker (.writeFile req) :=
    handle_step (s := s.scripted script) handled
  cases step with
  | still _ data writes => exact absurd writes closed
  | writeFile _ status step =>
      cases step with
      | refused _ bad data writes => exact absurd writes closed
      | emptied m m' target count objId nodes size data writes => exact absurd writes closed
      | opened m target count sized bound data free writes =>
          have unclaimed := unclaimed m target
          have filled : ¬ m.replicaLocations = ([], []) := fun none => bound.1 (congrArg Prod.fst none)
          have there : s.worker.store.data.lookup (key req.path) = some m := by
            obtain ⟨-, found | ⟨-, rfl⟩⟩ := target
            · exact found
            · exact absurd rfl filled
          have nodes := unclaimed.nodes
          simp only [if_neg filled] at nodes
          refine begins m m.replicaLocations m.size.toNat unclaimed writes ⟨nodes _ (.inl rfl), nodes _ (.inr rfl)⟩
            ⟨m, ?_, rfl, rfl, rfl⟩ fun k' m' found' => .inr ?_
          · rw [data]
            exact there
          · rwa [data] at found'
      | bound _ m m' target count sized unbound selected objId size data writes =>
          rcases writes with ⟨-, writes⟩ | ⟨-, -, writes⟩
          · exact absurd writes closed
          have unclaimed := unclaimed m target
          have nodes := unclaimed.nodes
          simp only [if_pos unbound] at nodes
          obtain ⟨apart, first, second⟩ := selectReplicas_spec selected
          refine begins m m'.replicaLocations m'.size.toNat unclaimed writes ⟨nodes _ first, nodes _ second⟩
            ⟨m', ?_, objId, rfl, rfl⟩ fun k' m₁ found' => ?_
          · rw [data, Assoc.lookup_insert_ite, if_pos rfl]
          · rw [data, Assoc.lookup_insert_ite] at found'
            split at found'
            · exact .inl ‹_›
            · exact .inr found'

/-! ## The whole upload -/

variable {s₀ s₁ u v : System} {earlier : List NodeEvent}

/-- The path is free, nobody has the object that the generator yields, and nothing waits for a node that counts as available. -/
def vacant (env : Env) (path : Bytes) (s : System) : Bool :=
  (s.worker.store.data.lookup (key path)).isNone && !(Assoc.any s.worker.store.data fun _ m => m.objId = env.objectId) &&
    !(Nested.any s.worker.pendingWrites fun write => write.objectId = env.objectId) &&
    s.worker.storageNodes.keys.all fun node => (s.network.peers.lookup node).any fun peer => peer.inbox.isEmpty

theorem unclaimed_of_vacant {path : Bytes} {m : FileMetadata} (h : s.vacant env path = true)
    (target : s.worker.target env path m) : s.Unclaimed (key path) m := by
  simp only [vacant, Bool.and_eq_true, Bool.not_eq_true', Option.isNone_iff_eq_none] at h
  obtain ⟨⟨⟨free, records⟩, writes⟩, nodes⟩ := h
  obtain ⟨-, found | ⟨-, rfl⟩⟩ := target
  · rw [free] at found
    cases found
  refine ⟨fun k' m' found same => ?_, fun c write found same => ?_, fun node available => ?_⟩
  · have any := (Assoc.any_iff s.worker.store.data fun _ m => decide (m.objId = env.objectId)).2 ⟨k', m', found, by simp [same]⟩
    rw [records] at any
    cases any
  · have any := (Nested.any_iff s.worker.pendingWrites fun write => decide (write.objectId = env.objectId)).2
      ⟨_, _, write, found, by simp [same]⟩
    rw [writes] at any
    cases any
  · rw [if_pos rfl, isAvailable, Option.any_eq_true] at available
    obtain ⟨info, there, -⟩ := available
    have known : node ∈ s.worker.storageNodes.keys := AList.lookup_isSome.1 (by rw [there]; rfl)
    obtain ⟨peer, found, empty⟩ := (Option.any_eq_true _ _).1 (List.all_eq_true.1 nodes node known)
    exact ⟨peer, found, trivial, fun e mem => by rw [List.isEmpty_iff.1 empty] at mem; cases mem⟩

/-- The request with the number is a `PUT` for the id and the chunk. -/
def isPut (c : Cluster) (node : NodeId) (requestId : UInt64) (chunkIndex : UInt32) (tag : Nat) : Bool :=
  c.sent[tag]?.any fun e => e.1 = node &&
    match StorageEvent.of (e.2.from c.self) with
    | .ok (.put put) => put.context.requestId = requestId && put.chunkIndex = chunkIndex
    | _ => false

theorem clear_iff {c : Cluster} {node : NodeId} {requestId : UInt64} {chunkIndex : UInt32} :
    c.Clear node requestId chunkIndex ↔ ((c.inFlight node).all fun tag => !(isPut c node requestId chunkIndex tag)) = true := by
  rw [List.all_eq_true]
  refine forall₂_congr fun tag _ => ?_
  rw [Bool.not_eq_true', isPut]
  constructor
  · intro clear
    rw [Option.any_eq_false]
    rintro ⟨n, frame⟩ asked
    rw [Bool.and_eq_false_iff, decide_eq_false_iff_not, Classical.or_iff_not_imp_left, not_not]
    rintro rfl
    split
    · rename_i put read
      rw [Bool.and_eq_false_iff, decide_eq_false_iff_not, decide_eq_false_iff_not, Classical.or_iff_not_imp_left, not_not]
      exact clear frame put asked read
    · rfl
  · intro none frame put asked read id index
    rw [asked, Option.any_some, read] at none
    simp [id, index] at none

instance (c : Cluster) (node : NodeId) (requestId : UInt64) (chunkIndex : UInt32) :
    Decidable (c.Clear node requestId chunkIndex) := decidable_of_iff _ clear_iff.symm

instance (context : RequestContext) (session : PendingWrite) (s : System) (e : SystemEvent) :
    Decidable (s.GivesWay context session e) :=
  match e with
  | .request event env script =>
      match own : partOf context event with
      | some req => decidable_of_iff (s.network.Clear session.replicas.1 req.context.requestId req.chunkIndex ∧
          s.network.Clear session.replicas.2 req.context.requestId req.chunkIndex) (by simp only [GivesWay, own])
      | none => decidable_of_iff ((s.worker.withOutcomes env.outcomes).Yields context (key session.path) session.objectId env event)
          (by simp only [GivesWay, own])
  | .storage _ | .heartbeat _ _ | .checkTimeouts _ => .isTrue trivial

instance (context : RequestContext) (session : PendingWrite) (s : System) (e : NodeEvent) :
    Decidable (s.Unimpeded context session e) :=
  match e with
  | .step e => inferInstanceAs (Decidable (Honest e ∧ s.Counted e ∧ s.GivesWay context session e))
  | .restart _ | .crash _ _ _ _ _ => .isTrue trivial

/-- Client `"c"` starts to write one byte to `"p"`. -/
def beginning : SystemEvent :=
  .request (.writeFile { path := [112], fileSize := 1, chunkCount := 1, context := fromClient 1 }) { first := 7 } []

/-- Client `"d"` tries to write `"q"`, but node `"a"` does not get the chunk, and then node `"a"` starts again. -/
def mishaps : List NodeEvent :=
  [.step (.request (.writeFile { path := [113], fileSize := 1, chunkCount := 1, context := ⟨2, ⟨[100], .client⟩⟩ })
      { first := 8 } []),
    .step (.request (.writeChunk { chunkIndex := 0, data := [6], context := ⟨2, ⟨[100], .client⟩⟩ }) {} [[.loseRequest [97] 0]]),
    .step (.storage [.restart [97]])]

/-- The chunk of `"c"`. Node `"b"` still has that of `"d"` before it. -/
def theChunk : WriteChunkRequest := { chunkIndex := 0, data := [5], context := fromClient 1 }

def belated : List (List Act) :=
  [[.serve [97] [], .deliver [97]], [.serve [98] [], .serve [98] [], .deliver [98], .deliver [98]]]

end System

end Dfs
