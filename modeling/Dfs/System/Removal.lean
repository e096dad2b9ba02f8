import Dfs.Metadata.Responses
import Dfs.Metadata.Traffic
import Dfs.System.Exchange
import Dfs.System.Refusals
import Dfs.System.Trace

/-!
# Removing a file in several attempts

A `Remove` that fails has left the record where it was, whatever the replicas have done, so the client can send it
again. A replica needs nothing of the object to be left for a `DELETE` to succeed, and as its connection keeps the
order of the frames, no chunk of an earlier upload comes after the `DELETE`.
-/

namespace Dfs

open Lib

/-- Nothing is left of object `x`. -/
structure StorageWorker.Cleared (x : Bytes) (w : StorageWorker) : Prop where
  object : w.committed x = none
  temporary : w.pending x = none
  progress : w.nextChunks.lookup x = none

/-- A node has no directory among its objects, and the frames on its connection have numbers below `bound`. -/
structure Peer.Usual (bound : Nat) (peer : Peer) : Prop where
  flat : peer.worker.Flat
  inbox : ∀ e ∈ peer.inbox, e.1 < bound
  outbox : ∀ e ∈ peer.outbox, e.1 < bound

/-- No file call of `node` fails in this step. -/
def Act.Spares (node : NodeId) : Act → Prop
  | .serve n outcomes => n = node → ∀ o ∈ outcomes, o.error = none
  | _ => True

namespace Cluster

variable {c c' : Cluster} {asker : NodeIdentity} {node n : NodeId} {peer : Peer} {q heard : List (Nat × Message)}
  {bound base tag : Nat} {id : UInt64} {x : Bytes} {fine : Prop} {frame : Frame}

/-! ## Between two handlers -/

/-- All frames under way have been sent. -/
structure Ordinary (c : Cluster) : Prop where
  peers : ∀ node peer, c.peers.lookup node = some peer → peer.Usual c.sent.length
  queue : ∀ e ∈ c.queue, e.1 < c.sent.length

theorem serve_usual (asker : NodeIdentity) (outcomes : List Outcome) (usual : peer.Usual bound) :
    (serve asker outcomes peer).Usual bound := by
  rw [serve]
  split
  · exact usual
  rename_i tag frame inbox waiting
  have rest : ∀ e ∈ inbox, e.1 < bound := fun e mem => usual.inbox e (by rw [waiting]; exact List.mem_cons_of_mem _ mem)
  split
  · exact ⟨usual.flat, rest, usual.outbox⟩
  · refine ⟨StorageWorker.handle_flat _ usual.flat, rest, fun e mem => ?_⟩
    rcases List.mem_append.1 mem with mem | mem
    · exact usual.outbox e mem
    · rw [List.mem_singleton.1 mem]
      exact usual.inbox (tag, frame) (by rw [waiting]; exact List.mem_cons_self)

theorem forge_usual (frame : Frame) (usual : peer.Usual bound) : (forge frame peer).Usual bound := by
  rw [forge]
  split
  · exact usual
  rename_i tag request inbox waiting
  refine ⟨usual.flat, fun e mem => usual.inbox e (by rw [waiting]; exact List.mem_cons_of_mem _ mem), fun e mem => ?_⟩
  rcases List.mem_append.1 mem with mem | mem
  · exact usual.outbox e mem
  · rw [List.mem_singleton.1 mem]
    exact usual.inbox (tag, request) (by rw [waiting]; exact List.mem_cons_self)

theorem Ordinary.modify {f : Peer → Peer} (ordinary : c.Ordinary)
    (keeps : ∀ peer : Peer, peer.Usual c.sent.length → (f peer).Usual c.sent.length) : (c.modify node f).Ordinary := by
  rw [Cluster.modify]
  split
  · exact ordinary
  rename_i peer found
  refine ⟨fun n peer' found' => ?_, ordinary.queue⟩
  rw [Assoc.lookup_insert_ite] at found'
  split at found'
  · cases found'
    exact keeps peer (ordinary.peers node peer found)
  · exact ordinary.peers n peer' found'

theorem Ordinary.deliver (ordinary : c.Ordinary) : (c.deliver node).Ordinary := by
  rw [Cluster.deliver]
  split
  · exact ordinary
  rename_i peer found
  split
  · exact ordinary
  rename_i tag frame outbox waiting
  have usual := ordinary.peers node peer found
  refine ⟨fun n peer' found' => ?_, fun e mem => ?_⟩
  · rw [Assoc.lookup_insert_ite] at found'
    split at found'
    · cases found'
      exact ⟨usual.flat, usual.inbox, fun e mem => usual.outbox e (by rw [waiting]; exact List.mem_cons_of_mem _ mem)⟩
    · exact ordinary.peers n peer' found'
  · rcases List.mem_append.1 mem with mem | mem
    · exact ordinary.queue e mem
    · rw [List.mem_singleton.1 mem]
      exact usual.outbox (tag, frame) (by rw [waiting]; exact List.mem_cons_self)

theorem Ordinary.act (ordinary : c.Ordinary) (a : Act) : (c.act a).Ordinary := by
  cases a with
  | serve n outcomes => exact ordinary.modify fun peer usual => serve_usual c.self outcomes usual
  | deliver n => exact ordinary.deliver
  | loseRequest n index =>
      exact ordinary.modify fun peer usual =>
        ⟨usual.flat, fun e mem => usual.inbox e (List.mem_of_mem_eraseIdx mem), usual.outbox⟩
  | loseReply n index =>
      exact ordinary.modify fun peer usual =>
        ⟨usual.flat, usual.inbox, fun e mem => usual.outbox e (List.mem_of_mem_eraseIdx mem)⟩
  | restart n => exact ordinary.modify fun peer usual => ⟨usual.flat, usual.inbox, usual.outbox⟩
  | forge n frame => exact ordinary.modify fun peer usual => forge_usual frame usual

theorem Ordinary.acts (ordinary : c.Ordinary) (l : List Act) : (c.acts l).Ordinary := by
  induction l generalizing c with
  | nil => exact ordinary
  | cons a l ih => exact ih (ordinary.act a)

theorem take_cases (p : Message → Bool) (c : Cluster) :
    c.take p = (none, c) ∨ ∃ tag message, (tag, message) ∈ c.queue ∧ p message = true ∧
      c.take p = (some message,
        { c with queue := c.queue.eraseP fun e => p e.2, taken := c.taken ++ [(tag, message)] }) := by
  rw [Cluster.take, popIf]
  cases found : c.queue.find? fun e => p e.2 with
  | none => exact .inl rfl
  | some e =>
      have accepted : p e.2 = true := List.find?_some (p := fun e : Nat × Message => p e.2) found
      exact .inr ⟨e.1, e.2, List.mem_of_find?_eq_some found, accepted, rfl⟩

theorem Ordinary.take (ordinary : c.Ordinary) (p : Message → Bool) : (c.take p).2.Ordinary := by
  rcases take_cases p c with none | ⟨tag, message, mem, accepted, some⟩
  · rw [none]
    exact ordinary
  · rw [some]
    exact ⟨ordinary.peers, fun e mem => ordinary.queue e (List.mem_of_mem_eraseP mem)⟩

theorem Ordinary.send (ordinary : c.Ordinary) (node : NodeId) (frame : Frame) : (c.send node frame).Ordinary := by
  have more : ∀ k, k < c.sent.length → k < (c.sent ++ [(node, frame)]).length := fun k below => by
    rw [List.length_append]
    omega
  have usual : ∀ n peer, c.peers.lookup n = some peer → peer.Usual (c.sent ++ [(node, frame)]).length :=
    fun n peer found =>
      have usual := ordinary.peers n peer found
      ⟨usual.flat, fun e mem => more _ (usual.inbox e mem), fun e mem => more _ (usual.outbox e mem)⟩
  rw [Cluster.send]
  split
  · exact ⟨usual, fun e mem => more _ (ordinary.queue e mem)⟩
  rename_i peer found
  refine ⟨fun n peer' found' => ?_, fun e mem => more _ (ordinary.queue e mem)⟩
  rw [Assoc.lookup_insert_ite] at found'
  split at found'
  · cases found'
    have before := usual node peer found
    refine ⟨before.flat, fun e mem => ?_, before.outbox⟩
    rcases List.mem_append.1 mem with mem | mem
    · exact before.inbox e mem
    · rw [List.mem_singleton.1 mem]
      simp
  · exact usual n peer' found'

theorem Ordinary.used {F : Frame → Prop} (ordinary : c.Ordinary) (used : Network.Used F c c') : c'.Ordinary :=
  used.keeps (fun _ node frame holds _ => holds.send node frame)
    (fun n _ p holds => Ordinary.take (Ordinary.acts (c := { n with script := n.script.tail }) ⟨holds.peers, holds.queue⟩ _) p)
    ordinary

/-! ## While a `DELETE` is under way -/

/-- What a node makes of `DELETE` number `tag` for object `x`. The frames with numbers below `base` are older; `seen`
are the messages from the node. Where `fine`, no file call of the node fails. -/
inductive Deleting (base tag : Nat) (id : UInt64) (x : Bytes) (fine : Prop) (frame : Frame) (node : NodeId) (peer : Peer)
    (seen : List (Nat × Message)) : Prop where
  /-- Nothing has come after the `DELETE`. -/
  | waiting (older : List (Nat × Frame)) (inbox : peer.inbox = older ++ [(tag, frame)]) (before : ∀ e ∈ older, e.1 < base)
      (outbox : ∀ e ∈ peer.outbox, e.1 < base) (seen : ∀ e ∈ seen, e.1 < base)
  | lost (inbox : ∀ e ∈ peer.inbox, e.1 < base) (outbox : ∀ e ∈ peer.outbox, e.1 < base) (seen : ∀ e ∈ seen, e.1 < base)
  | answered (status : StorageStatus) (inbox : peer.inbox = [])
      (outbox : ∀ e ∈ peer.outbox, e.1 < base ∨ e = (tag, StorageProtocol.encodeDeleteResponse id { status }))
      (seen : ∀ e ∈ seen, e.1 < base ∨
        e = (tag, (StorageProtocol.encodeDeleteResponse id { status }).from ⟨node, .storage⟩))
      (cleared : status = .success → peer.worker.Cleared x) (succeeds : fine → status = .success)

theorem Deleting.serve {outcomes : List Outcome}
    (read : StorageEvent.of (frame.from asker) = .ok (.delete { objectId := x, context := ⟨id, asker⟩ }))
    (valid : StorageWorker.validObjectId x = true) (flat : peer.worker.Flat) (quiet : fine → ∀ o ∈ outcomes, o.error = none)
    (deleting : Deleting base tag id x fine frame node peer q) :
    Deleting base tag id x fine frame node (Cluster.serve asker outcomes peer) q := by
  cases deleting with
  | waiting older inbox before outbox seen =>
      cases older with
      | nil =>
          -- the `DELETE` itself
          rw [List.nil_append] at inbox
          simp only [Cluster.serve, inbox, read]
          let w := { peer.worker with disk := peer.worker.disk.withOutcomes outcomes }
          rcases handled : w.handleDelete { objectId := x, context := ⟨id, asker⟩ } with ⟨⟨status⟩, w'⟩
          have clears := (StorageWorker.handleDelete_step handled).2
          have succeeds : fine → status = .success := fun calm => by
            have healthy : w.disk.Healthy 0 := fun o mem => ⟨quiet calm o mem, Nat.zero_le _⟩
            have success : (w.handleDelete { objectId := x, context := ⟨id, asker⟩ }).1.status = .success :=
              StorageWorker.handleDelete_healthy (w := w) valid flat healthy (by decide)
            rwa [handled] at success
          simp only [StorageWorker.handle, w, handled] at handled ⊢
          refine .answered status rfl (fun e mem => ?_) (fun e mem => .inl (seen e mem)) (fun success => ?_) succeeds
          · rcases List.mem_append.1 mem with mem | mem
            · exact .inl (outbox e mem)
            · exact .inr (List.mem_singleton.1 mem)
          · obtain ⟨progress, object, temporary⟩ := clears success
            exact ⟨object, temporary, progress⟩
      | cons e older =>
          obtain ⟨k, request⟩ := e
          have rest : ∀ e ∈ older, e.1 < base := fun e mem => before e (List.mem_cons_of_mem _ mem)
          rw [List.cons_append] at inbox
          simp only [Cluster.serve, inbox]
          split
          · exact .waiting older rfl rest outbox seen
          · refine .waiting older rfl rest (fun e mem => ?_) seen
            rcases List.mem_append.1 mem with mem | mem
            · exact outbox e mem
            · rw [List.mem_singleton.1 mem]
              exact before (k, request) List.mem_cons_self
  | lost inbox outbox seen =>
      rw [Cluster.serve]
      split
      · exact .lost inbox outbox seen
      rename_i k request rest waiting
      have behind : ∀ e ∈ rest, e.1 < base := fun e mem => inbox e (by rw [waiting]; exact List.mem_cons_of_mem _ mem)
      split
      · exact .lost behind outbox seen
      · refine .lost behind (fun e mem => ?_) seen
        rcases List.mem_append.1 mem with mem | mem
        · exact outbox e mem
        · rw [List.mem_singleton.1 mem]
          exact inbox (k, request) (by rw [waiting]; exact List.mem_cons_self)
  | answered status inbox outbox seen cleared succeeds =>
      simp only [Cluster.serve, inbox]
      exact .answered status inbox outbox seen cleared succeeds

theorem Deleting.loseRequest (index : Nat) (deleting : Deleting base tag id x fine frame node peer q) :
    Deleting base tag id x fine frame node { peer with inbox := peer.inbox.eraseIdx index } q := by
  cases deleting with
  | waiting older inbox before outbox seen =>
      by_cases inside : index < older.length
      · refine .waiting (older.eraseIdx index) ?_ (fun e mem => before e (List.mem_of_mem_eraseIdx mem)) outbox seen
        rw [inbox, List.eraseIdx_append_of_lt_length inside]
      by_cases last : index = older.length
      · refine .lost (fun e mem => ?_) outbox seen
        rw [inbox, List.eraseIdx_append_of_length_le (by omega), last, Nat.sub_self] at mem
        simp only [List.eraseIdx_cons_zero, List.append_nil] at mem
        exact before e mem
      · refine .waiting older ?_ before outbox seen
        rw [inbox, List.eraseIdx_of_length_le]
        simp only [List.length_append, List.length_cons, List.length_nil]
        omega
  | lost inbox outbox seen => exact .lost (fun e mem => inbox e (List.mem_of_mem_eraseIdx mem)) outbox seen
  | answered status inbox outbox seen cleared succeeds =>
      exact .answered status (by simp [inbox]) outbox seen cleared succeeds

theorem Deleting.loseReply (index : Nat) (deleting : Deleting base tag id x fine frame node peer q) :
    Deleting base tag id x fine frame node { peer with outbox := peer.outbox.eraseIdx index } q := by
  cases deleting with
  | waiting older inbox before outbox seen =>
      exact .waiting older inbox before (fun e mem => outbox e (List.mem_of_mem_eraseIdx mem)) seen
  | lost inbox outbox seen => exact .lost inbox (fun e mem => outbox e (List.mem_of_mem_eraseIdx mem)) seen
  | answered status inbox outbox seen cleared succeeds =>
      exact .answered status inbox (fun e mem => outbox e (List.mem_of_mem_eraseIdx mem)) seen cleared succeeds

/-- A new process has the files of the old one. -/
theorem Deleting.restart (deleting : Deleting base tag id x fine frame node peer q) :
    Deleting base tag id x fine frame node { peer with worker := peer.worker.restart } q := by
  cases deleting with
  | waiting older inbox before outbox seen => exact .waiting older inbox before outbox seen
  | lost inbox outbox seen => exact .lost inbox outbox seen
  | answered status inbox outbox seen cleared succeeds =>
      refine .answered status inbox outbox seen (fun success => ?_) succeeds
      exact ⟨(cleared success).object, (cleared success).temporary, by simp [StorageWorker.restart]⟩

theorem Deleting.mono {q' : List (Nat × Message)} (within : ∀ e ∈ q', e ∈ q)
    (deleting : Deleting base tag id x fine frame node peer q) : Deleting base tag id x fine frame node peer q' := by
  cases deleting with
  | waiting older inbox before outbox seen => exact .waiting older inbox before outbox fun e mem => seen e (within e mem)
  | lost inbox outbox seen => exact .lost inbox outbox fun e mem => seen e (within e mem)
  | answered status inbox outbox seen cleared succeeds =>
      exact .answered status inbox outbox (fun e mem => seen e (within e mem)) cleared succeeds

theorem Deleting.deliver {k : Nat} {reply : Frame} {rest : List (Nat × Frame)} (outbox : peer.outbox = (k, reply) :: rest)
    (deleting : Deleting base tag id x fine frame node peer q) :
    Deleting base tag id x fine frame node { peer with outbox := rest } ((k, reply.from ⟨node, .storage⟩) :: q) := by
  have first : (k, reply) ∈ peer.outbox := by rw [outbox]; exact List.mem_cons_self
  have behind : ∀ e ∈ rest, e ∈ peer.outbox := fun e mem => by rw [outbox]; exact List.mem_cons_of_mem _ mem
  cases deleting with
  | waiting older inbox before out seen =>
      refine .waiting older inbox before (fun e mem => out e (behind e mem)) fun e mem => ?_
      rcases List.mem_cons.1 mem with rfl | mem
      · exact out _ first
      · exact seen e mem
  | lost inbox out seen =>
      refine .lost inbox (fun e mem => out e (behind e mem)) fun e mem => ?_
      rcases List.mem_cons.1 mem with rfl | mem
      · exact out _ first
      · exact seen e mem
  | answered status inbox out seen cleared succeeds =>
      refine .answered status inbox (fun e mem => out e (behind e mem)) (fun e mem => ?_) cleared succeeds
      rcases List.mem_cons.1 mem with rfl | mem
      · refine (out _ first).imp_right fun same => ?_
        cases same
        rfl
      · exact seen e mem

/-! ## The nodes that are asked -/

/-- Nodes run their workers, and where `fine` no file call of `node` fails. -/
def Suits (fine : Prop) (node : NodeId) (c : Cluster) : Prop :=
  ∀ acts ∈ c.script, ∀ a ∈ acts, a.Honest ∧ (fine → a.Spares node)

def heardFrom (node : NodeId) (l : List (Nat × Message)) : List (Nat × Message) := l.filter fun e => e.2.sender.id = node

/-- What has become of `DELETE` number `tag` to `node` since a handler started that found the messages `before` taken. -/
def Watches (base tag : Nat) (id : UInt64) (x : Bytes) (fine : Prop) (frame : Frame) (node : NodeId)
    (before : List (Nat × Message)) (c : Cluster) : Prop :=
  ∃ heard, c.taken = before ++ heard ∧
    ((c.At node fun peer q => peer.worker.Flat ∧ Deleting base tag id x fine frame node peer (q ++ heardFrom node heard)) ∨
      c.peers.lookup node = none ∧ ∀ e ∈ c.held node ++ heardFrom node heard, e.1 < base)

variable {before : List (Nat × Message)} {a : Act}

theorem serve_flat (asker : NodeIdentity) (outcomes : List Outcome) (flat : peer.worker.Flat) :
    (serve asker outcomes peer).worker.Flat := by
  rw [serve]
  split
  · exact flat
  split
  · exact flat
  · exact StorageWorker.handle_flat _ flat

theorem modify_taken (f : Peer → Peer) : (c.modify n f).taken = c.taken := by
  rw [modify]
  split <;> rfl

theorem act_taken (a : Act) : (c.act a).taken = c.taken := by
  cases a with
  | deliver n =>
      simp only [act, deliver]
      split
      · rfl
      · split <;> rfl
  | _ => exact modify_taken _

theorem acts_taken (c : Cluster) (l : List Act) : (c.acts l).taken = c.taken := by
  induction l generalizing c with
  | nil => rfl
  | cons a l ih => exact (ih _).trans (act_taken a)

/-- What storage nodes do does not concern a node that is not one of them. -/
theorem act_stranger (unknown : c.peers.lookup node = none) (a : Act) :
    (c.act a).peers.lookup node = none ∧ (c.act a).held node = c.held node := by
  have modified : ∀ n f, (c.modify n f).peers.lookup node = none ∧ (c.modify n f).held node = c.held node := by
    intro n f
    rw [modify]
    split
    · exact ⟨unknown, rfl⟩
    · rename_i peer found
      have apart : node ≠ n := fun same => by
        rw [same, found] at unknown
        cases unknown
      exact ⟨by rw [Assoc.lookup_insert_ite, if_neg apart, unknown], rfl⟩
  cases a with
  | deliver n =>
      simp only [act, deliver]
      split
      · exact ⟨unknown, rfl⟩
      rename_i peer found
      split
      · exact ⟨unknown, rfl⟩
      · have apart : n ≠ node := fun same => by
          rw [← same, found] at unknown
          cases unknown
        refine ⟨by rw [Assoc.lookup_insert_ite, if_neg (Ne.symm apart), unknown], ?_⟩
        simp [held, Frame.from, apart]
  | _ => exact modified _ _

theorem deleting_act
    (read : StorageEvent.of (frame.from c.self) = .ok (.delete { objectId := x, context := ⟨id, c.self⟩ }))
    (valid : StorageWorker.validObjectId x = true) (honest : a.Honest) (quiet : fine → a.Spares node)
    (h : c.At node fun peer q => peer.worker.Flat ∧ Deleting base tag id x fine frame node peer (q ++ heard)) :
    (c.act a).At node fun peer q => peer.worker.Flat ∧ Deleting base tag id x fine frame node peer (q ++ heard) := by
  cases a with
  | serve n outcomes =>
      refine at_modify h fun here peer q now => ⟨serve_flat _ _ now.1, ?_⟩
      exact now.2.serve read valid now.1 fun calm => quiet calm here
  | deliver n =>
      refine at_deliver h fun peer k reply rest q now outbox => ⟨now.1, (now.2.deliver outbox).mono fun e mem => ?_⟩
      simp only [List.mem_append, List.mem_cons, List.not_mem_nil, or_false] at mem ⊢
      tauto
  | loseRequest n index => exact at_modify h fun _ peer q now => ⟨now.1, now.2.loseRequest index⟩
  | loseReply n index => exact at_modify h fun _ peer q now => ⟨now.1, now.2.loseReply index⟩
  | restart n => exact at_modify h fun _ peer q now => ⟨now.1, now.2.restart⟩
  | forge n frame => exact False.elim honest

theorem Watches.act
    (read : StorageEvent.of (frame.from c.self) = .ok (.delete { objectId := x, context := ⟨id, c.self⟩ }))
    (valid : StorageWorker.validObjectId x = true) (honest : a.Honest) (quiet : fine → a.Spares node)
    (watches : c.Watches base tag id x fine frame node before) : (c.act a).Watches base tag id x fine frame node before := by
  obtain ⟨heard, taken, there | ⟨unknown, older⟩⟩ := watches
  · exact ⟨heard, (act_taken a).trans taken, .inl (deleting_act read valid honest quiet there)⟩
  · obtain ⟨unknown', same⟩ := act_stranger unknown a
    exact ⟨heard, (act_taken a).trans taken, .inr ⟨unknown', by rw [same]; exact older⟩⟩

theorem Watches.acts {l : List Act}
    (read : StorageEvent.of (frame.from c.self) = .ok (.delete { objectId := x, context := ⟨id, c.self⟩ }))
    (valid : StorageWorker.validObjectId x = true) (suits : ∀ a ∈ l, a.Honest ∧ (fine → a.Spares node))
    (watches : c.Watches base tag id x fine frame node before) : (c.acts l).Watches base tag id x fine frame node before := by
  induction l generalizing c with
  | nil => exact watches
  | cons a l ih =>
      obtain ⟨honest, quiet⟩ := suits a List.mem_cons_self
      refine ih ?_ (fun a' mem => suits a' (List.mem_cons_of_mem _ mem)) (watches.act read valid honest quiet)
      rw [act_self]
      exact read

theorem Watches.await
    (read : StorageEvent.of (frame.from c.self) = .ok (.delete { objectId := x, context := ⟨id, c.self⟩ }))
    (valid : StorageWorker.validObjectId x = true) (suits : c.Suits fine node)
    (watches : c.Watches base tag id x fine frame node before) : c.await.Watches base tag id x fine frame node before := by
  have now : ∀ a ∈ c.script.headD [], a.Honest ∧ (fine → a.Spares node) := fun a mem => by
    cases script : c.script with
    | nil => simp [script] at mem
    | cons acts rest => exact suits acts (by simp [script]) a (by simpa [script] using mem)
  exact Watches.acts (c := { c with script := c.script.tail }) read valid now watches

theorem Suits.await (suits : c.Suits fine node) : c.await.Suits fine node := by
  intro acts mem
  rw [Cluster.await, acts_script] at mem
  exact suits acts (List.mem_of_mem_tail mem)

/-- A message that is taken has been seen before. -/
theorem Watches.take (p : Message → Bool) (watches : c.Watches base tag id x fine frame node before) :
    (c.take p).2.Watches base tag id x fine frame node before := by
  rcases take_cases p c with none | ⟨k, message, waiting, -, some⟩
  · rw [none]
    exact watches
  rw [some]
  obtain ⟨heard, taken, there⟩ := watches
  have within : ∀ e ∈ (c.queue.eraseP fun e => p e.2).filter (fun e => decide (e.2.sender.id = node)) ++
      heardFrom node (heard ++ [(k, message)]), e ∈ c.held node ++ heardFrom node heard := by
    intro e mem
    rcases List.mem_append.1 mem with mem | mem
    · obtain ⟨mem, sender⟩ := List.mem_filter.1 mem
      exact List.mem_append_left _ (List.mem_filter.2 ⟨List.mem_of_mem_eraseP mem, sender⟩)
    · obtain ⟨mem, sender⟩ := List.mem_filter.1 mem
      rcases List.mem_append.1 mem with mem | mem
      · exact List.mem_append_right _ (List.mem_filter.2 ⟨mem, sender⟩)
      · rw [List.mem_singleton.1 mem] at sender ⊢
        exact List.mem_append_left _ (List.mem_filter.2 ⟨waiting, sender⟩)
  refine ⟨heard ++ [(k, message)], by rw [← List.append_assoc, ← taken], ?_⟩
  rcases there with ⟨peer, found, flat, deleting⟩ | ⟨unknown, older⟩
  · exact .inl ⟨peer, found, flat, deleting.mono within⟩
  · exact .inr ⟨unknown, fun e mem => older e (within e mem)⟩

theorem send_taken (n : NodeId) (frame : Frame) : (c.send n frame).taken = c.taken := by
  rw [send]
  split <;> rfl

theorem send_stranger (unknown : c.peers.lookup node = none) (n : NodeId) (frame : Frame) :
    (c.send n frame).peers.lookup node = none ∧ (c.send n frame).held node = c.held node := by
  rw [send]
  split
  · exact ⟨unknown, rfl⟩
  · rename_i peer found
    have apart : node ≠ n := fun same => by
      rw [same, found] at unknown
      cases unknown
    exact ⟨by rw [Assoc.lookup_insert_ite, if_neg apart, unknown], rfl⟩

theorem Watches.send {other : Frame} (apart : n ≠ node) (watches : c.Watches base tag id x fine frame node before) :
    (c.send n other).Watches base tag id x fine frame node before := by
  obtain ⟨heard, taken, there | ⟨unknown, older⟩⟩ := watches
  · exact ⟨heard, (send_taken n other).trans taken, .inl (at_send there apart)⟩
  · obtain ⟨unknown', same⟩ := send_stranger unknown n other
    exact ⟨heard, (send_taken n other).trans taken, .inr ⟨unknown', by rw [same]; exact older⟩⟩

/-- The `DELETE` is sent. -/
theorem watches_sent (usual : ∀ peer, c.peers.lookup node = some peer → peer.Usual base) (queue : ∀ e ∈ c.queue, e.1 < base) :
    (c.send node frame).Watches base c.sent.length id x fine frame node c.taken := by
  have held : ∀ e ∈ c.held node, e.1 < base := fun e mem => queue e (List.mem_of_mem_filter mem)
  refine ⟨[], by rw [send_taken, List.append_nil], ?_⟩
  simp only [heardFrom, List.filter_nil, List.append_nil]
  cases found : c.peers.lookup node with
  | none =>
      obtain ⟨unknown, same⟩ := send_stranger found node frame
      exact .inr ⟨unknown, by rw [same]; exact held⟩
  | some peer =>
      have start : c.At node fun peer' q => peer' = peer ∧ q = c.held node := ⟨peer, found, rfl, rfl⟩
      refine .inl (at_send_self start fun peer' q now => ?_)
      obtain ⟨rfl, rfl⟩ := now
      have before := usual peer' found
      exact ⟨before.flat, .waiting peer'.inbox rfl before.inbox before.outbox held⟩

/-- The `DELETE` is sent to two nodes. -/
theorem sent_watches {first second : NodeId} (ordinary : c.Ordinary) (apart : first ≠ second) (node : NodeId)
    (named : node = first ∨ node = second) : ∃ tag, ((c.send first frame).send second frame).Watches c.sent.length tag id x fine
      frame node c.taken := by
  rcases named with rfl | rfl
  · have sent : (c.send node frame).Watches c.sent.length c.sent.length id x fine frame node c.taken :=
      watches_sent (ordinary.peers node) ordinary.queue
    exact ⟨_, sent.send (Ne.symm apart)⟩
  · have same : (c.send first frame).peers.lookup node = c.peers.lookup node ∧ (c.send first frame).queue = c.queue := by
      rw [send]
      split
      · exact ⟨rfl, rfl⟩
      · exact ⟨by rw [Assoc.lookup_insert_ite, if_neg (Ne.symm apart)], rfl⟩
    rw [← send_taken first frame]
    exact ⟨_, watches_sent (fun peer found => ordinary.peers node peer (same.1 ▸ found)) (same.2 ▸ ordinary.queue)⟩

/-- The handler has taken a reply that is not older than itself: it is the node's answer to the `DELETE`. -/
theorem Watches.told {e : Nat × Message} (watches : c.Watches base tag id x fine frame node before)
    (mem : e ∈ c.taken.drop before.length) (sender : e.2.sender.id = node) (own : base ≤ e.1) :
    ∃ status peer, c.peers.lookup node = some peer ∧
      e.2 = (StorageProtocol.encodeDeleteResponse id { status }).from ⟨node, .storage⟩ ∧
      (status = .success → peer.worker.Cleared x) ∧ (fine → status = .success) := by
  obtain ⟨heard, taken, there⟩ := watches
  rw [taken, List.drop_left] at mem
  have heardHere : e ∈ heardFrom node heard := List.mem_filter.2 ⟨mem, decide_eq_true sender⟩
  rcases there with ⟨peer, found, -, deleting⟩ | ⟨-, older⟩
  · have seenHere : e ∈ c.held node ++ heardFrom node heard := List.mem_append_right _ heardHere
    cases deleting with
    | waiting _ _ _ _ seen => exact absurd (seen e seenHere) (by omega)
    | lost _ _ seen => exact absurd (seen e seenHere) (by omega)
    | answered status _ _ seen cleared succeeds =>
        rcases seen e seenHere with older | same
        · exact absurd older (by omega)
        · exact ⟨status, peer, found, by rw [same], cleared, succeeds⟩
  · exact absurd (older e (List.mem_append_right _ heardHere)) (by omega)

end Cluster

namespace MetadataState

open MetadataStore MetadataWorker

variable {s : System} {id : UInt64} {replica : NodeId}

/-- The status in a reply to a `DELETE`. -/
def deleteStatus (message : Message) : Option StorageStatus :=
  (Rpc.readMessage StorageJob message >>= StorageProtocol.decodeDeleteResponse).toOption.map (·.status)

theorem deleteStatus_reply {sender : NodeIdentity} {response : DeleteResponse} :
    deleteStatus ((StorageProtocol.encodeDeleteResponse id response).from sender) = some response.status := by
  obtain ⟨message, read, -, -, decoded⟩ :=
    (StorageKind.finds_deleteResponse response).receive (by simp [write]) id sender
  change Rpc.readMessage StorageJob ((StorageProtocol.encodeDeleteResponse id response).from sender) = _ at read
  change StorageProtocol.decodeDeleteResponse message = _ at decoded
  rw [deleteStatus, read]
  change (StorageProtocol.decodeDeleteResponse message).toOption.map (·.status) = _
  rw [decoded]
  rfl

/-- The replies that a `Remove` waits for. -/
def isReply (id : UInt64) (replica : NodeId) : Message → Bool :=
  Rpc.makeMessageIs id StorageJob.delete .response replica Rpc.matchAnyBody

theorem awaitDelete_eq (s : System) (id : UInt64) (replica : NodeId) :
    s.awaitDelete id replica =
      ((s.network.await.take (isReply id replica)).1.any fun message => deleteStatus message = some .success,
        { s with network := (s.network.await.take (isReply id replica)).2 }) := by
  have same : Network.receiveIf storageRequestTimeout
      (Rpc.makeMessageIs id StorageJob.delete .response replica Rpc.matchAnyBody) s.network =
        s.network.await.take (isReply id replica) := rfl
  unfold awaitDelete receiveIf
  rw [same]
  rcases s.network.await.take (isReply id replica) with ⟨r, n⟩
  cases r with
  | none => rfl
  | some message =>
      dsimp only [Option.any]
      rw [deleteStatus]
      split
      · rename_i e failed
        rw [failed]
        rfl
      · rename_i response read
        rw [read]
        simp [Except.toOption]

/-- What the wait for a replica takes is from that replica, and decides what the handler makes of it. -/
theorem awaitDelete_taken (s : System) (id : UInt64) (replica : NodeId) :
    ∃ l, (s.awaitDelete id replica).2.network.taken = s.network.taken ++ l ∧
      ∀ e ∈ l, e.2.sender.id = replica ∧ (deleteStatus e.2 = some .success → (s.awaitDelete id replica).1 = true) := by
  have waited : s.network.await.taken = s.network.taken := Cluster.acts_taken _ _
  rw [awaitDelete_eq]
  rcases Cluster.take_cases (isReply id replica) s.network.await with none | ⟨k, message, -, accepted, some⟩
  · rw [none]
    exact ⟨[], by simp [waited], fun e mem => by cases mem⟩
  · rw [some]
    refine ⟨[(k, message)], by simp [waited], fun e mem => ?_⟩
    rw [List.mem_singleton.1 mem]
    exact ⟨(Rpc.makeMessageIs_type accepted).2, fun success => decide_eq_true success⟩

/-- The two waits for the answers to a `DELETE`. -/
theorem removeObject_eq (req : RemoveRequest) (m : FileMetadata) (s : System) :
    s.removeObject req m =
      let id := s.worker.currentStorageRequestId + 1
      let frame := StorageProtocol.encodeDeleteRequest id { objectId := m.objId, context := req.context }
      let asked : System :=
        { worker := { s.worker with currentStorageRequestId := id }
          network := (s.network.send m.replicaLocations.1 frame).send m.replicaLocations.2 frame }
      let first := asked.awaitDelete id m.replicaLocations.1
      let second := first.2.awaitDelete id m.replicaLocations.2
      if (first.1 && second.1) = false then (.serverError, second.2)
      else
        (getClientStatus (second.2.onStore (removeMetadata req.path)).1, (second.2.onStore (removeMetadata req.path)).2) := rfl

theorem awaitDelete_watches {base tag : Nat} {id' : UInt64} {x : Bytes} {fine : Prop} {frame : Frame} {node : NodeId}
    {before : List (Nat × Message)}
    (read : StorageEvent.of (frame.from s.network.self) = .ok (.delete { objectId := x, context := ⟨id', s.network.self⟩ }))
    (valid : StorageWorker.validObjectId x = true) (suits : s.network.Suits fine node)
    (watches : s.network.Watches base tag id' x fine frame node before) :
    (s.awaitDelete id replica).2.network.Watches base tag id' x fine frame node before := by
  rw [awaitDelete_eq]
  exact (watches.await read valid suits).take _

theorem awaitDelete_same {fine : Prop} {node : NodeId} (suits : s.network.Suits fine node) :
    (s.awaitDelete id replica).2.worker = s.worker ∧ (s.awaitDelete id replica).2.network.self = s.network.self ∧
      (s.awaitDelete id replica).2.network.Suits fine node := by
  rw [awaitDelete_eq]
  refine ⟨rfl, Cluster.take_self.trans (Cluster.await_self _), ?_⟩
  rw [Cluster.Suits, Cluster.take_script]
  exact suits.await

/-- A `DELETE` has been sent to both replicas, and both have been waited for. -/
structure Consulted (m : FileMetadata) (fine : NodeId → Prop) (s s' : System) (first second : Bool) : Prop where
  worker : s'.worker = { s.worker with currentStorageRequestId := s.worker.currentStorageRequestId + 1 }
  watches : ∀ node, node = m.replicaLocations.1 ∨ node = m.replicaLocations.2 → ∃ tag frame,
    s'.network.Watches s.network.sent.length tag (s.worker.currentStorageRequestId + 1) m.objId (fine node) frame node
      s.network.taken
  first : ∀ e ∈ s'.network.taken.drop s.network.taken.length, e.2.sender.id = m.replicaLocations.1 →
    deleteStatus e.2 = some .success → first = true
  second : ∀ e ∈ s'.network.taken.drop s.network.taken.length, e.2.sender.id = m.replicaLocations.2 →
    deleteStatus e.2 = some .success → second = true

theorem removeObject_consulted {req : RemoveRequest} {m : FileMetadata} {fine : NodeId → Prop} {s : System}
    (ordinary : s.network.Ordinary) (apart : m.replicaLocations.1 ≠ m.replicaLocations.2) (clean : NulFree m.objId)
    (small : m.objId.length < 2 ^ 30) (valid : StorageWorker.validObjectId m.objId = true)
    (suits : ∀ node, s.network.Suits (fine node) node) :
    ∃ (first second : Bool) (s' : System), Consulted m fine s s' first second ∧
      s.removeObject req m =
        if (first && second) = false then (.serverError, s')
        else (getClientStatus (s'.onStore (removeMetadata req.path)).1, (s'.onStore (removeMetadata req.path)).2) := by
  let id := s.worker.currentStorageRequestId + 1
  let frame := StorageProtocol.encodeDeleteRequest id { objectId := m.objId, context := req.context }
  let c := s.network.send m.replicaLocations.1 frame
  let asked : System :=
    { worker := { s.worker with currentStorageRequestId := id }, network := c.send m.replicaLocations.2 frame }
  let waited := asked.awaitDelete id m.replicaLocations.1
  have suited : ∀ node, asked.network.Suits (fine node) node := fun node => by
    rw [Cluster.Suits, Cluster.send_script, Cluster.send_script]
    exact suits node
  have read : StorageEvent.of (frame.from asked.network.self) =
      .ok (.delete { objectId := m.objId, context := ⟨id, asked.network.self⟩ }) :=
    of_deleteRequest clean small
  have taken : asked.network.taken = s.network.taken := (Cluster.send_taken _ _).trans (Cluster.send_taken _ _)
  obtain ⟨l₁, taken₁, from₁⟩ := awaitDelete_taken asked id m.replicaLocations.1
  obtain ⟨l₂, taken₂, from₂⟩ := awaitDelete_taken waited.2 id m.replicaLocations.2
  have all : (waited.2.awaitDelete id m.replicaLocations.2).2.network.taken.drop s.network.taken.length = l₁ ++ l₂ := by
    rw [taken₂, taken₁, taken, List.append_assoc, List.drop_left]
  refine ⟨waited.1, (waited.2.awaitDelete id m.replicaLocations.2).1, (waited.2.awaitDelete id m.replicaLocations.2).2,
    ⟨?_, ?_, ?_, ?_⟩, removeObject_eq req m s⟩
  · exact (awaitDelete_same (awaitDelete_same (suited m.replicaLocations.1)).2.2).1.trans (awaitDelete_same (suited m.replicaLocations.1)).1
  · intro node named
    obtain ⟨tag, watches⟩ := Cluster.sent_watches ordinary apart node named
    obtain ⟨-, self', suited'⟩ : waited.2.worker = asked.worker ∧ waited.2.network.self = asked.network.self ∧
      waited.2.network.Suits (fine node) node := awaitDelete_same (suited node)
    have watches' : waited.2.network.Watches s.network.sent.length tag id m.objId (fine node) frame node s.network.taken :=
      awaitDelete_watches read valid (suited node) watches
    refine ⟨tag, frame, awaitDelete_watches ?_ valid suited' watches'⟩
    rw [self']
    exact read
  · intro e mem sender success
    rw [all] at mem
    rcases List.mem_append.1 mem with mem | mem
    · exact (from₁ e mem).2 success
    · exact absurd (sender.symm.trans (from₂ e mem).1) apart
  · intro e mem sender success
    rw [all] at mem
    rcases List.mem_append.1 mem with mem | mem
    · exact absurd ((from₁ e mem).1.symm.trans sender) apart
    · exact (from₂ e mem).2 success

/-- A `Remove` that sends nothing to storage nodes, and one that does. -/
theorem remove_asks (req : RemoveRequest) (s : System) : (s.remove req).2.network = s.network ∨
    ∃ m, s.worker.store.getMetadata req.path = .ok m ∧ m.replicaLocations.1 ≠ m.replicaLocations.2 ∧
      s.remove req = s.removeObject req m := by
  unfold remove
  split
  · exact .inl rfl
  split
  · exact .inl rfl
  · exact .inl rfl
  rename_i m found
  dsimp only
  split
  · exact .inl rfl
  rename_i normal
  split
  · exact .inl rfl
  rename_i bound
  split
  · refine .inr ⟨m, found, fun same => normal (.inr (.inl ?_)), rfl⟩
    rw [doubled, ← same]
    simp [bound]
  · exact .inl rfl

end MetadataState

namespace MetadataStore

/-- The file of a record can be removed unless the call fails. -/
theorem removeMetadata_removes {s : MetadataStore} {f : Bytes} {m : FileMetadata} (mirror : Mirrors s.disk.tree s.data)
    (valid : validFilename f = true) (found : s.data.lookup (key f) = some m) (works : ¬ Fails s.disk.outcomes 0) :
    ∃ s', removeMetadata f s = (.ok (), s') ∧ s'.data.lookup (key f) = none ∧ s'.disk.tree.content (key f) = none := by
  obtain ⟨components, -, -⟩ := valid_filename valid
  have file := (mirror.found found).1
  rw [components] at file
  obtain ⟨t, removed, gone⟩ := FileTree.remove_file file
  have called : s.disk.remove (physical f) = (.ok true, s.disk.drawn.reach t) := by
    rw [Disk.remove, Disk.call, outcome_fine works]
    dsimp only
    rw [removed]
  refine ⟨{ disk := s.disk.drawn.reach t, data := s.data.erase (key f) }, ?_, ?_, ?_⟩
  · rw [removeMetadata, if_neg (by simp [valid]), called]
  · rw [Assoc.lookup_erase_ite, if_pos rfl]
  · rw [components]
    change t.content (physical f) = none
    rw [FileTree.content, gone]
    rfl

end MetadataStore

namespace System

open MetadataStore MetadataWorker MetadataState

variable {s₀ s s' u : System} {e : NodeEvent} {events tried : List NodeEvent} {req : RemoveRequest} {env : Env}
  {script : List (List Act)} {k : FilePath} {m : FileMetadata}

/-! ## One attempt -/

/-- The handler that led from `s` to `s'` has taken the answer of `node` to the `DELETE` that it has sent itself. -/
def Answered (s s' : System) (node : NodeId) (status : StorageStatus) : Prop :=
  ∃ e ∈ s'.network.taken.drop s.network.taken.length,
    e.2.sender.id = node ∧ s.network.sent.length ≤ e.1 ∧ deleteStatus e.2 = some status

/-- Nothing is left of the file at `k`. -/
structure Removed (k : FilePath) (m : FileMetadata) (s : System) : Prop where
  memory : s.worker.store.data.lookup k = none
  directory : s.worker.store.disk.tree.content k = none
  replicas : ∀ node peer, node = m.replicaLocations.1 ∨ node = m.replicaLocations.2 →
    s.network.peers.lookup node = some peer → peer.worker.Cleared m.objId

/-- What a `Remove` of the file with the record `m` at `k` does that is answered with `status`. -/
structure Attempt (k : FilePath) (m : FileMetadata) (env : Env) (script : List (List Act)) (status : ClientStatus)
    (s s' : System) : Prop where
  unsuccessful : status ≠ .success → SameRecords s s'
  /-- Both replicas answer without an error, and the file of the record can be removed. -/
  completed : s.Answered s' m.replicaLocations.1 .success → s.Answered s' m.replicaLocations.2 .success →
    ¬ Fails env.outcomes 0 → status = .success ∧ Removed k m s'
  /-- Only a file call that fails makes a replica answer with an error, whatever is left of the object. -/
  repeatable : ∀ node, node = m.replicaLocations.1 ∨ node = m.replicaLocations.2 →
    (∀ acts ∈ script, ∀ a ∈ acts, a.Spares node) → ∀ answer, s.Answered s' node answer → answer = .success

theorem send_worker {c : Cluster} {node n : NodeId} {frame : Frame} {peer : Peer}
    (found : (c.send n frame).peers.lookup node = some peer) : ∃ peer', c.peers.lookup node = some peer' ∧
      peer.worker = peer'.worker := by
  rw [Cluster.send] at found
  split at found
  · exact ⟨peer, found, rfl⟩
  rename_i peer' found'
  rw [Assoc.lookup_insert_ite] at found
  split at found
  · rename_i here
    cases found
    exact ⟨peer', here ▸ found', rfl⟩
  · exact ⟨peer, found, rfl⟩

/-- An answer that a handler has taken tells what has become of the object. -/
theorem Answered.told {fine : NodeId → Prop} {first second : Bool} {s₁ : System} {node : NodeId} {status : StorageStatus}
    {client : NodeId} {frame : Frame} (asked : Consulted m fine (s.prepared env script) s₁ first second)
    (network : s'.network = s₁.network.send client frame) (named : node = m.replicaLocations.1 ∨ node = m.replicaLocations.2)
    (answered : s.Answered s' node status) :
    (fine node → status = .success) ∧
      (status = .success → ∀ peer, s'.network.peers.lookup node = some peer → peer.worker.Cleared m.objId) := by
  obtain ⟨e, mem, sender, own, says_⟩ := answered
  obtain ⟨tag, sent, watches⟩ := asked.watches node named
  rw [network, Cluster.send_taken] at mem
  obtain ⟨status', peer, found, message, cleared, succeeds⟩ := watches.told mem sender own
  have same : status' = status := by
    rw [message, deleteStatus_reply] at says_
    exact Option.some.inj says_
  subst same
  refine ⟨succeeds, fun success peer' found' => ?_⟩
  rw [network] at found'
  obtain ⟨peer'', there, worker⟩ := send_worker found'
  cases found.symm.trans there
  rw [worker]
  exact cleared success

theorem remove_attempt (sturdy : s.Sturdy) (ordinary : s.network.Ordinary) (generated : s.worker.All fun x _ => Generated x)
    (found : s.worker.store.data.lookup k = some m) (path : key req.path = k) (honest : ∀ acts ∈ script, ∀ a ∈ acts, a.Honest) :
    ∃ s' status frame, s.next (.request (.remove req) env script) = .ok s' ∧
      s'.network.sent.getLast? = some (req.context.sender.id, frame) ∧ Responds (.remove req) status frame ∧
        Attempt k m env script status s s' := by
  let p := s.prepared env script
  rcases removed : p.remove req with ⟨status, s₁⟩
  let frame := ClientProtocol.encodeRemoveResponse req.context.requestId { status }
  have stepped : s.next (.request (.remove req) env script) = .ok (s₁.send req.context.sender.id frame) := by
    change Except.ok (handleRemove req p) = _
    rw [handleRemove, removed]
    rfl
  have last : (s₁.send req.context.sender.id frame).network.sent.getLast? = some (req.context.sender.id, frame) := by
    simp [MetadataState.send, Cluster.send_sent]
  have responds : Responds (.remove req) status frame := ⟨[], rfl⟩
  have harmless : s.HarmlessRefusals (.remove req) := sturdy.harmless fun overtaken => overtaken
  have unsuccessful : status ≠ .success → SameRecords s (s₁.send req.context.sender.id frame) :=
    harmless env script _ status frame stepped last responds
  rcases remove_asks req p with silent | ⟨m', recorded, apart, asks⟩
  · -- no replica has been asked, so none has answered
    have none : ∀ node answer, ¬ s.Answered (s₁.send req.context.sender.id frame) node answer := by
      rintro node answer ⟨e, mem, -⟩
      rw [removed] at silent
      have taken : (s₁.send req.context.sender.id frame).network.taken = s.network.taken := by
        change (s₁.network.send req.context.sender.id frame).taken = _
        rw [Cluster.send_taken, show s₁.network = p.network from silent]
        rfl
      rw [taken, List.drop_length] at mem
      cases mem
    exact ⟨_, status, frame, stepped, last, responds, unsuccessful, fun first => absurd first (none _ _),
      fun _ _ _ _ answered => absurd answered (none _ _)⟩
  obtain ⟨valid, recorded⟩ := getMetadata_ok recorded
  rw [path] at recorded
  cases found.symm.trans recorded
  have made : Generated m.objId := generated _ _ (.record k m found)
  have clean := sturdy.clean _ _ (.record k m found)
  let fine : NodeId → Prop := fun node => ∀ acts ∈ script, ∀ a ∈ acts, a.Spares node
  have suits : ∀ node, p.network.Suits (fine node) node := fun node acts mem a mem' =>
    ⟨honest acts mem a mem', fun calm => calm acts mem a mem'⟩
  have small : m.objId.length < 2 ^ 30 := by
    rw [made.length]
    decide
  obtain ⟨first, second, s₂, asked, result⟩ := @removeObject_consulted req m fine p ⟨ordinary.peers, ordinary.queue⟩ apart
    clean.objId small (StorageWorker.valid_generated made) suits
  rw [asks.symm.trans removed] at result
  have network : (s₁.send req.context.sender.id frame).network = s₂.network.send req.context.sender.id frame := by
    have same : s₁.network = s₂.network := by
      split at result
      · exact congrArg MetadataState.network (Prod.mk.inj result).2
      · rw [(Prod.mk.inj result).2]
        rfl
    change s₁.network.send req.context.sender.id frame = _
    rw [same]
  refine ⟨_, status, frame, stepped, last, responds, unsuccessful, fun answered₁ answered₂ works => ?_,
    fun node named calm answer answered => (answered.told asked network named).1 calm⟩
  have both : first = true ∧ second = true := by
    constructor
    · obtain ⟨e, mem, sender, -, success⟩ := answered₁
      rw [network, Cluster.send_taken] at mem
      exact asked.first e mem sender success
    · obtain ⟨e, mem, sender, -, success⟩ := answered₂
      rw [network, Cluster.send_taken] at mem
      exact asked.second e mem sender success
  have store : s₂.worker.store = p.worker.store := (congrArg MetadataWorker.store asked.worker).trans rfl
  obtain ⟨store', cleared, memory, directory⟩ := removeMetadata_removes (s := p.worker.store) (f := req.path) (m := m)
    sturdy.mirrored valid (by rw [path]; exact found) works
  rw [path] at memory directory
  rw [both.1, both.2, if_neg (by decide), onStore, store, cleared] at result
  obtain ⟨rfl, rfl⟩ := Prod.mk.inj result
  refine ⟨rfl, memory, directory, ?_⟩
  rintro node peer (rfl | rfl) there
  · exact (answered₁.told asked network (.inl rfl)).2 rfl peer there
  · exact (answered₂.told asked network (.inr rfl)).2 rfl peer there

/-! ## Any number of attempts -/

theorem handle_ordinary (event : ClientEvent) (ordinary : s.network.Ordinary) :
    (MetadataState.handle env event (s.scripted script)).2.network.Ordinary := by
  have asks : Asks (fun _ => True) ((s.scripted script).entered env).worker event := by cases event <;> simp [Asks]
  have start : (s.scripted script).network.Ordinary := ⟨ordinary.peers, ordinary.queue⟩
  exact start.used (handle_sends asks fun _ _ _ => trivial)

theorem nextNode_ordinary (ordinary : s.network.Ordinary) (h : s.nextNode e = .ok s') : s'.network.Ordinary := by
  have restarts : ∀ (s₁ : System) (t : FileTree) (outcomes : List Outcome), s₁.network.Ordinary →
      s₁.restarted t outcomes = .ok s' → s'.network.Ordinary := by
    intro s₁ t outcomes before restarted
    unfold System.restarted at restarted
    split at restarted
    · cases restarted
    · cases restarted
      exact ⟨before.peers, fun e mem => by cases mem⟩
  cases e with
  | step e =>
      cases e with
      | request event env script =>
          have after := @handle_ordinary s env script event ordinary
          rw [next_request h] at after
          exact after
      | storage acts =>
          cases h
          exact ordinary.acts acts
      | heartbeat now sender =>
          cases h
          exact ordinary
      | checkTimeouts now =>
          cases h
          exact ordinary
  | restart outcomes => exact restarts _ _ _ ordinary h
  | crash event env script point outcomes => exact restarts _ _ _ (handle_ordinary event ordinary) h

/-- Every step keeps what holds of the objects in use and their replicas, as long as it holds of the objects that it makes. -/
theorem nextNode_all {Q : Bytes → NodeId × NodeId → Prop} (sturdy : s.Sturdy) (all : s.worker.All Q)
    (admits : ∀ env, s.worker.Admits env Q) (h : s.nextNode e = .ok s') : s'.worker.All Q := by
  have handles : ∀ {event : ClientEvent} {env : Env} {script : List (List Act)} {s₁ : System},
      MetadataState.handle env event (s.scripted script) = (.ok (), s₁) → s₁.worker.All Q := by
    intro event env script s₁ handled
    exact handle_all (s := s.scripted script) all (admits env) handled
  cases e with
  | step e =>
      cases e with
      | request event env script => exact handles (next_request h)
      | storage acts =>
          cases h
          exact all
      | heartbeat now sender =>
          cases h
          have data : (s.worker.handleHeartbeat now sender).store.data = s.worker.store.data := rfl
          exact fun x r names => all x r (names.same data rfl rfl)
      | checkTimeouts now =>
          cases h
          have data : (s.worker.checkHeartbeatTimeouts now).store.data = s.worker.store.data := rfl
          exact fun x r names => all x r (names.same data rfl rfl)
  | restart outcomes => exact fun x r names => all x r ((restarted_spec sturdy.mirrored h).names names)
  | crash event env script point outcomes =>
      rcases sturdy.passed (passed_getD_mem _ _ point) with mirror | ⟨s₁, handled, mirror⟩
      · exact fun x r names => all x r ((restarted_spec mirror h).names names)
      · exact fun x r names => handles handled x r ((restarted_spec mirror h).names names)

/-- All object ids come from the generator. -/
theorem nextNode_generated (sturdy : s.Sturdy) (generated : s.worker.All fun x _ => Generated x) (h : s.nextNode e = .ok s') :
    s'.worker.All fun x _ => Generated x :=
  nextNode_all sturdy generated (fun _ => ⟨⟨_, _, rfl⟩, fun _ _ _ made _ _ _ => made⟩) h

/-- What holds between two steps. -/
structure Removable (s : System) : Prop where
  sturdy : s.Sturdy
  ordinary : s.network.Ordinary
  generated : s.worker.All fun x _ => Generated x

theorem nextNode_removable (removable : s.Removable) (heard : e.From NodeClean) (h : s.nextNode e = .ok s') : s'.Removable where
  sturdy := next_sturdy removable.sturdy heard h
  ordinary := nextNode_ordinary removable.ordinary h
  generated := nextNode_generated removable.sturdy removable.generated h

theorem Blank.removable (blank : s.Blank) (ordinary : s.network.Ordinary) : s.Removable := by
  refine ⟨blank.sturdy, ordinary, fun x r names => ?_⟩
  obtain ⟨k, m, found, -, -⟩ := blank.fresh.names names
  simp [blank.records] at found

/-- A `Remove` of the file at `k` that is not answered with `Success`. -/
def Fruitless (k : FilePath) (s : System) (e : NodeEvent) : Prop :=
  ∃ req env script, e = .step (.request (.remove req) env script) ∧ key req.path = k ∧
    ∀ s' status frame, s.nextNode e = .ok s' → s'.network.sent.getLast? = some (req.context.sender.id, frame) →
      Responds (.remove req) status frame → status ≠ .success

/-- A step that does not touch the record at `k`. -/
def Elsewhere (k : FilePath) (s : System) (e : NodeEvent) : Prop :=
  ∀ s', s.nextNode e = .ok s' → s'.worker.store.data.lookup k = s.worker.store.data.lookup k

theorem Fruitless.elsewhere (sturdy : s.Sturdy) (fruitless : Fruitless k s e) : Elsewhere k s e := by
  obtain ⟨req, env, script, rfl, path, unsuccessful⟩ := fruitless
  intro s' stepped
  have handled : s.next (.request (.remove req) env script) = .ok s' := stepped
  obtain ⟨status, frame, s₁, -, responds, sent⟩ := handle_handled (next_request handled)
  have last : s'.network.sent.getLast? = some (req.context.sender.id, frame) := by
    rw [sent]
    simp [MetadataState.send, Cluster.send_sent, ClientEvent.context]
  have harmless : s.HarmlessRefusals (.remove req) := sturdy.harmless fun overtaken => overtaken
  have same := harmless env script s' status frame handled last responds
    (unsuccessful s' status frame stepped last responds)
  rw [same.memory]

/-- Whatever has been tried, the next `Remove` of the file at `k` is an attempt like the first. -/
def Retriable (k : FilePath) (m : FileMetadata) (s : System) : Prop :=
  ∀ (req : RemoveRequest) (env : Env) (script : List (List Act)), key req.path = k →
    (∀ acts ∈ script, ∀ a ∈ acts, a.Honest) →
      ∃ s' status frame, s.next (.request (.remove req) env script) = .ok s' ∧
        s'.network.sent.getLast? = some (req.context.sender.id, frame) ∧ Responds (.remove req) status frame ∧
          Attempt k m env script status s s'

/-- A file is bound to the nodes `"a"` and `"b"`, and its writer has given up. -/
def boundFile : List NodeEvent :=
  joined.map .step ++
    [.step (.request (.writeFile { path := [112], fileSize := 1, chunkCount := 1, context := fromClient 1 }) { first := 7 } []),
      .restart []] ++ joined.map .step

/-- Only node `"a"` handles the `DELETE` and answers. -/
def halfServed : NodeEvent :=
  .step (.request (.remove { path := [112], context := fromClient 2 }) {} [[.serve [97] [], .deliver [97]]])

/-- Node `"b"` is late with its answer to the first attempt; the second is answered with `Success`. -/
def secondSucceeds (s : System) : Bool :=
  (s.next (.request (.remove { path := [112], context := fromClient 3 }) {}
      [[.serve [98] [], .deliver [98]] ++ served])).toOption.any fun s' =>
    s'.network.sent.getLast? = some ([99], ClientProtocol.encodeRemoveResponse 3 { status := .success })

/-- There is a record, and one node that answers is not enough. -/
def firstFails (s : System) : Bool :=
  (s.worker.store.data.lookup [[112]]).isSome &&
    (s.nextNode halfServed).toOption.any fun u =>
      u.network.sent.getLast? = some ([99], ClientProtocol.encodeRemoveResponse 2 { status := .serverError }) &&
        secondSucceeds u

theorem start_ordinary : start.network.Ordinary := by
  refine ⟨fun node peer found => ?_, fun e mem => absurd mem List.not_mem_nil⟩
  rw [lookup_start found]
  exact ⟨FileTree.flat_empty, fun e mem => absurd mem List.not_mem_nil, fun e mem => absurd mem List.not_mem_nil⟩

end System

end Dfs
