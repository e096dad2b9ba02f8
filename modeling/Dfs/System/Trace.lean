import Dfs.System.Cluster

/-!
# Which request a reply belongs to

Frames travel with the number of the request they belong to. Storage nodes that only run their
worker answer a request with what the worker makes of it, so the number of a reply leads back to
a frame the metadata node sent and to the node it was sent to.
-/

namespace Dfs

open Lib

/-- A worker in some state answers `request` with `reply`. -/
def Answers (self : NodeIdentity) (request reply : Frame) : Prop :=
  ∃ (event : StorageEvent) (w : StorageWorker), StorageEvent.of (request.from self) = .ok event ∧
    reply = (w.handle event).1

/-- The node runs its worker and nothing else. -/
def Act.Honest : Act → Prop
  | .forge _ _ => False
  | _ => True

namespace Cluster

variable {c c' : Cluster}

/-- The numbers of the requests to a node that it has not answered, or whose reply was not taken. -/
def inFlight (c : Cluster) (node : NodeId) : List Nat :=
  ((c.peers.lookup node).map fun peer => (peer.inbox ++ peer.outbox).map (·.1)).getD [] ++
    (c.queue.filter fun e => e.2.sender.id = node).map (·.1)

/-- The message answers request `tag` to its sender. -/
def Replies (c : Cluster) (tag : Nat) (message : Message) : Prop :=
  ∃ request reply, c.sent[tag]? = some (message.sender.id, request) ∧ Answers c.self request reply ∧
    message = reply.from message.sender

/-- Every frame under way belongs to the request with its number. -/
structure Traced (c : Cluster) : Prop where
  inbox : ∀ node peer, c.peers.lookup node = some peer → ∀ e ∈ peer.inbox, c.sent[e.1]? = some (node, e.2)
  outbox : ∀ node peer, c.peers.lookup node = some peer → ∀ e ∈ peer.outbox,
    ∃ request, c.sent[e.1]? = some (node, request) ∧ Answers c.self request e.2
  queue : ∀ e ∈ c.queue, c.Replies e.1 e.2

/-- What may have changed since `base` while a handler was running. -/
structure Since (base c : Cluster) : Prop where
  traced : c.Traced
  self : c.self = base.self
  sent : base.sent <+: c.sent
  flight : ∀ node tag, tag ∈ c.inFlight node → tag ∈ base.inFlight node ∨ base.sent.length ≤ tag
  taken : ∃ new, c.taken = base.taken ++ new ∧ ∀ e ∈ new, base.sent.length ≤ e.1 ∧ c.Replies e.1 e.2
  script : ∀ acts ∈ c.script, ∀ a ∈ acts, a.Honest

theorem mem_inFlight {node : NodeId} {tag : Nat} :
    tag ∈ c.inFlight node ↔
      (∃ peer, c.peers.lookup node = some peer ∧ ∃ frame, (tag, frame) ∈ peer.inbox ∨ (tag, frame) ∈ peer.outbox) ∨
        ∃ message, (tag, message) ∈ c.queue ∧ message.sender.id = node := by
  rw [inFlight, List.mem_append]
  refine or_congr ?_ ?_
  · cases c.peers.lookup node with
    | none => simp
    | some peer => simp [← exists_or]
  · simp

theorem sent_found {sent sent' : List (NodeId × Frame)} {tag : Nat} {e : NodeId × Frame} (longer : sent <+: sent')
    (found : sent[tag]? = some e) : sent'[tag]? = some e := by
  obtain ⟨rest, same⟩ := longer
  rw [← same, List.getElem?_append_left (List.getElem?_eq_some_iff.1 found).1, found]

theorem Replies.mono {tag : Nat} {message : Message} (replies : c.Replies tag message) (self : c'.self = c.self)
    (sent : c.sent <+: c'.sent) : c'.Replies tag message := by
  obtain ⟨request, reply, asked, answers, same⟩ := replies
  exact ⟨request, reply, sent_found sent asked, self ▸ answers, same⟩

theorem Since.refl (traced : c.Traced) (script : ∀ acts ∈ c.script, ∀ a ∈ acts, a.Honest) : Since c c where
  traced := traced
  self := rfl
  sent := List.prefix_rfl
  flight _ _ mem := Or.inl mem
  taken := ⟨[], by simp, by simp⟩
  script := script

/-! ## Steps of the storage nodes -/

/-- A node only takes requests from its connection and answers them. -/
structure Onward (asker : NodeIdentity) (peer peer' : Peer) : Prop where
  inbox : peer'.inbox ⊆ peer.inbox
  outbox : ∀ e ∈ peer'.outbox, e ∈ peer.outbox ∨ ∃ request, (e.1, request) ∈ peer.inbox ∧ Answers asker request e.2

theorem serve_onward (self : NodeIdentity) (outcomes : List Outcome) (peer : Peer) :
    Onward self peer (serve self outcomes peer) := by
  unfold serve
  split
  · exact ⟨fun _ mem => mem, fun e mem => Or.inl mem⟩
  · rename_i tag frame inbox here
    have tail : inbox ⊆ peer.inbox := fun e mem => here ▸ List.mem_cons_of_mem _ mem
    split
    · exact ⟨tail, fun e mem => Or.inl mem⟩
    · rename_i event read
      refine ⟨tail, fun e mem => ?_⟩
      rcases List.mem_append.1 mem with mem | mem
      · exact Or.inl mem
      · rw [List.mem_singleton.1 mem]
        exact Or.inr ⟨frame, here ▸ List.mem_cons_self, event, _, read, rfl⟩

variable {base : Cluster}

theorem Since.modify {node : NodeId} {f : Peer → Peer} (since : Since base c) (onward : ∀ peer, Onward c.self peer (f peer)) :
    Since base (c.modify node f) := by
  unfold Cluster.modify
  split
  · exact since
  rename_i peer found
  have traced := since.traced
  have step := onward peer
  refine ⟨⟨fun node' peer' found' e mem => ?_, fun node' peer' found' e mem => ?_, traced.queue⟩, since.self, since.sent,
    fun node' tag mem => ?_, since.taken, since.script⟩
  · rw [Assoc.lookup_insert_ite] at found'
    split at found'
    · rename_i here
      cases found'
      exact here ▸ traced.inbox node peer found e (step.inbox mem)
    · exact traced.inbox node' peer' found' e mem
  · rw [Assoc.lookup_insert_ite] at found'
    split at found'
    · rename_i here
      cases found'
      subst here
      rcases step.outbox e mem with mem | ⟨request, mem, answers⟩
      · exact traced.outbox _ peer found e mem
      · exact ⟨request, traced.inbox _ peer found _ mem, answers⟩
    · exact traced.outbox node' peer' found' e mem
  · refine since.flight node' tag (mem_inFlight.2 ?_)
    rcases mem_inFlight.1 mem with ⟨peer', found', frame, boxes⟩ | queued
    · rw [Assoc.lookup_insert_ite] at found'
      split at found'
      · rename_i here
        cases found'
        subst here
        refine Or.inl ⟨peer, found, ?_⟩
        rcases boxes with mem | mem
        · exact ⟨frame, Or.inl (step.inbox mem)⟩
        · rcases step.outbox _ mem with mem | ⟨request, mem, -⟩
          · exact ⟨frame, Or.inr mem⟩
          · exact ⟨request, Or.inl mem⟩
      · exact Or.inl ⟨peer', found', frame, boxes⟩
    · exact Or.inr queued

theorem Since.deliver {node : NodeId} (since : Since base c) : Since base (c.deliver node) := by
  unfold Cluster.deliver
  split
  · exact since
  rename_i peer found
  split
  · exact since
  rename_i tag frame outbox here
  have traced := since.traced
  have tail : ∀ e ∈ outbox, e ∈ peer.outbox := fun e mem => here ▸ List.mem_cons_of_mem _ mem
  obtain ⟨request, asked, answers⟩ := traced.outbox node peer found (tag, frame) (here ▸ List.mem_cons_self)
  refine ⟨⟨fun node' peer' found' e mem => ?_, fun node' peer' found' e mem => ?_, fun e mem => ?_⟩, since.self, since.sent,
    fun node' tag' mem => ?_, since.taken, since.script⟩
  · rw [Assoc.lookup_insert_ite] at found'
    split at found'
    · rename_i here'
      cases found'
      exact here' ▸ traced.inbox node peer found e mem
    · exact traced.inbox node' peer' found' e mem
  · rw [Assoc.lookup_insert_ite] at found'
    split at found'
    · rename_i here'
      cases found'
      exact here' ▸ traced.outbox node peer found e (tail e mem)
    · exact traced.outbox node' peer' found' e mem
  · rcases List.mem_append.1 mem with mem | mem
    · exact traced.queue e mem
    · rw [List.mem_singleton.1 mem]
      exact ⟨request, frame, asked, answers, rfl⟩
  · refine since.flight node' tag' (mem_inFlight.2 ?_)
    rcases mem_inFlight.1 mem with ⟨peer', found', frame', boxes⟩ | ⟨message, queued, sender⟩
    · rw [Assoc.lookup_insert_ite] at found'
      split at found'
      · rename_i here'
        cases found'
        exact Or.inl ⟨peer, here' ▸ found, frame', boxes.imp_right (tail _)⟩
      · exact Or.inl ⟨peer', found', frame', boxes⟩
    · rcases List.mem_append.1 queued with queued | queued
      · exact Or.inr ⟨message, queued, sender⟩
      · cases List.mem_singleton.1 queued
        exact Or.inl ⟨peer, sender ▸ found, frame, Or.inr (here ▸ List.mem_cons_self)⟩

theorem Since.act {a : Act} (since : Since base c) (honest : a.Honest) : Since base (c.act a) := by
  cases a with
  | serve node outcomes => exact since.modify fun peer => serve_onward c.self outcomes peer
  | deliver node => exact since.deliver
  | loseRequest node index =>
      exact since.modify fun peer => ⟨(List.eraseIdx_sublist _ _).subset, fun e mem => Or.inl mem⟩
  | loseReply node index =>
      exact since.modify fun peer => ⟨fun _ mem => mem, fun e mem => Or.inl ((List.eraseIdx_sublist _ _).subset mem)⟩
  | restart node => exact since.modify fun peer => ⟨fun _ mem => mem, fun e mem => Or.inl mem⟩
  | forge node frame => exact absurd honest id

theorem Since.acts {l : List Act} (since : Since base c) (honest : ∀ a ∈ l, a.Honest) : Since base (c.acts l) := by
  induction l generalizing c with
  | nil => exact since
  | cons a l ih =>
      exact ih (since.act (honest a List.mem_cons_self)) fun a' mem => honest a' (List.mem_cons_of_mem _ mem)

theorem Since.await (since : Since base c) : Since base c.await := by
  have now : ∀ a ∈ c.script.headD [], a.Honest := fun a mem => by
    cases script : c.script with
    | nil => simp [script] at mem
    | cons acts rest => exact since.script acts (by simp [script]) a (by simpa [script] using mem)
  have later : Since base { c with script := c.script.tail } :=
    ⟨⟨since.traced.inbox, since.traced.outbox, since.traced.queue⟩, since.self, since.sent, since.flight, since.taken,
      fun acts mem => since.script acts (List.mem_of_mem_tail mem)⟩
  exact later.acts now

/-! ## Steps of the metadata node -/

theorem Since.send {node : NodeId} {frame : Frame} (since : Since base c) : Since base (c.send node frame) := by
  have traced := since.traced
  have longer : c.sent <+: c.sent ++ [(node, frame)] := List.prefix_append _ _
  have taken : ∀ c' : Cluster, c'.self = c.self → c'.sent = c.sent ++ [(node, frame)] → c'.taken = c.taken →
      ∃ new, c'.taken = base.taken ++ new ∧ ∀ e ∈ new, base.sent.length ≤ e.1 ∧ c'.Replies e.1 e.2 :=
    fun c' self sent same => by
      obtain ⟨new, split, all⟩ := since.taken
      exact ⟨new, same.trans split, fun e mem => ⟨(all e mem).1, (all e mem).2.mono self (sent ▸ longer)⟩⟩
  have inbox : ∀ node' peer', c.peers.lookup node' = some peer' → ∀ e ∈ peer'.inbox,
      (c.sent ++ [(node, frame)])[e.1]? = some (node', e.2) := fun node' peer' found e mem =>
    sent_found longer (traced.inbox node' peer' found e mem)
  have outbox : ∀ node' peer', c.peers.lookup node' = some peer' → ∀ e ∈ peer'.outbox,
      ∃ request, (c.sent ++ [(node, frame)])[e.1]? = some (node', request) ∧ Answers c.self request e.2 :=
    fun node' peer' found e mem => by
      obtain ⟨request, asked, answers⟩ := traced.outbox node' peer' found e mem
      exact ⟨request, sent_found longer asked, answers⟩
  unfold Cluster.send
  split
  · exact ⟨⟨inbox, outbox, fun e mem => (traced.queue e mem).mono rfl longer⟩, since.self, since.sent.trans longer,
      since.flight, taken _ rfl rfl rfl, since.script⟩
  rename_i peer found
  refine ⟨⟨fun node' peer' found' e mem => ?_, fun node' peer' found' e mem => ?_,
    fun e mem => (traced.queue e mem).mono rfl longer⟩, since.self, since.sent.trans longer, fun node' tag mem => ?_,
    taken _ rfl rfl rfl, since.script⟩
  · rw [Assoc.lookup_insert_ite] at found'
    split at found'
    · rename_i here
      cases found'
      subst here
      rcases List.mem_append.1 mem with mem | mem
      · exact inbox _ peer found e mem
      · rw [List.mem_singleton.1 mem]
        simp
    · exact inbox node' peer' found' e mem
  · rw [Assoc.lookup_insert_ite] at found'
    split at found'
    · rename_i here
      cases found'
      exact here ▸ outbox node peer found e mem
    · exact outbox node' peer' found' e mem
  · rcases mem_inFlight.1 mem with ⟨peer', found', frame', boxes⟩ | queued
    · rw [Assoc.lookup_insert_ite] at found'
      split at found'
      · rename_i here
        cases found'
        subst here
        rcases boxes with mem | mem
        · rcases List.mem_append.1 mem with mem | mem
          · exact since.flight _ tag (mem_inFlight.2 (Or.inl ⟨peer, found, frame', Or.inl mem⟩))
          · cases List.mem_singleton.1 mem
            exact Or.inr since.sent.length_le
        · exact since.flight _ tag (mem_inFlight.2 (Or.inl ⟨peer, found, frame', Or.inr mem⟩))
      · exact since.flight node' tag (mem_inFlight.2 (Or.inl ⟨peer', found', frame', boxes⟩))
    · exact since.flight node' tag (mem_inFlight.2 (Or.inr queued))

/-- A message is taken that is known to answer a request from after `base`. -/
theorem Since.take {p : Message → Bool} (since : Since base c)
    (recent : ∀ tag message, (tag, message) ∈ c.queue → p message = true → base.sent.length ≤ tag) :
    Since base (c.take p).2 := by
  have traced := since.traced
  unfold Cluster.take popIf
  split
  · exact since
  rename_i tag message queue found
  obtain ⟨taken, rfl⟩ := Prod.mk.inj found
  have mem := List.mem_of_find?_eq_some taken
  have accepted : p message = true := List.find?_some (p := fun e : Nat × Message => p e.2) taken
  refine ⟨⟨traced.inbox, traced.outbox, fun e rest => traced.queue e (List.mem_of_mem_eraseP rest)⟩, since.self, since.sent,
    fun node tag' mem' => ?_, ?_, since.script⟩
  · refine since.flight node tag' (mem_inFlight.2 ((mem_inFlight.1 mem').imp_right ?_))
    rintro ⟨message', queued, sender⟩
    exact ⟨message', List.mem_of_mem_eraseP queued, sender⟩
  · obtain ⟨new, same, all⟩ := since.taken
    refine ⟨new ++ [(tag, message)], by rw [same, List.append_assoc], fun e mem' => ?_⟩
    rcases List.mem_append.1 mem' with mem' | mem'
    · exact all e mem'
    · rw [List.mem_singleton.1 mem']
      exact ⟨recent tag message mem accepted, traced.queue _ mem⟩

end Cluster

end Dfs
