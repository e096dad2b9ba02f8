import Dfs.Client.Versions

/-!
# One call among others

While a client waits for an answer the metadata node handles whatever else there is. What its own request has made of the
system lasts until the client has the answer, provided that the steps in between let it.
-/

namespace Dfs

open Lib

/-- No request of the client with the id. -/
def SystemEvent.Foreign (client : NodeId) (id : UInt64) : SystemEvent → Prop
  | .request event _ _ => event.context.sender.id ≠ client ∨ event.context.requestId ≠ id
  | _ => True

instance (client : NodeId) (id : UInt64) (e : SystemEvent) : Decidable (e.Foreign client id) :=
  match e with
  | .request _ _ _ => inferInstanceAs (Decidable (_ ∨ _))
  | .storage _ | .heartbeat _ _ | .checkTimeouts _ => .isTrue trivial

/-- The system with other answers under way. -/
def System.answering (s : System) (answers : List (NodeId × Frame)) : System :=
  { s with network := { s.network with answers } }

/-- `P` outlasts the steps that satisfy `R`, and answers are no part of it. -/
structure Enduring (client : NodeId) (id : UInt64) (R : System → SystemEvent → Prop) (P : System → Prop) : Prop where
  step : ∀ {s s' : System} {e : SystemEvent}, P s → R s e → e.Foreign client id → s.next e = .ok s' → P s'
  answers : ∀ {s : System} (answers : List (NodeId × Frame)), P s → P (s.answering answers)

/-- A request, the filter for its answer, and what it makes of the system when the answer `grants` it. -/
structure Inquiry where
  key : RequestKey
  request : Frame
  node : NodeId
  body : BinaryReader → Except Exn Bool
  before : System → Prop
  after : System → Prop
  grants : Frame → Prop
  /-- Of the step that handles the request, and of the others before and after it. -/
  own : System → SystemEvent → Prop
  prior : System → SystemEvent → Prop
  later : System → SystemEvent → Prop

namespace Inquiry

variable {client : NodeId} {q : Inquiry} {n : Service}

def filter (q : Inquiry) : Message → Bool := Rpc.makeMessageIs q.key.requestId q.key.job .response q.node q.body

structure Proper (client : NodeId) (q : Inquiry) : Prop where
  made : q.key.In .request q.request
  chunk : ∀ i, q.key.chunkIndex = some i → q.body = Rpc.matchChunk i
  before : Enduring client q.key.requestId q.prior q.before
  after : Enduring client q.key.requestId q.later q.after
  handled : ∀ {s s' s₁ : System} {event : ClientEvent} {env : Env} {script : List (List Act)} {status : ClientStatus}
    {frame : Frame}, NodeJob.of (q.request.from ⟨client, .client⟩) = .ok (some (.client event)) → q.before s →
    q.own s (.request event env script) → s.next (.request event env script) = .ok s' →
    MetadataState.Handled env (s.prepared env script) event status s₁ → Responds event status frame → q.grants frame →
    q.after s'

end Inquiry

namespace Service

open Dfs.System MetadataState

variable {n n' : Service} {client : NodeId} {id : UInt64} {q : Inquiry} {used : List RequestKey} {a : ServiceAct}
  {P : System → Prop} {frame : Frame} {e : SystemEvent}

/-- The step of the system that is due. -/
def event (n : Service) (a : ServiceAct) : Option SystemEvent :=
  if n.ended then none
  else match a with
    | .handle i env script => (n.requested i).map fun event => .request event env script
    | .other event => if event.requester = some n.client then none else some event
    | _ => none

/-- The step is as the call needs it. -/
def Suits (q : Inquiry) (n : Service) (a : ServiceAct) : Prop :=
  ∀ e, n.event a = some e →
    if e.Foreign n.client q.key.requestId then
      if n.waiting q.key.requestId = [] then q.later n.system e else q.prior n.system e
    else q.own n.system e

instance (q : Inquiry) [∀ s e, Decidable (q.own s e)] [∀ s e, Decidable (q.prior s e)] [∀ s e, Decidable (q.later s e)]
    (n : Service) (a : ServiceAct) : Decidable (n.Suits q a) :=
  decidable_of_iff (((n.event a).all fun e => decide (if e.Foreign n.client q.key.requestId then
      if n.waiting q.key.requestId = [] then q.later n.system e else q.prior n.system e
    else q.own n.system e)) = true) (by
      simp only [Suits, Option.all_eq_true, decide_eq_true_eq])

/-- What a step comes to for the requests with the id. -/
inductive Moves (id : UInt64) (n : Service) (due : Option SystemEvent) (n' : Service) : Prop where
  | still (aside : Aside id n n') (answers : List (NodeId × Frame)) (same : n'.system = n.system.answering answers)
  | other (e : SystemEvent) (here : due = some e) (foreign : e.Foreign n.client id) (aside : Aside id n n')
      (stepped : n.system.next e = .ok n'.system)
  | lost (i : Nat) (frame : Frame) (found : n.requests[i]? = some frame) (concerned : concerns n.client id frame = true)
      (same : n' = { n with requests := n.requests.eraseIdx i, ended := true })
  | handled (i : Nat) (frame : Frame) (event : ClientEvent) (env : Env) (script : List (List Act)) (system : System)
      (here : due = some (.request event env script)) (found : n.requests[i]? = some frame)
      (concerned : concerns n.client id frame = true)
      (decoded : NodeJob.of (frame.from ⟨n.client, .client⟩) = .ok (some (.client event)))
      (own : event.context.requestId = id) (stepped : n.system.next (.request event env script) = .ok system)
      (same : n' = { n with requests := n.requests.eraseIdx i, system })

theorem Moves.ended (due : Option SystemEvent) : Moves id n due { n with ended := true } :=
  .still (.of_around rfl rfl rfl rfl fun _ there => there) n.system.network.answers rfl

theorem requested_of {i : Nat} {event : ClientEvent} (found : n.requests[i]? = some frame)
    (decoded : NodeJob.of (frame.from ⟨n.client, .client⟩) = .ok (some (.client event))) : n.requested i = some event := by
  rw [requested, found, Option.bind_some, decoded]

theorem act_moves (id : UInt64) (a : ServiceAct) (n : Service) : Moves id n (n.event a) (n.act a) := by
  cases a with
  | loseAnswer i => exact .still (.dropAnswer i) _ rfl
  | arrive i =>
      refine .still (.arrive i) (n.arrive i).system.network.answers ?_
      simp only [act, Service.arrive]
      split
      · rfl
      · split <;> rfl
  | other e =>
      by_cases idle : n.ended = true ∨ e.requester = some n.client
      · rw [act, if_pos idle]
        exact .still .refl n.system.network.answers rfl
      · obtain ⟨running, foreign⟩ := not_or.1 idle
        rw [act, if_neg idle, Service.event, if_neg running, if_neg foreign, step]
        split
        · exact .ended _
        · rename_i system stepped
          refine .other e rfl ?_ (.other foreign stepped) stepped
          cases e with
          | request event env script => exact .inl fun same => foreign (congrArg some same)
          | _ => trivial
  | handle i env script =>
      by_cases running : n.ended = true
      · rw [act, if_pos running]
        exact .still .refl n.system.network.answers rfl
      rw [act, if_neg running, Service.handle, Service.event, if_neg running]
      split
      · exact .still .refl n.system.network.answers rfl
      rename_i frame found
      let rest : Service := { n with requests := n.requests.eraseIdx i }
      have taken : concerns n.client id frame = false → Aside id n rest := fun foreign =>
        ⟨rfl, rfl, filter_eraseIdx_other found foreign, rfl, fun _ => .inl⟩
      dsimp only
      split
      · rename_i decoded
        exact .lost i frame found (by rw [concerns, decoded]) rfl
      · rename_i event decoded
        rw [requested_of found decoded, Option.map_some, step]
        have concerned : concerns n.client id frame = decide (event.context.requestId = id) := concerns_event decoded
        by_cases here : event.context.requestId = id
        · rw [decide_eq_true here] at concerned
          split
          · exact .lost i frame found concerned rfl
          · rename_i system stepped
            exact .handled i frame event env script system rfl found concerned decoded here stepped rfl
        · rw [decide_eq_false here] at concerned
          split
          · have ended : Aside id rest { rest with ended := true } := .of_around rfl rfl rfl rfl fun _ there => there
            exact .still ((taken concerned).trans ended) n.system.network.answers rfl
          · rename_i system stepped
            have handled : Aside id rest { rest with system } := .handled (.inr here) stepped
            exact .other _ rfl (.inr here) ((taken concerned).trans handled) stepped
      · rename_i job decoded ok
        refine .still (taken ?_) n.system.network.answers rfl
        rw [concerns, ok]
        split <;> simp_all

/-- The client's call has neither a request nor an answer under way. -/
structure Resting (client : NodeId) (id : UInt64) (used : List RequestKey) (P : System → Prop) (n : Service) : Prop where
  client : n.client = client
  waiting : n.waiting id = []
  answers : Answers id used n fun _ => False
  holds : P n.system

/-- The request has been sent: it waits, has been answered, or has been lost with the metadata node. -/
inductive Pending (client : NodeId) (q : Inquiry) (used : List RequestKey) (n : Service) : Prop where
  | waiting (client : n.client = client) (one : n.waiting q.key.requestId = [q.request]) (before : q.before n.system)
      (answers : Answers q.key.requestId used n fun _ => False)
  | answered (client : n.client = client) (none : n.waiting q.key.requestId = []) (frame : Frame)
      (made : q.key.In .response frame) (after : q.grants frame → q.after n.system)
      (answers : Answers q.key.requestId used n (· = frame))
  | lost (client : n.client = client) (none : n.waiting q.key.requestId = [])
      (answers : Answers q.key.requestId used n fun _ => False)

theorem Pending.aside (pending : n.Pending client q used) (aside : Aside q.key.requestId n n')
    (before : n.waiting q.key.requestId ≠ [] → q.before n.system → q.before n'.system)
    (after : n.waiting q.key.requestId = [] → q.after n.system → q.after n'.system) : n'.Pending client q used := by
  cases pending with
  | waiting here one holds answers =>
      exact .waiting (aside.client.trans here) (aside.waiting.trans one) (before (by rw [one]; exact List.cons_ne_nil _ _) holds)
        (answers.aside aside)
  | answered here none frame made holds answers =>
      exact .answered (aside.client.trans here) (aside.waiting.trans none) frame made (fun granted => after none (holds granted))
        (answers.aside aside)
  | lost here none answers => exact .lost (aside.client.trans here) (aside.waiting.trans none) (answers.aside aside)

/-- A request that concerns the id is the one that waits. -/
theorem Pending.taken {i : Nat} (pending : n.Pending client q used) (found : n.requests[i]? = some frame)
    (concerned : concerns n.client q.key.requestId frame = true) :
    frame = q.request ∧ (n.requests.eraseIdx i).filter (concerns n.client q.key.requestId) = [] ∧ n.client = client ∧
      q.before n.system ∧ Answers q.key.requestId used n fun _ => False := by
  have there : frame ∈ n.waiting q.key.requestId := List.mem_filter.2 ⟨List.mem_of_getElem? found, concerned⟩
  cases pending with
  | waiting here one before answers =>
      obtain ⟨same, none⟩ := filter_eraseIdx_only found concerned one
      exact ⟨same, none, here, before, answers⟩
  | answered here none frame' made after answers =>
      rw [none] at there
      cases there
  | lost here none answers =>
      rw [none] at there
      cases there

theorem Pending.act (proper : q.Proper client) (suits : n.Suits q a) (pending : n.Pending client q used) :
    (n.act a).Pending client q used := by
  have here : n.client = client := by cases pending <;> assumption
  cases act_moves q.key.requestId a n with
  | still aside answers same =>
      exact pending.aside aside (fun _ before => same ▸ proper.before.answers answers before)
        fun _ after => same ▸ proper.after.answers answers after
  | other e due foreign aside stepped =>
      have suited := suits e due
      rw [if_pos foreign] at suited
      refine pending.aside aside (fun some before => ?_) fun none after => ?_
      · rw [if_neg some] at suited
        exact proper.before.step before suited (here ▸ foreign) stepped
      · rw [if_pos none] at suited
        exact proper.after.step after suited (here ▸ foreign) stepped
  | lost i frame found concerned same =>
      obtain ⟨-, none, -, -, answers⟩ := pending.taken found concerned
      rw [same]
      exact .lost here none answers
  | handled i frame event env script system due found concerned decoded own stepped same =>
      obtain ⟨rfl, none, -, before, answers⟩ := pending.taken found concerned
      have sender : event.context.sender.id = n.client := congrArg NodeIdentity.id (NodeJob.event_sender decoded)
      have suited := suits _ due
      rw [if_neg (show ¬ SystemEvent.Foreign n.client q.key.requestId (.request event env script) from
        not_or.2 ⟨not_not.2 sender, not_not.2 own⟩)] at suited
      obtain ⟨status, frame, s₁, handled, responds, sent⟩ := handle_handled (next_request stepped)
      obtain ⟨self, frames⟩ := System.handled_answers handled event.context.sender.id
      have key : event.key = q.key := proper.made.read (NodeJob.of_event decoded)
      rw [same]
      refine .answered here none frame (key ▸ RequestKey.of_responds responds)
        (proper.handled (here ▸ decoded) before suited stepped handled responds) fun other there => ?_
      change Unrelated _ system.network.self other ∨ _
      rw [sent, self]
      rcases there with queued | under
      · exact (answers other (.inl queued)).imp_right (.imp_right nofun)
      · rw [sent] at under
        rcases frames _ under with old | foreign | answer
        · exact (answers other (.inr old)).imp_right (.imp_right nofun)
        · exact .inl (unrelated_of_type foreign)
        · exact .inr (.inr (Prod.mk.inj answer).2)

theorem Pending.acts {l : List ServiceAct} (proper : q.Proper client) (pending : n.Pending client q used)
    (along : Along (fun n a => (.ok (n.act a) : Except Exn Service)) (Suits q) n l) : (n.acts l).Pending client q used := by
  induction l generalizing n with
  | nil => exact pending
  | cons a l ih => exact ih (pending.act proper along.1) (along.2 _ rfl)

/-- What the filter of the call takes is no answer to an earlier request. -/
theorem Answers.accepted {allowed : Frame → Prop} {sender : NodeIdentity} (proper : q.Proper client) (new : q.key ∉ used)
    (answers : Answers q.key.requestId used n allowed) (there : n.Around frame) (self : n.system.network.self = sender)
    (accepted : q.filter (frame.from sender) = true) : allowed frame := by
  rcases answers frame there with foreign | ⟨key, mem, made⟩ | here
  · rw [Inquiry.filter, ← self, foreign q.key.job q.node q.body] at accepted
    cases accepted
  · have same : key = q.key := (Client.selects proper.made proper.chunk _ accepted).2 key frame _ rfl made
    exact absurd (same ▸ mem) new
  · exact here

/-- What the client gets is the answer, and where that grants the request its effect has lasted. -/
theorem Pending.take {m : Message} (proper : q.Proper client) (new : q.key ∉ used) (pending : n.Pending client q used)
    (got : (n.take q.filter).1 = some m) :
    ∃ frame, m = frame.from n.system.network.self ∧ q.key.In .response frame ∧
      (q.grants frame → (n.take q.filter).2.Resting client q.key.requestId (q.key :: used) q.after) := by
  obtain ⟨frame, there, rfl⟩ := take_around got
  have accepted : q.filter (frame.from n.system.network.self) = true := take_accepts got
  have aside : Aside q.key.requestId n (n.take q.filter).2 := .take _
  cases pending with
  | waiting here one before answers => exact (answers.accepted proper new there rfl accepted).elim
  | lost here none answers => exact (answers.accepted proper new there rfl accepted).elim
  | answered here none frame' made after answers =>
      cases answers.accepted proper new there rfl accepted
      refine ⟨frame, rfl, made, fun granted => ⟨aside.client.trans here, aside.waiting.trans none, ?_, ?_⟩⟩
      · refine Answers.aside (fun other around => ?_) aside
        rcases answers other around with foreign | ⟨key, mem, made'⟩ | rfl
        · exact .inl foreign
        · exact .inr (.inl ⟨key, List.mem_cons_of_mem _ mem, made'⟩)
        · exact .inr (.inl ⟨q.key, List.mem_cons_self, made⟩)
      · have same : (n.take q.filter).2.system = n.system := by
          unfold Service.take
          split <;> rfl
        exact same ▸ after granted

/-- Every step suits the call from when the client sends its request until it stops waiting for the answer. -/
def Accommodates (q : Inquiry) (n : Service) : Prop :=
  Along (fun n a => (.ok (n.act a) : Except Exn Service)) (Suits q) { n.send q.request with script := n.script.tail }
    (n.script.headD [])

instance (q : Inquiry) [∀ s e, Decidable (q.own s e)] [∀ s e, Decidable (q.prior s e)] [∀ s e, Decidable (q.later s e)]
    (n : Service) : Decidable (n.Accommodates q) := inferInstanceAs (Decidable (Along _ _ _ _))

/-- It is enough to know of the client's own request that `own` holds. -/
theorem Accommodates.of_own {own : System → SystemEvent → Prop} (imp : ∀ s e, own s e → q.own s e)
    (accommodates : n.Accommodates { q with own }) : n.Accommodates q :=
  Along.mono (fun n a suits e due => by
    have suited := suits e due
    split at suited
    · rename_i foreign
      rw [if_pos foreign]
      exact suited
    · rename_i own
      rw [if_neg own]
      exact imp _ _ suited) accommodates

/-- A request and the wait for its answer. -/
theorem Resting.receives (metadata : NodeId) (seconds : Nat) {m : Message} (proper : q.Proper client) (new : q.key ∉ used)
    (resting : n.Resting client q.key.requestId used q.before) (accommodates : n.Accommodates q)
    (got : (Network.receiveIf seconds q.filter (Network.send metadata q.request n)).1 = some m) :
    ∃ frame sender, m = frame.from sender ∧ q.key.In .response frame ∧ (q.grants frame →
      Resting client q.key.requestId (q.key :: used) q.after
        (Network.receiveIf seconds q.filter (Network.send metadata q.request n)).2) := by
  have one : (n.send q.request).waiting q.key.requestId = [q.request] := by
    have none := resting.waiting
    rw [Service.waiting] at none ⊢
    change List.filter _ (n.requests ++ [q.request]) = _
    rw [List.filter_append, show (n.send q.request).client = n.client from rfl, none,
      List.filter_cons_of_pos (concerns_request proper.made)]
    rfl
  have sent : Pending client q used { n.send q.request with script := n.script.tail } :=
    .waiting resting.client one resting.holds fun frame there => resting.answers frame there
  have waited : (n.send q.request).await.Pending client q used := sent.acts proper accommodates
  obtain ⟨frame, from_, made, after⟩ := waited.take proper new got
  exact ⟨frame, _, from_, made, after⟩

end Service

end Dfs
