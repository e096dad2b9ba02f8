import Dfs.Client.Link
import Dfs.Network.Delivery

/-!
# The link and the network of the metadata node

What `Link` has of the metadata node's network is the part of it that concerns one peer: every
handler sends to that peer, registers a connection for it, gives one up, or leaves the link alone.
-/

namespace Dfs

open Lib

namespace Link

variable {l : Link} {ends : ConnectionPtr → Nat} {s s' : NetworkState} {c : ConnectionPtr}

/-- The link is what the network has for the client. `ends` are the processes at the other end of the connections. -/
structure Follows (ends : ConnectionPtr → Nat) (s : NetworkState) (l : Link) : Prop where
  registered : l.registered = (s.connections.lookup l.client).map ends
  pendingFrames : l.pendingFrames.map (·.frame) = (s.pendingFrames.lookup l.client).getD []

/-- The frames are sent while `ask` is handled. -/
def sends (ask : Ask) (frames : List Frame) (l : Link) : Link := frames.foldl (fun l frame => l.send ⟨frame, ask⟩) l

theorem hand_eq (process : Nat) (replies : List Reply) (l : Link) :
    l.hand process replies = { l with written := (l.hand process replies).written } := by
  rw [hand]
  split <;> rfl

/-- What goes to a connection leaves the rest of the link alone. -/
theorem Follows.hand (follows : Follows ends s l) (process : Nat) (replies : List Reply) :
    Follows ends s (l.hand process replies) := by
  rw [hand_eq]
  exact ⟨follows.registered, follows.pendingFrames⟩

theorem Follows.of_same (follows : Follows ends s l) (connections : s'.connections.lookup l.client = s.connections.lookup l.client)
    (pending : s'.pendingFrames.lookup l.client = s.pendingFrames.lookup l.client) : Follows ends s' l :=
  ⟨follows.registered.trans (congrArg _ connections.symm), follows.pendingFrames.trans (congrArg (·.getD []) pending.symm)⟩

/-- A frame for a peer that is connected goes to its connection. -/
theorem Follows.passed (follows : Follows ends s l) (found : s.connections.lookup l.client = some c) (reply : Reply) :
    Follows ends s (l.send reply) := by
  have registered : l.registered = some (ends c) := follows.registered.trans (congrArg _ found)
  rw [send, registered]
  exact follows.hand (ends c) [reply]

theorem Follows.queued (follows : Follows ends s l) (absent : s.connections.lookup l.client = none) (reply : Reply) :
    Follows ends
      { s with
        pendingFrames := s.pendingFrames.insert l.client ((s.pendingFrames.lookup l.client).getD [] ++ [reply.frame]) }
      (l.send reply) := by
  have registered : l.registered = none := follows.registered.trans (congrArg _ absent)
  rw [send]
  split
  · refine ⟨follows.registered, ?_⟩
    rw [List.map_append, follows.pendingFrames, AList.lookup_insert]
    rfl
  · rename_i connected
    cases registered.symm.trans connected

/-- Where a connection is given up, it is the one that is registered for the client, or another one. -/
theorem Follows.fails (follows : Follows ends s l) (fails : NetworkState.Fails c s s') :
    ∃ as, Follows ends s' (l.acts as) := by
  have pending : s'.pendingFrames.lookup l.client = s.pendingFrames.lookup l.client := by rw [fails.pendingFrames]
  have lookup := fails.lookup l.client
  split at lookup
  · refine ⟨[.fail], ?_, ?_⟩
    · show none = (s'.connections.lookup l.client).map ends
      rw [lookup]
      rfl
    · show l.pendingFrames.map (·.frame) = (s'.pendingFrames.lookup l.client).getD []
      rw [pending, follows.pendingFrames]
  · exact ⟨[], follows.of_same lookup pending⟩

theorem Follows.registers {remote : NodeIdentity} (follows : Follows ends s l) (started : ends c ≤ l.process)
    (registers : NetworkState.Registers c remote s s') : ∃ as, Follows ends s' (l.acts as) := by
  have pending := registers.pendingFrames l.client
  have connections : s'.connections.lookup l.client = if l.client = remote.id then some c else s.connections.lookup l.client := by
    rw [registers.connections, Assoc.lookup_insert_ite]
  by_cases named : l.client = remote.id
  · rw [if_pos named] at pending connections
    refine ⟨[.register (ends c)], ?_⟩
    show Follows ends s' (if ends c ≤ l.process then l.register (ends c) else l)
    rw [if_pos started, register]
    have handed : Follows ends s' { l with registered := some (ends c), pendingFrames := [] } := by
      refine ⟨?_, ?_⟩
      · show some (ends c) = (s'.connections.lookup l.client).map ends
        rw [connections]
        rfl
      · show [] = (s'.pendingFrames.lookup l.client).getD []
        rw [pending]
        rfl
    exact handed.hand (ends c) l.pendingFrames
  · rw [if_neg named] at pending connections
    exact ⟨[], follows.of_same connections pending⟩

/-- Every handler of the network is matched by what the link does: the frames it sends to the client, and what
happens to the client's connection. -/
theorem Follows.step {event : NetworkEvent} (sound : s.Sound) (follows : Follows ends s l) (started : ∀ c, ends c ≤ l.process)
    (h : s.step event = .ok s') (ask : Ask) :
    ∃ as, Follows ends s' ((l.sends ask (NetworkState.sentNow l.client s event)).acts as) := by
  have still : Follows ends s' l → NetworkState.sentNow l.client s event = [] →
      ∃ as, Follows ends s' ((l.sends ask (NetworkState.sentNow l.client s event)).acts as) := by
    intro same nothing
    rw [nothing]
    exact ⟨[], same⟩
  have moved : (∃ as, Follows ends s' (l.acts as)) → NetworkState.sentNow l.client s event = [] →
      ∃ as, Follows ends s' ((l.sends ask (NetworkState.sentNow l.client s event)).acts as) := by
    intro moves nothing
    rw [nothing]
    exact moves
  cases NetworkState.step_handles h with
  | @queue id frame absent =>
      by_cases same : id = l.client
      · subst same
        refine ⟨[], ?_⟩
        rw [NetworkState.sentNow, if_pos rfl]
        exact follows.queued absent ⟨frame, ask⟩
      · refine still (follows.of_same rfl ?_) (if_neg same)
        exact AList.lookup_insert_ne (Ne.symm same)
  | @send id frame c found =>
      have puts := @NetworkState.enqueueWrite_puts s c frame
      have connections : (s.enqueueWrite c frame).connections.lookup l.client = s.connections.lookup l.client := by
        rw [puts.connections]
      have pending : (s.enqueueWrite c frame).pendingFrames.lookup l.client = s.pendingFrames.lookup l.client := by
        rw [puts.pendingFrames]
      by_cases same : id = l.client
      · subst same
        refine ⟨[], ?_⟩
        rw [NetworkState.sentNow, if_pos rfl]
        exact (follows.of_same connections pending).passed (connections.trans found) ⟨frame, ask⟩
      · exact still (follows.of_same connections pending) (if_neg same)
  | @broadcast role frame =>
      have same := @NetworkState.handleBroadcast_same s role frame
      have connections : (s.handleBroadcast role frame).connections.lookup l.client = s.connections.lookup l.client := by rw [same]
      have pending : (s.handleBroadcast role frame).pendingFrames.lookup l.client = s.pendingFrames.lookup l.client := by rw [same]
      have follows' := follows.of_same connections pending
      rw [NetworkState.sentNow]
      split
      · exact ⟨[], follows'⟩
      rename_i c found
      split
      · exact ⟨[], follows'.passed (connections.trans found) ⟨frame, ask⟩⟩
      · exact ⟨[], follows'⟩
  | @retry event op endpoint c mem waits none completed =>
      refine moved ?_ (NetworkState.sentNow_completes completed)
      obtain ⟨as, follows'⟩ := (show Follows ends (s.complete op) l from ⟨follows.registered, follows.pendingFrames⟩).fails
        (NetworkState.failConnection_fails (c := c))
      exact ⟨as, follows'.registered, follows'.pendingFrames⟩
  | @failed event op c mem here gives none first completed =>
      refine moved ?_ (NetworkState.sentNow_completes completed)
      exact (show Follows ends (s.complete op) l from ⟨follows.registered, follows.pendingFrames⟩).fails NetworkState.failConnection_fails
  | @registered c frame remote mem accepted =>
      refine moved ?_ rfl
      exact (show Follows ends (s.complete (.readHello c)) l from ⟨follows.registered, follows.pendingFrames⟩).registers (started c)
        (sound.registers mem remote).2
  | @connected endpoint c mem =>
      obtain ⟨encoded, result⟩ := NetworkState.handshake_cases c (s.complete (.connect endpoint c))
      exact still (follows.of_same (by rw [result]; rfl) (by rw [result]; rfl)) rfl
  | accepted mem =>
      obtain ⟨encoded, result⟩ := NetworkState.handshake_cases s.next
        (((s.complete .accept).begin .accept).makeConnection { origin := .incoming })
      exact still (follows.of_same (by rw [result]; rfl) (by rw [result]; rfl)) rfl
  | read mem proper =>
      have reading := sound.reading mem
      exact still (follows.of_same (by rw [reading]; rfl) (by rw [reading]; rfl)) rfl
  | @written c encoded error mem =>
      have taken : Follows ends (s.complete (.write c encoded)) l := ⟨follows.registered, follows.pendingFrames⟩
      cases error with
      | true => exact moved (taken.fails (NetworkState.handleWritten_fails sound)) rfl
      | false =>
          refine still ?_ rfl
          rw [NetworkState.handleWritten]
          split
          · exact taken
          · rw [if_neg Bool.false_ne_true]
            have puts := @NetworkState.writeNext_puts (s.complete (.write c encoded)) c
            exact taken.of_same (by rw [puts.connections]) (by rw [puts.pendingFrames])
  | _ => exact still (follows.of_same rfl rfl) rfl

end Link

end Dfs
