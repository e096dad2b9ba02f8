import Dfs.Network.Table

/-!
# Who sends the messages in the queue

A message is queued by the handler of a read, under the identity that the connection got in
its handshake. The network checks nothing else about it: the type of a message is compared
with the role of its sender nowhere.
-/

namespace Dfs

open Lib

/-- A connection does not change its peer. -/
theorem Table.Step.knows {role : NodeRole} {t t' : Table} {registers : Option (ConnectionPtr × NodeIdentity)}
    {c : ConnectionPtr} {remote : NodeIdentity} (step : Table.Step role t registers t') (below : c < t.next)
    (known : t.remote c = some remote) : c < t'.next ∧ t'.remote c = some remote := by
  cases step with
  | idle => exact ⟨below, known⟩
  | make expected =>
      have other : c ≠ t.next := fun same => Nat.lt_irrefl _ (same ▸ below)
      exact ⟨Nat.lt_succ_of_lt below, (Function.update_of_ne other ..).trans known⟩
  | fail c' => exact ⟨below, known⟩
  | @register c' remote' below' unset opened admits =>
      have other : c ≠ c' := fun same => by
        rw [same, unset] at known
        cases known
      exact ⟨below, (Function.update_of_ne other ..).trans known⟩

namespace NetworkState

variable {s s' : NetworkState} {c : ConnectionPtr} {event : NetworkEvent} {remote : NodeIdentity}

/-- A connection has come through a handshake with `remote`. -/
def Peer (s : NetworkState) (remote : NodeIdentity) : Prop := ∃ c < s.next, (s.heap c).remote = some remote

instance (remote : NodeIdentity) : Decidable (s.Peer remote) :=
  inferInstanceAs (Decidable (∃ c, c < s.next ∧ (s.heap c).remote = some remote))

theorem step_peer (sound : s.Sound) (h : s.step event = .ok s') (peer : s.Peer remote) : s'.Peer remote := by
  obtain ⟨c, below, known⟩ := peer
  exact ⟨c, (step_table sound h).knows below known⟩

/-- The role of a peer is one that the node may be connected with. -/
theorem Reached.allowed {self : Endpoint} (reached : Reached self s) (peer : s.Peer remote) :
    canConnectWithRole self.role remote.role = true := by
  obtain ⟨c, below, known⟩ := peer
  exact (reached.good.admitted c below remote known).allowed

/-! ## The message queue -/

theorem Puts.messages {frames : List Frame} (puts : Puts c frames s s') : s'.messageQueue = s.messageQueue := by
  rw [puts.same]

theorem handshake_messages : (s.handshake c).messageQueue = s.messageQueue := by
  obtain ⟨encoded, result⟩ := handshake_cases c s
  rw [result]
  rfl

theorem failConnection_messages : (s.failConnection c).messageQueue = s.messageQueue := by
  have close : (s.close c).messageQueue = s.messageQueue := by
    rw [NetworkState.close]
    split <;> rfl
  rw [failConnection, ← close]
  dsimp only
  split
  · rfl
  · split <;> rfl

theorem startReading_messages : (s.startReading c).messageQueue = s.messageQueue := by
  rw [startReading]
  split
  · exact failConnection_messages
  · rfl

theorem registerConnection_messages : (s.registerConnection c remote).messageQueue = s.messageQueue := by
  have flushed : ((s.registered c remote).flush c remote.id).messageQueue = s.messageQueue := by
    rw [flush]
    split
    · rfl
    · exact (enqueueAll_puts _).messages
  exact startReading_messages.trans flushed

theorem handleBroadcast_messages {role : NodeRole} {frame : Frame} :
    (s.handleBroadcast role frame).messageQueue = s.messageQueue := by
  rw [handleBroadcast_same]

theorem handleWritten_messages {error : Bool} : (s.handleWritten c error).messageQueue = s.messageQueue := by
  rw [handleWritten]
  split
  · rfl
  split
  · exact failConnection_messages
  · exact writeNext_puts.messages

/-- The message that the handler queues. -/
def arrival : NetworkEvent → Option Message
  | .frameRead _ remote (some frame) => if frame.header.type = .hello then none else some (frame.from remote)
  | _ => none

theorem Handles.messages (handles : Handles s event s') (nothing : arrival event = none) :
    s'.messageQueue = s.messageQueue := by
  cases handles with
  | send found => exact enqueueWrite_puts.messages
  | broadcast => exact handleBroadcast_messages
  | retry mem waits none completes => exact failConnection_messages
  | connected mem => exact handshake_messages
  | accepted mem => exact handshake_messages
  | failed mem here gives none first completes => exact failConnection_messages
  | registered mem accepted => exact registerConnection_messages
  | read mem proper =>
      rw [arrival, if_neg proper] at nothing
      cases nothing
  | written mem => exact handleWritten_messages
  | _ => rfl

/-- What is queued comes from the peer of the connection it was read from. -/
theorem step_messages (sound : s.Sound) (h : s.step event = .ok s') :
    s'.messageQueue = s.messageQueue ++ (arrival event).toList ∧ ∀ m ∈ arrival event, s.Peer m.sender := by
  cases arrived : arrival event with
  | none => exact ⟨((step_handles h).messages arrived).trans (List.append_nil _).symm, nofun⟩
  | some m =>
      unfold arrival at arrived
      split at arrived
      · rename_i c remote frame
        split at arrived
        · cases arrived
        rename_i proper
        cases arrived
        obtain ⟨mem, h⟩ := finish_bind h
        rw [handleFrame, if_neg proper] at h
        cases h
        refine ⟨startReading_messages, fun m queued => ?_⟩
        cases queued
        exact ⟨c, sound.allocated mem rfl, sound.reads mem⟩
      · cases arrived

end NetworkState

end Dfs
