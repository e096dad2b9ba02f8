import Dfs.Network.FrameIO
import Dfs.Lib.Assoc
import Dfs.Lib.Run
import Mathlib.Logic.Function.Basic

/-!
# The connections of a node (`Network.tpp`, `Connection.hpp`)

Everything here runs in handlers on the one network thread. A handler starts asynchronous
operations and returns; `ops` are the operations that have not completed yet, each with what
its own handler has captured. An event is the completion of one of them with some result, or
a handler that `send` or `broadcast` has posted.
-/

namespace Dfs

open Lib

structure Endpoint where
  nodeId : NodeId
  role : NodeRole
  host : Bytes
  port : UInt16
  deriving DecidableEq

def Endpoint.identity (endpoint : Endpoint) : NodeIdentity := ⟨endpoint.nodeId, endpoint.role⟩

def roleBit (role : NodeRole) : UInt8 := .ofNat (2 ^ (WireEnum.toByte role).toNat)

def peerRoles : NodeRole → UInt8
  | .metadata => roleBit .metadata ||| roleBit .storage ||| roleBit .client
  | .storage => roleBit .metadata
  | .client => roleBit .metadata
  | .other _ _ => 0

/-- Objects made by `make_shared<Connection>`, numbered in the order they are made. -/
abbrev ConnectionPtr := Nat

inductive ConnectionOrigin where
  | incoming
  | outgoing
  deriving DecidableEq

structure Connection where
  origin : ConnectionOrigin
  remote : Option NodeIdentity := none
  expectedRemote : Option NodeIdentity := none
  writeQueue : List Frame := []
  writeInProgress : Bool := false
  closed : Bool := false
  /-- All bytes that were passed to `async_write` for the socket. -/
  handed : Bytes := []
  deriving DecidableEq

/-- Asynchronous operations; `encoded` is `false` where no bytes went to the socket and the
handler was posted with an error instead. -/
inductive Op where
  | resolve (endpoint : Endpoint) (connection : ConnectionPtr)
  | connect (endpoint : Endpoint) (connection : ConnectionPtr)
  | accept
  | writeHello (connection : ConnectionPtr) (encoded : Bool)
  | readHello (connection : ConnectionPtr)
  | read (connection : ConnectionPtr) (remote : NodeIdentity)
  | write (connection : ConnectionPtr) (encoded : Bool)
  | reconnect (endpoint : Endpoint)
  deriving DecidableEq

structure NetworkState where
  self : Endpoint
  heap : ConnectionPtr → Connection
  /-- The next object `make_shared` makes. -/
  next : ConnectionPtr
  connections : Assoc NodeId ConnectionPtr
  pendingConnections : List ConnectionPtr
  /-- Frames passed to `send` before there was a connection to their node. -/
  pendingFrames : Assoc NodeId (List Frame)
  messageQueue : List Message
  ops : List Op

def canConnectWithRole (selfRole role : NodeRole) : Bool := peerRoles selfRole &&& roleBit role ≠ 0

def shouldConnect (self endpoint : Endpoint) : Bool :=
  canConnectWithRole self.role endpoint.role && self.nodeId < endpoint.nodeId

/-! ## The handshake frames -/

def helloFrame (self : Endpoint) : Frame :=
  let hasEndpoint : UInt8 := if self.host ≠ [] ∧ self.port ≠ 0 then 1 else 0
  let buffer := write self.role ++ (write self.nodeId ++ (write hasEndpoint ++
    if hasEndpoint ≠ 0 then write self.host ++ write self.port else []))
  { header := { magic := headerMagic, length := .ofNat buffer.length, type := .hello }, buffer }

/-- The checks of `handshake` once the fields of a `HELLO` have been read. -/
def checkRemote (expected : Option NodeIdentity) (remote : NodeIdentity) (reader : BinaryReader) : Option NodeIdentity :=
  if !reader.atEnd then none
  else if expected ≠ none ∧ expected ≠ some remote then none
  else some remote

/-- The peer a `HELLO` introduces, where `handshake` accepts it. -/
def readHello (selfRole : NodeRole) (expected : Option NodeIdentity) (buffer : Bytes) :
    Except Exn (Option NodeIdentity) := do
  let (role, reader) ← (BinaryReader.start buffer).read NodeRole
  let (id, reader) ← reader.read Bytes
  let (hasEndpoint, reader) ← reader.read Bool
  let validRole : Bool := role = .client || role = .metadata || role = .storage
  if !validRole || !canConnectWithRole selfRole role || id = [] then return none
  if hasEndpoint then
    let (host, reader) ← reader.read Bytes
    let (port, reader) ← reader.read UInt16
    if host = [] ∨ port = 0 then return none
    return checkRemote expected ⟨id, role⟩ reader
  else
    return checkRemote expected ⟨id, role⟩ reader

/-- What the handler of the hello read accepts; there is no frame where the read has failed. -/
def acceptHello (selfRole : NodeRole) (expected : Option NodeIdentity) : Option Frame → Option NodeIdentity
  | none => none
  | some frame =>
      if frame.header.type ≠ .hello then none
      else
        match readHello selfRole expected frame.buffer with
        | .ok remote => remote
        | .error _ => none

theorem checkRemote_some {expected : Option NodeIdentity} {remote peer : NodeIdentity} {reader : BinaryReader}
    (checked : checkRemote expected peer reader = some remote) :
    remote = peer ∧ (expected = none ∨ expected = some remote) := by
  rw [checkRemote] at checked
  split at checked
  · cases checked
  split at checked
  · cases checked
  · rename_i expects
    cases checked
    refine ⟨rfl, ?_⟩
    by_contra neither
    exact expects (not_or.1 neither)

/-- An accepted peer has a name and an allowed role, and is the one that was expected. -/
theorem readHello_some {role : NodeRole} {expected : Option NodeIdentity} {remote : NodeIdentity} {buffer : Bytes}
    (read : readHello role expected buffer = .ok (some remote)) :
    canConnectWithRole role remote.role = true ∧ remote.id ≠ [] ∧ (expected = none ∨ expected = some remote) := by
  simp only [readHello, bind, Except.bind] at read
  split at read
  · cases read
  rename_i peerRole _
  split at read
  · cases read
  rename_i id _
  split at read
  · cases read
  split at read
  · cases read
  rename_i allowed
  have last : ∀ reader, checkRemote expected ⟨id.1, peerRole.1⟩ reader = some remote →
      canConnectWithRole role remote.role = true ∧ remote.id ≠ [] ∧ (expected = none ∨ expected = some remote) := by
    intro reader checked
    obtain ⟨rfl, expects⟩ := checkRemote_some checked
    simp only [Bool.or_eq_true, not_or, Bool.not_eq_true, Bool.not_eq_false', decide_eq_true_eq] at allowed
    exact ⟨allowed.1.2, allowed.2, expects⟩
  split at read
  · split at read
    · cases read
    split at read
    · cases read
    split at read
    · cases read
    · exact last _ (Except.ok.inj read)
  · exact last _ (Except.ok.inj read)

theorem acceptHello_some {role : NodeRole} {expected : Option NodeIdentity} {remote : NodeIdentity} {frame : Option Frame}
    (accepted : acceptHello role expected frame = some remote) :
    canConnectWithRole role remote.role = true ∧ remote.id ≠ [] ∧ (expected = none ∨ expected = some remote) := by
  cases frame with
  | none => cases accepted
  | some frame =>
      rw [acceptHello] at accepted
      split at accepted
      · cases accepted
      split at accepted
      · rename_i read
        rw [accepted] at read
        exact readHello_some read
      · cases accepted

namespace NetworkState

/-! ## One connection -/

def begin (op : Op) (s : NetworkState) : NetworkState := { s with ops := op :: s.ops }

def modify (c : ConnectionPtr) (f : Connection → Connection) (s : NetworkState) : NetworkState :=
  { s with heap := Function.update s.heap c (f (s.heap c)) }

/-- The operations on the socket complete with an error later. -/
def close (c : ConnectionPtr) (s : NetworkState) : NetworkState :=
  if (s.heap c).closed then s
  else s.modify c fun conn => { conn with closed := true, writeInProgress := false, writeQueue := [] }

def asyncWriteFrame (c : ConnectionPtr) (frame : Frame) (op : Bool → Op) (s : NetworkState) : NetworkState :=
  match encodeFrame frame with
  | none => s.begin (op false)
  | some bytes => (s.modify c fun conn => { conn with handed := conn.handed ++ bytes }).begin (op true)

def writeNext (c : ConnectionPtr) (s : NetworkState) : NetworkState :=
  if (s.heap c).closed then s
  else
    match (s.heap c).writeQueue with
    | [] => s.modify c fun conn => { conn with writeInProgress := false }
    | frame :: rest =>
        (s.modify c fun conn => { conn with writeInProgress := true, writeQueue := rest }).asyncWriteFrame c frame (.write c)

def enqueueWrite (c : ConnectionPtr) (frame : Frame) (s : NetworkState) : NetworkState :=
  if (s.heap c).closed then s
  else
    let s' := s.modify c fun conn => { conn with writeQueue := conn.writeQueue ++ [frame] }
    if (s.heap c).writeInProgress then s' else s'.writeNext c

/-! ## The table of connections -/

def failConnection (c : ConnectionPtr) (s : NetworkState) : NetworkState :=
  let s := s.close c
  let s := { s with pendingConnections := s.pendingConnections.erase c }
  match (s.heap c).remote with
  | none => s
  | some remote =>
      if s.connections.lookup remote.id = some c then { s with connections := s.connections.erase remote.id } else s

def scheduleReconnect (endpoint : Endpoint) (s : NetworkState) : NetworkState := s.begin (.reconnect endpoint)

def startReading (c : ConnectionPtr) (s : NetworkState) : NetworkState :=
  match (s.heap c).remote with
  | none => s.failConnection c
  | some remote => s.begin (.read c remote)

/-- Hand the frames that waited for the peer over to its connection. -/
def flush (c : ConnectionPtr) (id : NodeId) (s : NetworkState) : NetworkState :=
  match s.pendingFrames.lookup id with
  | none => s
  | some frames =>
      let s := frames.foldl (fun s frame => s.enqueueWrite c frame) s
      { s with pendingFrames := s.pendingFrames.erase id }

def registerConnection (c : ConnectionPtr) (remote : NodeIdentity) (s : NetworkState) : NetworkState :=
  let s := s.modify c fun conn => { conn with remote := some remote }
  let s := { s with
    pendingConnections := s.pendingConnections.erase c
    connections := s.connections.insert remote.id c }
  (s.flush c remote.id).startReading c

def handshake (c : ConnectionPtr) (s : NetworkState) : NetworkState :=
  s.asyncWriteFrame c (helloFrame s.self) (.writeHello c)

/-- `make_shared<Connection>`, which goes into `pending_connections_`. -/
def makeConnection (connection : Connection) (s : NetworkState) : NetworkState :=
  { s with
    heap := Function.update s.heap s.next connection
    next := s.next + 1
    pendingConnections := s.next :: s.pendingConnections }

def connect (endpoint : Endpoint) (s : NetworkState) : NetworkState :=
  (s.makeConnection { origin := .outgoing, expectedRemote := some endpoint.identity }).begin (.resolve endpoint s.next)

def initial (self : Endpoint) : NetworkState :=
  { self, heap := fun _ => { origin := .incoming }, next := 0, connections := ∅, pendingConnections := [],
    pendingFrames := ∅, messageQueue := [], ops := [] }

/-- The state in which the network thread begins to run handlers. -/
def start (self : Endpoint) (seedNodes : List Endpoint) : NetworkState :=
  ((seedNodes.filter (shouldConnect self)).foldl (fun s endpoint => s.connect endpoint) (initial self)).begin .accept

end NetworkState

/-! ## The handlers -/

/-- `frame` is `none` where a read has failed. -/
inductive NetworkEvent where
  | send (nodeId : NodeId) (frame : Frame)
  | broadcast (role : NodeRole) (frame : Frame)
  | resolved (endpoint : Endpoint) (connection : ConnectionPtr) (error : Bool)
  | connected (endpoint : Endpoint) (connection : ConnectionPtr) (error : Bool)
  | accepted (error : Bool)
  | helloWritten (connection : ConnectionPtr) (encoded error : Bool)
  | helloRead (connection : ConnectionPtr) (frame : Option Frame)
  | frameRead (connection : ConnectionPtr) (remote : NodeIdentity) (frame : Option Frame)
  | frameWritten (connection : ConnectionPtr) (encoded error : Bool)
  | expired (endpoint : Endpoint)
  deriving DecidableEq

namespace NetworkState

/-- Take an operation from the outstanding ones. -/
def complete (op : Op) (s : NetworkState) : NetworkState := { s with ops := s.ops.erase op }

def finish (op : Op) (s : NetworkState) : Except Unit NetworkState :=
  if op ∈ s.ops then .ok (s.complete op) else .error ()

def handleSend (nodeId : NodeId) (frame : Frame) (s : NetworkState) : NetworkState :=
  match s.connections.lookup nodeId with
  | none =>
      { s with
        pendingFrames := s.pendingFrames.insert nodeId ((s.pendingFrames.lookup nodeId).getD [] ++ [frame]) }
  | some c => s.enqueueWrite c frame

def handleBroadcast (role : NodeRole) (frame : Frame) (s : NetworkState) : NetworkState :=
  s.connections.entries.foldl (fun s entry =>
    if (s.heap entry.2).remote.map (·.role) = some role then s.enqueueWrite entry.2 frame else s) s

def handleFrame (c : ConnectionPtr) (remote : NodeIdentity) (frame : Option Frame) (s : NetworkState) : NetworkState :=
  match frame with
  | none => s.failConnection c
  | some frame =>
      -- HELLO is only valid during the handshake.
      if frame.header.type = .hello then s.failConnection c
      else { s with messageQueue := s.messageQueue ++ [frame.from remote] }.startReading c

/-- The completion handler of `write_next`. -/
def handleWritten (c : ConnectionPtr) (error : Bool) (s : NetworkState) : NetworkState :=
  if (s.heap c).closed then s
  else if error then (s.modify c fun conn => { conn with writeInProgress := false }).failConnection c
  else s.writeNext c

/-- One handler; no error where the operation is not outstanding or cannot have that result. -/
def step (s : NetworkState) : NetworkEvent → Except Unit NetworkState
  | .send nodeId frame => .ok (s.handleSend nodeId frame)
  | .broadcast role frame => .ok (s.handleBroadcast role frame)
  | .resolved endpoint c error => do
      let s ← s.finish (.resolve endpoint c)
      if error then return (s.failConnection c).scheduleReconnect endpoint
      return s.begin (.connect endpoint c)
  | .connected endpoint c error => do
      let s ← s.finish (.connect endpoint c)
      if error then return (s.failConnection c).scheduleReconnect endpoint
      return s.handshake c
  | .accepted error => do
      let s ← s.finish .accept
      let s := s.begin .accept
      if error then return s
      return (s.makeConnection { origin := .incoming }).handshake s.next
  | .helloWritten c encoded error => do
      let s ← s.finish (.writeHello c encoded)
      if error then return s.failConnection c
      else if encoded then return s.begin (.readHello c)
      else throw ()
  | .helloRead c frame => do
      let s ← s.finish (.readHello c)
      match acceptHello s.self.role (s.heap c).expectedRemote frame with
      | none => return s.failConnection c
      | some remote => return s.registerConnection c remote
  | .frameRead c remote frame => do
      let s ← s.finish (.read c remote)
      return s.handleFrame c remote frame
  | .frameWritten c encoded error => do
      let s ← s.finish (.write c encoded)
      if encoded || error then return s.handleWritten c error
      else throw ()
  | .expired endpoint => do
      let s ← s.finish (.reconnect endpoint)
      if (s.connections.lookup endpoint.nodeId).isSome then return s
      return s.connect endpoint

end NetworkState

end Dfs
