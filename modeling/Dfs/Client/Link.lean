import Dfs.Client.Client
import Dfs.System.Producers

/-!
# Client processes and the metadata node

One client process after the other uses the same node id. What the metadata node sends to that
id waits in `pending_frames_` while no connection is registered for it, and goes to the
connection that registers next, whichever process has made it. Each frame on its way is kept
together with the request it belongs to; no handler looks at that.
-/

namespace Dfs

open Lib

/-- A request that a client has sent: the process, which of its operations, and the frame. -/
structure Ask where
  process : Nat
  operation : Nat
  frame : Frame
  deriving DecidableEq

/-- A frame that the metadata node has sent to the client's node id while it handled `ask`. -/
structure Reply where
  frame : Frame
  ask : Ask
  deriving DecidableEq

/-- All that is on its way between the client's node id and the metadata node. -/
structure Link where
  client : NodeId
  metadata : NodeId
  /-- The number of the process that runs. -/
  process : Nat
  /-- The operations it has begun. -/
  operation : Nat
  /-- Requests that the worker has not taken: they wait in the client's network, are on a connection,
  or are in the queues of the metadata node. -/
  requests : List Ask
  /-- The process at the other end of the connection that is registered for the client's node id. -/
  registered : Option Nat
  /-- `pending_frames_` of the metadata node for the client's node id. -/
  pendingFrames : List Reply
  /-- Handed to a connection of the process that runs, and not read from it. -/
  written : List Reply
  /-- Of the process that runs. -/
  messageQueue : List Reply
  deriving DecidableEq

/-- What the networks at both ends do. -/
inductive LinkAct where
  | register (process : Nat)
  | fail
  | deliver (i : Nat)
  | loseReply (i : Nat)
  | loseRequest (i : Nat)
  deriving DecidableEq

namespace Link

/-- Frames are handed to a connection of `process`. Nobody reads what goes to a process that has ended. -/
def hand (process : Nat) (replies : List Reply) (l : Link) : Link :=
  if process = l.process then { l with written := l.written ++ replies } else l

/-- `Network::send` of the metadata node for the client's node id. -/
def send (reply : Reply) (l : Link) : Link :=
  match l.registered with
  | none => { l with pendingFrames := l.pendingFrames ++ [reply] }
  | some process => l.hand process [reply]

/-- `register_connection` for a connection of `process`: what waited goes to it. -/
def register (process : Nat) (l : Link) : Link :=
  { l with registered := some process, pendingFrames := [] }.hand process l.pendingFrames

/-- `fail_connection` for the connection that is registered. -/
def fail (l : Link) : Link := { l with registered := none }

/-- The process reads a frame from a connection. -/
def deliver (i : Nat) (l : Link) : Link :=
  match l.written[i]? with
  | none => l
  | some reply => { l with written := l.written.eraseIdx i, messageQueue := l.messageQueue ++ [reply] }

/-- A connection may be one of a process that has ended, but not of one that has not started yet. -/
def act (l : Link) : LinkAct → Link
  | .register process => if process ≤ l.process then l.register process else l
  | .fail => l.fail
  | .deliver i => l.deliver i
  | .loseReply i => { l with written := l.written.eraseIdx i }
  | .loseRequest i => { l with requests := l.requests.eraseIdx i }

def acts (l : Link) (as : List LinkAct) : Link := as.foldl act l

/-- The replies that the running process may still get. -/
def replies (l : Link) : List Reply := l.pendingFrames ++ (l.written ++ l.messageQueue)

/-- The requests to which it may still get a reply. -/
def outstanding (l : Link) : List Ask := l.requests ++ l.replies.map (·.ask)

end Link

/-! ## The metadata node -/

/-- The network as the worker sees it while it handles `ask`. -/
structure Desk where
  link : Link
  ask : Ask
  /-- What each wait for a storage node brings, and what happens meanwhile. -/
  waits : List (Option Message × List LinkAct)

instance : Network Desk where
  send node frame d := if node = d.link.client then { d with link := d.link.send ⟨frame, d.ask⟩ } else d
  receiveIf _ p d :=
    match d.waits with
    | [] => (none, d)
    | (message, acts) :: waits => (message.filter p, { d with link := d.link.acts acts, waits })
  receiveIf_accepts _ p d m h := by
    split at h
    · cases h
    · exact (Option.filter_eq_some_iff.1 h).2

/-- What tells requests and responses apart. -/
structure RequestKey where
  requestId : UInt64
  job : ClientJob
  chunkIndex : Option UInt32
  deriving DecidableEq

/-- The requests and responses whose body starts with a chunk index. -/
def ClientJob.chunked : ClientJob → Bool
  | .readChunk | .writeChunk => true
  | _ => false

def RequestKey.of (frame : Frame) : Option RequestKey :=
  match Rpc.readHeader ClientJob (.start frame.buffer) with
  | .error _ => none
  | .ok (header, reader) =>
      if header.job.chunked then
        match reader.read UInt32 with
        | .error _ => none
        | .ok (chunkIndex, _) => some ⟨header.requestId, header.job, some chunkIndex⟩
      else some ⟨header.requestId, header.job, none⟩

/-- A request that has been sent, and those on their way at that moment that cannot be told apart from it. -/
structure Asked where
  ask : Ask
  rivals : List Ask
  deriving DecidableEq

/-- A message that the client's `receive_if` has returned, and the request sent last before it. -/
structure Acceptance where
  reply : Reply
  asked : Option Asked
  deriving DecidableEq

/-- What is around a client process. -/
inductive WorldAct where
  | link (a : LinkAct)
  /-- The worker takes one of the requests. -/
  | handle (i : Nat) (env : Env) (waits : List (Option Message × List LinkAct))

structure World where
  worker : MetadataWorker
  link : Link
  /-- An exception has ended the metadata node. -/
  ended : Bool := false
  /-- What happens while the client waits, wait for wait. -/
  script : List (List WorldAct) := []
  asked : Option Asked := none
  accepted : List Acceptance := []

namespace World

def handle (i : Nat) (env : Env) (waits : List (Option Message × List LinkAct)) (w : World) : World :=
  if w.ended then w
  else
    match w.link.requests[i]? with
    | none => w
    | some ask =>
        let link := { w.link with requests := w.link.requests.eraseIdx i }
        match NodeJob.of (ask.frame.from ⟨link.client, .client⟩) with
        | .error _ => { w with link, ended := true }
        | .ok (some (.client event)) =>
            let (result, s) :=
              MetadataState.handle env event ({ worker := w.worker, network := { link, ask, waits } } : MetadataState Desk)
            { w with worker := s.worker, link := s.network.link, ended := !result.isOk }
        | .ok _ => { w with link }

def act (w : World) : WorldAct → World
  | .link a => { w with link := w.link.act a }
  | .handle i env waits => w.handle i env waits

def acts (w : World) (as : List WorldAct) : World := as.foldl act w

/-- The client sends a request. -/
def send (frame : Frame) (w : World) : World :=
  let ask := { process := w.link.process, operation := w.link.operation, frame }
  { w with
    link := { w.link with requests := w.link.requests ++ [ask] }
    asked := some { ask, rivals := w.link.outstanding.filter fun other => RequestKey.of other.frame = RequestKey.of frame } }

def await (w : World) : World := acts { w with script := w.script.tail } (w.script.headD [])

/-- `pop_if` on the message queue of the client. -/
def take (p : Message → Bool) (w : World) : Option Message × World :=
  match popIf (fun reply => p (reply.frame.from ⟨w.link.metadata, .metadata⟩)) w.link.messageQueue with
  | (none, _) => (none, w)
  | (some reply, messageQueue) =>
      (some (reply.frame.from ⟨w.link.metadata, .metadata⟩),
        { w with link := { w.link with messageQueue }, accepted := w.accepted ++ [{ reply, asked := w.asked }] })

theorem take_accepts {p : Message → Bool} {w : World} {m : Message} (h : (w.take p).1 = some m) : p m = true := by
  unfold take popIf at h
  split at h
  · cases h
  · rename_i found
    cases h
    have accepted := List.find?_some (Prod.mk.inj found).1
    exact accepted

instance : Network World where
  send node frame w := if node = w.link.metadata then w.send frame else w
  receiveIf _ p w := w.await.take p
  receiveIf_accepts _ _ _ _ := take_accepts

end World

/-! ## Runs -/

/-- The operations of a client; `outcomes` is what becomes of the calls on its own files. -/
inductive Operation where
  | createFile (path : Bytes)
  | readFile (fromPath toPath : Bytes) (outcomes : List Outcome)
  | writeFile (file : LocalFile) (path : Bytes)
  | remove (path : Bytes)
  | list (directory : Bytes)
  | mkdir (path : Bytes)
  | rename (oldPath newPath : Bytes)
  | stat (path : Bytes)

def Operation.perform (c : Client World) : Operation → Client World
  | createFile path => (c.createFile path).2
  | readFile fromPath toPath outcomes => ({ c with disk := c.disk.withOutcomes outcomes }.readFile fromPath toPath).2
  | writeFile file path => (c.writeFile file path).2
  | remove path => (c.remove path).2
  | list directory => (c.list directory).2
  | mkdir path => (c.mkdir path).2
  | rename oldPath newPath => (c.rename oldPath newPath).2
  | stat path => (c.stat path).2

inductive ProcessEvent where
  /-- The process ends, and the next one starts. -/
  | restart
  | pass (acts : List WorldAct)
  | perform (o : Operation) (script : List (List WorldAct))

namespace Client

/-- The first process starts; the metadata node is in any state. -/
def launch (worker : MetadataWorker) (client metadata : NodeId) (disk : Disk) : Client World where
  network :=
    { worker
      link :=
        { client, metadata, process := 1, operation := 0, requests := [], registered := none, pendingFrames := [],
          written := [], messageQueue := [] } }
  disk
  metadataNodeId := metadata
  currentId := 0

def restart (c : Client World) : Client World :=
  { c with
    network :=
      { c.network with
        link := { c.network.link with process := c.network.link.process + 1, operation := 0, written := [], messageQueue := [] }
        asked := none }
    currentId := 0 }

/-- One more operation begins. -/
def begin (c : Client World) (script : List (List WorldAct)) : Client World :=
  { c with
    network :=
      { c.network with link := { c.network.link with operation := c.network.link.operation + 1 }, script } }

def next (c : Client World) : ProcessEvent → Client World
  | .restart => c.restart
  | .pass acts => { c with network := c.network.acts acts }
  | .perform o script => o.perform (c.begin script)

def run (c : Client World) (events : List ProcessEvent) : Client World := events.foldl next c

end Client

end Dfs
