import Dfs.Common.Message

/-!
# What a node sees of its network (`Network.hpp`, `BlockingQueue.hpp`)

`send` hands a frame over, and `receiveIf` waits for a message that satisfies a predicate and
takes it out of the node's message queue, or gives up after its timeout.
-/

namespace Dfs

class Network (ν : Type) where
  send : NodeId → Frame → ν → ν
  /-- The first argument is the timeout in seconds. -/
  receiveIf : Nat → (Message → Bool) → ν → Option Message × ν
  receiveIf_accepts : ∀ timeout p n m, (receiveIf timeout p n).1 = some m → p m = true

/-- `BlockingQueue::pop_if` once the wait is over. -/
def popIf {α : Type} (p : α → Bool) (queue : List α) : Option α × List α :=
  (queue.find? p, queue.eraseP p)

end Dfs
