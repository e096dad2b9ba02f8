import Dfs.Client.Replies
import Dfs.System.Cluster

/-!
# Successive client processes

Whatever the processes that use a node id do, and however they end, what an operation accepts
belongs to the request it has sent last or to an older one that looked the same.
-/

namespace Dfs

open Lib

namespace Client

variable {c : Client World}

/-- Between two operations. -/
def Settled (c : Client World) : Prop := ∃ used, c.Performing used

theorem launch_settled (worker : MetadataWorker) (client metadata : NodeId) (disk : Disk) :
    (launch worker client metadata disk).Settled := by
  refine ⟨[], rfl, rfl, ?_, ?_, ?_, ?_, ?_, ?_⟩
  all_goals
    intro x mem
    exact absurd mem List.not_mem_nil

/-- The next id is the one of the operation that begins, and that operation has not sent anything yet. -/
theorem Settled.ready (settled : c.Settled) (script : List (List WorldAct)) : (c.begin script).Ready := by
  obtain ⟨used, performing⟩ := settled
  refine ⟨performing.metadata, ?_, performing.proper, performing.process, fun ask mem here => ?_, fun ask mem here latest => ?_,
    performing.replies, performing.accepted⟩
  · show c.currentId + 1 = UInt64.ofNat (c.network.link.operation + 1)
    rw [performing.current, UInt64.ofNat_add]
    rfl
  · exact Nat.le_succ_of_le (performing.operation ask mem here)
  · have before : ask.operation ≤ c.network.link.operation := performing.operation ask mem here
    have now : ask.operation = c.network.link.operation + 1 := latest
    omega

theorem perform_settled (ready : c.Ready) (o : Operation) : (o.perform c).Settled := by
  cases o with
  | createFile path => exact ask_performing ready fun id => ⟨rfl, _, rfl⟩
  | readFile fromPath toPath outcomes =>
      have opened : { c with disk := c.disk.withOutcomes outcomes }.Ready := ready
      exact readFile_performing opened
  | writeFile file path => exact writeFile_performing ready
  | remove path => exact ask_performing ready fun id => ⟨rfl, _, rfl⟩
  | list directory => exact ask_performing ready fun id => ⟨rfl, _, rfl⟩
  | mkdir path => exact ask_performing ready fun id => ⟨rfl, _, rfl⟩
  | rename oldPath newPath => exact ask_performing ready fun id => ⟨rfl, _, rfl⟩
  | stat path => exact ask_performing ready fun id => ⟨rfl, _, rfl⟩

/-- All requests that are still on their way are of a process that has ended. -/
theorem restart_settled (settled : c.Settled) : c.restart.Settled := by
  obtain ⟨used, performing⟩ := settled
  have waiting : ∀ reply ∈ c.restart.network.link.replies, reply ∈ c.network.link.replies := by
    intro reply mem
    rw [Link.mem_replies] at mem ⊢
    rcases mem with waits | none | none
    · exact .inl waits
    · cases none
    · cases none
  have out : ∀ ask ∈ c.restart.network.link.outstanding, ask ∈ c.network.link.outstanding := by
    intro ask mem
    rw [Link.mem_outstanding] at mem ⊢
    exact mem.imp_right fun ⟨reply, there, same⟩ => ⟨reply, waiting reply there, same⟩
  have ended : ∀ ask ∈ c.restart.network.link.outstanding, ask.process < c.network.link.process + 1 := fun ask mem =>
    Nat.lt_succ_of_le (performing.process ask (out ask mem))
  refine ⟨[], performing.metadata, rfl, fun ask mem => performing.proper ask (out ask mem), fun ask mem => (ended ask mem).le,
    fun ask mem here => ?_, fun ask mem here => ?_, fun reply mem => performing.replies reply (waiting reply mem), performing.accepted⟩
  · exact absurd here (ended ask mem).ne
  · exact absurd here (ended ask mem).ne

theorem next_settled (settled : c.Settled) (e : ProcessEvent) : (c.next e).Settled := by
  cases e with
  | restart => exact restart_settled settled
  | pass acts =>
      obtain ⟨used, performing⟩ := settled
      exact ⟨used, performing.later (.acts performing.proper acts)⟩
  | perform o script => exact perform_settled (settled.ready script) o

theorem run_settled (settled : c.Settled) (events : List ProcessEvent) : (c.run events).Settled := by
  induction events generalizing c with
  | nil => exact settled
  | cons e events ih => exact ih (next_settled settled e)

/-- What a client accepts answers its own request whenever no older request that looks the same was on its way
when it sent that one; such a request is of an earlier process, or 2⁶⁴ operations older. -/
theorem reply_own (worker : MetadataWorker) (client metadata : NodeId) (disk : Disk) (events : List ProcessEvent) :
    ∀ a ∈ ((launch worker client metadata disk).run events).network.accepted,
      ∃ asked, a.asked = some asked ∧ (asked.rivals = [] → a.reply.ask = asked.ask) ∧
        ∀ other ∈ asked.rivals, other.Precedes asked.ask := by
  intro a mem
  obtain ⟨used, performing⟩ := run_settled (launch_settled worker client metadata disk) events
  obtain ⟨asked, sent, answers, older⟩ := performing.accepted a mem
  refine ⟨asked, sent, fun alone => ?_, older⟩
  rcases answers with own | rival
  · exact own
  · rw [alone] at rival
    exact absurd rival List.not_mem_nil

/-- The client `"c"` of a metadata node with an empty store. -/
def launched : Client World := launch System.start.worker [99] [109] System.start.worker.store.disk

/-- The request is handled and answered while the first process waits. -/
def promptReply : List ProcessEvent :=
  [.pass [.link (.register 1)], .perform (.createFile [97]) [[.handle 0 { first := 7 } [], .link (.deliver 0)]]]

theorem reply_own_prompt : ∃ a ∈ (launched.run promptReply).network.accepted, ∃ asked, a.asked = some asked ∧
    asked.rivals = [] ∧ a.reply.ask = asked.ask := by
  have accepted : ∃ a ∈ (launched.run promptReply).network.accepted, a.asked.map (·.rivals) = some [] := by decide +kernel
  obtain ⟨a, mem, alone⟩ := accepted
  obtain ⟨asked, sent, own, -⟩ := reply_own System.start.worker [99] [109] System.start.worker.store.disk promptReply a mem
  rw [sent] at alone
  have none : asked.rivals = [] := Option.some.inj alone
  exact ⟨a, mem, asked, sent, none, own none⟩

/-- The first process asks for one file, and its connection fails before the answer; the second process has
registered when it asks for another file. -/
def lateReply : List ProcessEvent :=
  [.pass [.link (.register 1)], .perform (.createFile [97]) [[.link .fail, .handle 0 { first := 7 } []]],
    .restart, .pass [.link (.register 2)]]

/-- The second process is told that its file has been created; what it accepts is the answer to the first one. -/
theorem late_reply_accepted :
    (((launched.run lateReply).begin [[.link (.deliver 0)]]).createFile [98]).1.toOption.bind Except.toOption = some () ∧
      (launched.run (lateReply ++ [.perform (.createFile [98]) [[.link (.deliver 0)]]])).network.worker.store.data.lookup
        (MetadataStore.key [98]) = none ∧
      ∃ a ∈ (launched.run (lateReply ++ [.perform (.createFile [98]) [[.link (.deliver 0)]]])).network.accepted,
        a.asked.map (·.ask) ≠ some a.reply.ask := by
  decide +kernel

end Client

end Dfs
