import Dfs.Common.Serializer
import Mathlib.Tactic.SplitIfs

/-!
# Nodes and messages (`Node.hpp`, `Message.hpp`)
-/

namespace Dfs

open Lib

abbrev NodeId := Bytes

inductive NodeRole where
  | client
  | metadata
  | storage
  | other (b : UInt8) (h : 3 ≤ b.toNat)
  deriving DecidableEq

instance : WireEnum NodeRole where
  toByte
    | .client => 0
    | .metadata => 1
    | .storage => 2
    | .other b _ => b
  ofByte b :=
    if h0 : b.toNat = 0 then .client
    else if h1 : b.toNat = 1 then .metadata
    else if h2 : b.toNat = 2 then .storage
    else .other b (by omega)
  ofByte_toByte v := by
    cases v with
    | other b h =>
        simp only
        split_ifs <;> first | omega | rfl
    | _ => rfl
  toByte_ofByte b := by
    split_ifs <;> first | rfl | exact UInt8.toNat_inj.1 (Eq.symm ‹_›)

structure NodeIdentity where
  id : NodeId
  role : NodeRole
  deriving DecidableEq

def headerMagic : UInt8 := 0x69
def maxMessageSize : Nat := 1024 * 1024

inductive MessageType where
  | hello
  | clientRpc
  | storageRpc
  | storageHeartbeat
  | other (b : UInt8) (h : 4 ≤ b.toNat)
  deriving DecidableEq

instance : WireEnum MessageType where
  toByte
    | .hello => 0
    | .clientRpc => 1
    | .storageRpc => 2
    | .storageHeartbeat => 3
    | .other b _ => b
  ofByte b :=
    if h0 : b.toNat = 0 then .hello
    else if h1 : b.toNat = 1 then .clientRpc
    else if h2 : b.toNat = 2 then .storageRpc
    else if h3 : b.toNat = 3 then .storageHeartbeat
    else .other b (by omega)
  ofByte_toByte v := by
    cases v with
    | other b h =>
        simp only
        split_ifs <;> first | omega | rfl
    | _ => rfl
  toByte_ofByte b := by
    split_ifs <;> first | rfl | exact UInt8.toNat_inj.1 (Eq.symm ‹_›)

structure MessageHeader where
  magic : UInt8
  length : UInt32
  type : MessageType
  deriving DecidableEq

structure Frame where
  header : MessageHeader
  buffer : Bytes
  deriving DecidableEq

structure Message where
  sender : NodeIdentity
  header : MessageHeader
  buffer : Bytes
  deriving DecidableEq

/-- The message a frame becomes at its receiver. -/
def Frame.from (f : Frame) (sender : NodeIdentity) : Message := ⟨sender, f.header, f.buffer⟩

end Dfs
