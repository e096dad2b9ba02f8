import Dfs.Common.Message

/-!
# Frames on a socket (`FrameIO.cpp`)
-/

namespace Dfs

open Lib

/-- `encode_frame`, which throws on a buffer that is too large. -/
def encodeFrame (frame : Frame) : Option Bytes :=
  if frame.buffer.length > maxMessageSize then none
  else some (write headerMagic ++ (write (UInt32.ofNat frame.buffer.length) ++ (write frame.header.type ++ frame.buffer)))

/-- `encode_frame` takes the frame. -/
def Frame.Fits (frame : Frame) : Prop := (encodeFrame frame).isSome = true

theorem Frame.fits_iff {frame : Frame} : frame.Fits ↔ frame.buffer.length ≤ maxMessageSize := by
  rw [Fits, encodeFrame]
  split <;> rename_i size
  · exact iff_of_false (by simp) (Nat.not_le.2 size)
  · exact iff_of_true rfl (Nat.not_lt.1 size)

/-- The bytes of a frame that is not too large. -/
def frameBytes (frame : Frame) : Bytes := (encodeFrame frame).getD []

theorem encodeFrame_eq {frame : Frame} (small : frame.buffer.length ≤ maxMessageSize) :
    encodeFrame frame = some (frameBytes frame) := by
  rw [frameBytes, encodeFrame, if_neg (Nat.not_lt.2 small), Option.getD_some]

theorem frameBytes_of_some {frame : Frame} {bytes : Bytes} (encoded : encodeFrame frame = some bytes) :
    frameBytes frame = bytes := by
  rw [frameBytes, encoded, Option.getD_some]

end Dfs
