import Fieldbus.Wire.Breach
import Fieldbus.Wire.Bytes

/-!
# Frames

A message travels in a frame: a transaction number that the answer repeats, a protocol identifier
that is zero, the number of bytes that follow, the unit, and the message.  `Frame.scan` looks for a
frame at the front of the bytes that have arrived.
-/

namespace Fieldbus

/-- A message under way. -/
structure Frame where
  transaction : UInt16
  unitId : UInt8
  message : List UInt8
  deriving DecidableEq, Repr

namespace Frame

/-- The bytes of a frame.  The length counts the unit and the message. -/
def toBytes (f : Frame) : List UInt8 :=
  wordsBytes [f.transaction, 0, (f.message.length + 1).toUInt16] ++ f.unitId :: f.message

/-- What stands at the front of the bytes that have arrived: the beginning of a frame at most, a
breach, or a frame and the bytes behind it. -/
inductive Scan where
  | waiting
  | breach (reason : Breach)
  | frame (frame : Frame) (rest : List UInt8)
  deriving DecidableEq, Repr

/-- Looks for a frame.  The length is judged as soon as the bytes before the message are there, the
protocol when the frame is complete. -/
def scan : List UInt8 → Scan
  | t₁ :: t₀ :: p₁ :: p₀ :: l₁ :: l₀ :: unitId :: rest =>
    match (wordOf l₁ l₀).toNat with
    | 0 => .breach .emptyFrame
    | size + 1 =>
      if rest.length < size then .waiting
      else if wordOf p₁ p₀ ≠ 0 then .breach (.foreignProtocol (wordOf p₁ p₀))
      else .frame ⟨wordOf t₁ t₀, unitId, rest.take size⟩ (rest.drop size)
  | _ => .waiting

/-- What is left behind a frame is shorter than what was there. -/
theorem length_rest_lt {bytes rest : List UInt8} {f : Frame} (h : scan bytes = .frame f rest) :
    rest.length < bytes.length := by
  unfold scan at h
  split at h
  · split at h
    · simp at h
    · split at h
      · simp at h
      · split at h
        · simp at h
        · simp only [Scan.frame.injEq] at h
          rw [← h.2]
          simp
          omega
  · simp at h

end Frame

end Fieldbus
