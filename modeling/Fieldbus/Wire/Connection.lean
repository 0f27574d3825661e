import Fieldbus.Device.Service
import Fieldbus.Wire.Frame
import Fieldbus.Wire.Pdu

/-!
# Serving a connection

The bytes that a client sends are cut into frames, and each request is answered before the next one
is read.  What is left is the beginning of a frame, kept until more bytes arrive.  The first breach
ends the service; answers given before it stand.
-/

namespace Fieldbus

/-- What serving the bytes that have arrived leaves: the bytes sent back, those kept for later, and
the breach that ended the service, if there was one. -/
structure Served where
  sent : List UInt8 := []
  kept : List UInt8 := []
  breach : Option Breach := none
  deriving DecidableEq, Repr

namespace Device

/-- Answers the request in a frame by a frame with the same transaction and unit. -/
def answerFrame (d : Device) (f : Frame) : Outcome Device (Except Breach Frame) :=
  match Request.ofBytes f.message with
  | .error breach => { answer := .error breach, state := d }
  | .ok request =>
    (d.serve f.unitId request).map fun answer =>
      (answerBytes request answer).map fun message => { f with message }

/-- Serves the bytes that have arrived. -/
def serveBytes (d : Device) (bytes : List UInt8) : Outcome Device Served :=
  match h : Frame.scan bytes with
  | .waiting => { answer := { kept := bytes }, state := d }
  | .breach reason => { answer := { breach := some reason }, state := d }
  | .frame f rest =>
    have := Frame.length_rest_lt h
    (d.answerFrame f).andThen fun answer d =>
      match answer with
      | .error reason => { answer := { breach := some reason }, state := d }
      | .ok answer =>
        (d.serveBytes rest).map fun later => { later with sent := answer.toBytes ++ later.sent }
termination_by bytes.length

end Device

end Fieldbus
