import ScTransport.Infra.Bytes

/-!
# Telemetry events

Events of a workflow run and their encoding. MessagePack comes from a package: `MsgPack` is its
interface, and `MsgPack.Lawful` what the framing relies on.
-/

namespace ScTransport

open Infra

/-- `serde_json::Value`; a number by its text. -/
inductive Json where
  | null
  | bool (value : Bool)
  | number (text : String)
  | string (text : String)
  | array (items : List Json)
  | object (fields : List (String × Json))

namespace Json

/-- `Value::get`. -/
def get (key : String) : Json → Option Json
  | .object fields => fields.lookup key
  | _ => none

/-- `Value::as_bool`. -/
def asBool : Json → Option Bool
  | .bool value => some value
  | _ => none

end Json

inductive EventType where
  | runStarted
  | runCompleted
  | runFailed
  | taskQueued
  | taskStarted
  | taskCompleted
  | taskFailed
  | progress
  | transportFallback
  deriving DecidableEq

structure TelemetryEvent where
  runId : String
  taskId : Option String
  eventType : EventType
  timestampMs : Nat
  payload : Json

inductive TransportError where
  | serialization (text : String)
  | unavailable (text : String)
  | fallbackRequired
  | quicError (text : String)
  deriving DecidableEq

/-- `rmp_serde::to_vec_named` and `rmp_serde::from_slice`, with the texts of their errors. -/
structure MsgPack where
  toVecNamed : TelemetryEvent → Except String Bytes
  fromSlice : Bytes → Except String TelemetryEvent

/-- Decoding undoes encoding, and an encoded event starts with a map marker and not with `S`. -/
structure MsgPack.Lawful (M : MsgPack) : Prop where
  fromSlice_toVecNamed : ∀ {event : TelemetryEvent} {bytes : Bytes},
    M.toVecNamed event = .ok bytes → M.fromSlice bytes = .ok event
  marker : ∀ {event : TelemetryEvent} {bytes : Bytes}, M.toVecNamed event = .ok bytes →
    ∃ first rest, bytes = first :: rest ∧ first ≠ 0x53

end ScTransport
