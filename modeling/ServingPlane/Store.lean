import ServingPlane.Advisor.Payload
import ServingPlane.Json.Printer

/-! # The state store

    What outlives the process: the container ids of each task, oldest
    first, and a bounded history of recoveries, newest first.  Both are
    kept as document texts under the task's name.  An entry is text here,
    as all that is ever written is; one of other bytes, which somebody
    else would have to put there, could be decoded as little as a text
    that is no document. -/

namespace ServingPlane

/-- The two tables. -/
structure Store where
  containers : Dict String String
  history : Dict String String
  deriving DecidableEq

/-- Why a store operation fails. -/
inductive StoreError where
  | unopenable (reason : String)
  | transaction (reason : String)
  | table (reason : String)
  | unreadable (reason : String)
  | unwritable (reason : String)
  | unencodable (reason : String)
  | undecodable (fault : Fault)

namespace StoreError

/-- The message of a cause. -/
def message : StoreError → String
  | unopenable reason => s!"failed to open database: {reason}"
  | transaction reason => s!"transaction error: {reason}"
  | table reason => s!"table error: {reason}"
  | unreadable reason => s!"read error: {reason}"
  | unwritable reason => s!"write error: {reason}"
  | unencodable reason => s!"serialization error: {reason}"
  | undecodable fault => s!"deserialization error: {fault.message}"

end StoreError

namespace Store

/-- Two empty tables. -/
def empty : Store := ⟨.empty, .empty⟩

instance : Inhabited Store := ⟨empty⟩

/-- Container ids on record. -/
def idsCodec : Codec (List String) := .list .string

/-- A history on record. -/
def historyCodec : Codec (List RecoveryRecord) := .list RecoveryRecord.shape.codec

/-- Read the document under a key, if there is one. -/
def lookup {α : Type} (c : Codec α) (table : Dict String String) (key : String) :
    Except StoreError (Option α) :=
  match table.get? key with
  | none => .ok none
  | some text =>
    match c.ofText text with
    | .ok a => .ok (some a)
    | .error f => .error (.undecodable f)

/-- The container ids recorded for a task, if it was ever deployed. -/
def containerIds (s : Store) (task : String) : Except StoreError (Option (List String)) :=
  lookup idsCodec s.containers task

/-- Replace the container ids of a task. -/
def putContainerIds (s : Store) (task : String) (ids : List String) : Store :=
  { s with containers := s.containers.insert task (idsCodec.write ids).compact }

/-- Forget the container ids of a task; tells whether any were recorded. -/
def deleteContainerIds (s : Store) (task : String) : Bool × Store :=
  (s.containers.contains task, { s with containers := s.containers.erase task })

/-- Put a record in front of a task's history and keep the newest `limit`. -/
def appendHistory (s : Store) (task : String) (record : RecoveryRecord) (limit : Nat) :
    Except StoreError Store := do
  let earlier ← lookup historyCodec s.history task
  let records := (record :: earlier.getD []).take limit
  return { s with history := s.history.insert task (historyCodec.write records).compact }

/-- The history of a task, newest first. -/
def listHistory (s : Store) (task : String) : Except StoreError (List RecoveryRecord) := do
  return (← lookup historyCodec s.history task).getD []

end Store

end ServingPlane
