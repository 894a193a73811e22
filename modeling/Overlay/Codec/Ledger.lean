import Overlay.Codec.Account
import Overlay.Ledger.Memory

/-! Ledgers in memory as JSON, their accounts and slots in the order of their keys as texts. -/

set_option autoImplicit false

namespace Overlay.MemoryLedger

namespace Record

def schema : Json.Schema :=
  .record [("info", Info.schema), ("storage", .map .any)] .ignored

def toJson (record : Record) : Json :=
  .object [("info", record.info.toJson),
    ("storage", .ofSorted (record.storage.toList.map fun slot => (slot.1.text, slot.2.toJson)))]

def ofJson? (json : Json) : Option Record := do
  match ← json.fields? ["info", "storage"] with
  | [some info, some storage] =>
    let slots ← storage.entries? Word.read? Word.ofJson?
    return {
      info := ← Info.ofJson? info
      storage := slots.foldl (fun storage slot => storage.insert slot.1 slot.2) ∅ }
  | _ => none

end Record

def toJson (ledger : MemoryLedger) : Json :=
  .object [("accounts",
    .ofSorted (ledger.accounts.toList.map fun entry => (entry.1.text, entry.2.toJson)))]

def ofJson? (json : Json) : Option MemoryLedger := do
  match ← json.fields? ["accounts"] with
  | [some accounts] =>
    let entries ← accounts.entries? FixedBytes.ofText? Record.ofJson?
    return { accounts := entries.foldl (fun map entry => map.insert entry.1 entry.2) ∅ }
  | _ => none

def layout : Json.Layout MemoryLedger :=
  ⟨.record [("accounts", .map Record.schema)] .ignored, toJson, ofJson?⟩

end Overlay.MemoryLedger
