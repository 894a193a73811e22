import Overlay.Account
import Overlay.Cache
import Overlay.Codec.Scalar
import Overlay.Text.Flags

/-! Infos, slots and accounts in JSON. -/

set_option autoImplicit false

namespace Overlay

namespace Info

def schema : Json.Schema :=
  .record [("balance", .any), ("nonce", .any), ("code_hash", .bytes 32), ("code", .any)] .ignored

def toJson (info : Info) : Json :=
  .object [("balance", info.balance.toJson), ("nonce", .ofUInt64 info.nonce),
    ("code_hash", info.codeHash.toJson), ("code", info.code.toJson)]

/-- The hash is taken as it stands. -/
def ofJson? (json : Json) : Option Info := do
  match ← json.fields? ["balance", "nonce", "code_hash", "code"] with
  | [some balance, some nonce, some codeHash, some code] =>
    return {
      balance := ← Word.ofJson? balance
      nonce := ← nonce.uint64?
      codeHash := ← FixedBytes.ofJson? codeHash
      code := ← Bytes.ofJson? code }
  | _ => none

def layout : Json.Layout Info := ⟨schema, toJson, ofJson?⟩

end Info

namespace Access

def names : Flags.Table := [("READ", 1), ("WRITTEN", 2), ("PRELOADED", 4)]

def toJson (access : Access) : Json := .string (Flags.write names access.toByte)

def ofJson? (json : Json) : Option Access :=
  (json.text?.bind (Flags.read? names)).map ofByte

def layout : Json.Layout Access := ⟨.any, toJson, ofJson?⟩

end Access

namespace Slot

def schema : Json.Schema :=
  .record [("original_value", .any), ("present_value", .any), ("access", .any)] .ignored

def toJson (slot : Slot) : Json :=
  .object [("original_value", .ofOption Word.toJson slot.initial),
    ("present_value", .ofOption Word.toJson slot.current), ("access", slot.access.toJson)]

/-- A value that is missing is not known. -/
def ofJson? (json : Json) : Option Slot := do
  match ← json.fields? ["original_value", "present_value", "access"] with
  | [initial, current, some access] =>
    return {
      initial := ← (initial.getD .null).optional? Word.ofJson?
      current := ← (current.getD .null).optional? Word.ofJson?
      access := ← Access.ofJson? access }
  | _ => none

def layout : Json.Layout Slot := ⟨schema, toJson, ofJson?⟩

end Slot

namespace Status

def names : Flags.Table :=
  [("LOADED", 1), ("CACHED", 2), ("CREATED", 4), ("SELFDESTRUCTED", 8)]

def toJson (status : Status) : Json := .string (Flags.write names status.toByte)

def ofJson? (json : Json) : Option Status :=
  (json.text?.bind (Flags.read? names)).map ofByte

def layout : Json.Layout Status := ⟨.any, toJson, ofJson?⟩

end Status

namespace Storage

def toJson (storage : Storage) : Json :=
  .ofSorted (storage.toList.map fun entry => (entry.1.text, entry.2.toJson))

def ofJson? (json : Json) : Option Storage :=
  (json.entries? Word.read? Slot.ofJson?).map fun entries =>
    entries.foldl (fun storage entry => storage.insert entry.1 entry.2) ∅

end Storage

namespace Account

def schema : Json.Schema :=
  .record [("address", .bytes 20), ("info", Info.schema), ("storage", .map Slot.schema),
    ("status", .any)] .ignored

def toJson (account : Account) : Json :=
  .object [("address", account.address.toJson), ("info", account.info.toJson),
    ("storage", Storage.toJson account.storage), ("status", account.status.toJson)]

def ofJson? (json : Json) : Option Account := do
  match ← json.fields? ["address", "info", "storage", "status"] with
  | [some address, some info, some storage, some status] =>
    return {
      address := ← FixedBytes.ofJson? address
      info := ← Info.ofJson? info
      storage := ← Storage.ofJson? storage
      status := ← Status.ofJson? status }
  | _ => none

def layout : Json.Layout Account := ⟨schema, toJson, ofJson?⟩

end Account

namespace Accounts

def toJson (accounts : Accounts) : Json :=
  .object (accounts.entries.map fun entry => (entry.1.text, entry.2.toJson))

/-- A repeated address keeps its first place and has its last account. -/
def ofJson? (json : Json) : Option Accounts :=
  (json.entries? FixedBytes.ofText? Account.ofJson?).map fun entries =>
    entries.foldl (fun accounts entry => accounts.insert entry.1 entry.2) ∅

def layout : Json.Layout Accounts := ⟨.map Account.schema, toJson, ofJson?⟩

end Accounts

end Overlay
