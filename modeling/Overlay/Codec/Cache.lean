import Overlay.Cache.Access
import Overlay.Codec.Account

/-! Caches, their outputs and their parts in JSON. -/

set_option autoImplicit false

namespace Overlay

namespace Load

variable {α : Type}

def toJson (write : α → Json) (load : Load α) : Json :=
  .object [("data", write load.data), ("is_cold", .bool load.isCold)]

def ofJson? (read : Json → Option α) (json : Json) : Option (Load α) := do
  match ← json.fields? ["data", "is_cold"] with
  | [some data, some isCold] => return { data := ← read data, isCold := ← isCold.bool? }
  | _ => none

def layout (data : Json.Layout α) : Json.Layout (Load α) :=
  ⟨.record [("data", data.schema), ("is_cold", .any)] .ignored, toJson data.write,
    ofJson? data.read?⟩

end Load

namespace Log

/-- All members of a log but its address are kept, also those that are not known. -/
def schema : Json.Schema := .record [("address", .bytes 20)] .any

def toJson (log : Log) : Json :=
  .object [("address", log.address.toJson), ("topics", .ofList FixedBytes.toJson log.topics),
    ("data", log.data.toJson)]

/-- A log is an object and never an array. -/
def ofJson? (json : Json) : Option Log := do
  match ← json.named? ["address", "topics", "data"] with
  | [some address, some topics, some data] =>
    return {
      address := ← FixedBytes.ofJson? address
      topics := ← topics.list? FixedBytes.ofJson?
      data := ← Bytes.ofJson? data }
  | _ => none

end Log

namespace Transfer

def schema : Json.Schema :=
  .record [("from", .bytes 20), ("to", .bytes 20), ("value", .any)] .ignored

def toJson (transfer : Transfer) : Json :=
  .object [("from", transfer.sender.toJson), ("to", transfer.recipient.toJson),
    ("value", transfer.value.toJson)]

def ofJson? (json : Json) : Option Transfer := do
  match ← json.fields? ["from", "to", "value"] with
  | [some sender, some recipient, some value] =>
    return {
      sender := ← FixedBytes.ofJson? sender
      recipient := ← FixedBytes.ofJson? recipient
      value := ← Word.ofJson? value }
  | _ => none

def layout : Json.Layout Transfer := ⟨schema, toJson, ofJson?⟩

end Transfer

namespace Refusal

def toJson (refusal : Refusal) : Json := .string refusal.name

def ofJson? (json : Json) : Option Refusal := json.case?.bind ofName?

def layout : Json.Layout Refusal := ⟨.any, toJson, ofJson?⟩

end Refusal

namespace Extent

def schema : Json.Schema := .record [("log_i", .any), ("transfer_i", .any)] .ignored

def toJson (extent : Extent) : Json :=
  .object [("log_i", .nat extent.logs), ("transfer_i", .nat extent.transfers)]

def ofJson? (json : Json) : Option Extent := do
  match ← json.fields? ["log_i", "transfer_i"] with
  | [some logs, some transfers] => return { logs := ← logs.nat?, transfers := ← transfers.nat? }
  | _ => none

def layout : Json.Layout Extent := ⟨schema, toJson, ofJson?⟩

end Extent

namespace Cache

def schema : Json.Schema :=
  .record [("accounts", .map Account.schema), ("touched_accounts", .list (.bytes 20)),
    ("logs", .list Log.schema), ("transfers", .list Transfer.schema),
    ("checkpoint", Extent.schema)] .ignored

def toJson (cache : Cache) : Json :=
  .object [("accounts", Accounts.toJson cache.accounts),
    ("touched_accounts", .ofList FixedBytes.toJson cache.warm.toList),
    ("logs", .ofList Log.toJson cache.logs), ("transfers", .ofList Transfer.toJson cache.transfers),
    ("checkpoint", cache.inherited.toJson)]

def ofJson? (json : Json) : Option Cache := do
  match ← json.fields? ["accounts", "touched_accounts", "logs", "transfers", "checkpoint"] with
  | [some accounts, some warm, some logs, some transfers, some inherited] =>
    return {
      accounts := ← Accounts.ofJson? accounts
      warm := .ofList (← warm.list? FixedBytes.ofJson?)
      logs := ← logs.list? Log.ofJson?
      transfers := ← transfers.list? Transfer.ofJson?
      inherited := ← Extent.ofJson? inherited }
  | _ => none

def layout : Json.Layout Cache := ⟨schema, toJson, ofJson?⟩

end Cache

namespace Output

def schema : Json.Schema :=
  .record [("accounts", .map Account.schema), ("logs", .list Log.schema),
    ("transfers", .list Transfer.schema)] .ignored

def toJson (output : Output) : Json :=
  .object [("accounts", Accounts.toJson output.accounts), ("logs", .ofList Log.toJson output.logs),
    ("transfers", .ofList Transfer.toJson output.transfers)]

def ofJson? (json : Json) : Option Output := do
  match ← json.fields? ["accounts", "logs", "transfers"] with
  | [some accounts, some logs, some transfers] =>
    return {
      accounts := ← Accounts.ofJson? accounts
      logs := ← logs.list? Log.ofJson?
      transfers := ← transfers.list? Transfer.ofJson? }
  | _ => none

def layout : Json.Layout Output := ⟨schema, toJson, ofJson?⟩

end Output

end Overlay
