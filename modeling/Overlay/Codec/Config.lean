import Overlay.Codec.Scalar
import Overlay.Config

/-! Prices, hardforks and configurations in JSON. -/

set_option autoImplicit false

namespace Overlay

namespace Gas.Schedule

def fieldNames : List String :=
  ["cold_account_access", "warm_account_access", "cold_storage_access", "warm_storage_access",
    "access_list_address", "access_list_storage_key"]

def toJson (schedule : Schedule) : Json :=
  .object (fieldNames.zip ([schedule.coldAccountAccess, schedule.warmAccountAccess,
    schedule.coldStorageAccess, schedule.warmStorageAccess, schedule.accessListAddress,
    schedule.accessListStorageKey].map Json.ofUInt64))

def ofJson? (json : Json) : Option Schedule := do
  let fields ← json.fields? fieldNames
  match ← fields.mapM fun field => field.bind Json.uint64? with
  | [coldAccount, warmAccount, coldStorage, warmStorage, listAddress, listKey] =>
    return ⟨coldAccount, warmAccount, coldStorage, warmStorage, listAddress, listKey⟩
  | _ => none

def schema : Json.Schema := .record (fieldNames.map fun name => (name, .any)) .ignored

def layout : Json.Layout Schedule := ⟨schema, toJson, ofJson?⟩

end Gas.Schedule

namespace Hardfork

def toJson (fork : Hardfork) : Json := .string fork.name

def ofJson? (json : Json) : Option Hardfork := json.case?.bind ofName?

def layout : Json.Layout Hardfork := ⟨.any, toJson, ofJson?⟩

end Hardfork

namespace Config

def schema : Json.Schema :=
  .record [("gas", Gas.Schedule.schema), ("precompiles", .any),
    ("extra_precompiles", .list (.bytes 20))] .ignored

def toJson (config : Config) : Json :=
  .object [("gas", config.gas.toJson), ("precompiles", config.hardfork.toJson),
    ("extra_precompiles", .ofList FixedBytes.toJson config.extraPrecompiles)]

/-- Repeated extra precompiles are kept. -/
def ofJson? (json : Json) : Option Config := do
  match ← json.fields? ["gas", "precompiles", "extra_precompiles"] with
  | [some gas, some hardfork, some extra] =>
    return {
      gas := ← Gas.Schedule.ofJson? gas
      hardfork := ← Hardfork.ofJson? hardfork
      extraPrecompiles := ← extra.list? FixedBytes.ofJson? }
  | _ => none

def layout : Json.Layout Config := ⟨schema, toJson, ofJson?⟩

end Config

end Overlay
