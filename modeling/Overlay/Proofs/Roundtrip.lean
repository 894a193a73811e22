import Mathlib.Data.List.Forall2
import Overlay.Codec.Cache
import Overlay.Codec.Config
import Overlay.Proofs.Print
import Overlay.Proofs.Scalar
import Overlay.Proofs.WellFormed

/-!
Caches and outputs survive being written as text and read back, with the order of everything that
has one. The slots of an account have none, so they may be written in any order. Configurations and
the refusals of transfers are read back as well.
-/

set_option autoImplicit false

namespace Overlay

open Json (Kept)

/-! ## What a value can be written as -/

/-- The slots stand in any order. -/
def Storage.WrittenAs (storage : Storage) (json : Json) : Prop :=
  ∃ slots : List (Word × Slot), slots.Perm storage.toList ∧
    json = .object (slots.map fun entry => (entry.1.text, entry.2.toJson))

def Account.WrittenAs (account : Account) (json : Json) : Prop :=
  ∃ storage, Storage.WrittenAs account.storage storage ∧
    json = .object [("address", account.address.toJson), ("info", account.info.toJson),
      ("storage", storage), ("status", account.status.toJson)]

def Accounts.WrittenAs (accounts : Accounts) (json : Json) : Prop :=
  ∃ members, List.Forall₂ (fun entry member =>
      member.1 = FixedBytes.text entry.1 ∧ Account.WrittenAs entry.2 member.2)
    accounts.entries members ∧ json = .object members

def Output.WrittenAs (output : Output) (json : Json) : Prop :=
  ∃ accounts, Accounts.WrittenAs output.accounts accounts ∧
    json = .object [("accounts", accounts), ("logs", .ofList Log.toJson output.logs),
      ("transfers", .ofList Transfer.toJson output.transfers)]

def Cache.WrittenAs (cache : Cache) (json : Json) : Prop :=
  ∃ accounts, Accounts.WrittenAs cache.accounts accounts ∧
    json = .object [("accounts", accounts),
      ("touched_accounts", .ofList FixedBytes.toJson cache.warm.toList),
      ("logs", .ofList Log.toJson cache.logs),
      ("transfers", .ofList Transfer.toJson cache.transfers),
      ("checkpoint", cache.inherited.toJson)]

theorem Storage.writtenAs_toJson (storage : Storage) : storage.WrittenAs (toJson storage) := by
  refine ⟨_, List.mergeSort_perm _ fun first second => decide (first.1.text ≤ second.1.text), ?_⟩
  have sorted := List.map_mergeSort (l := storage.toList) (s := fun first second : String × Json =>
    decide (first.1 ≤ second.1)) (f := fun entry : Word × Slot => (entry.1.text, entry.2.toJson))
    fun _ _ _ _ => rfl
  exact congrArg Json.object sorted.symm

theorem Account.writtenAs_toJson (account : Account) : account.WrittenAs account.toJson :=
  ⟨_, Storage.writtenAs_toJson account.storage, rfl⟩

theorem Accounts.writtenAs_toJson (accounts : Accounts) : accounts.WrittenAs (toJson accounts) := by
  refine ⟨_, ?_, rfl⟩
  rw [List.forall₂_map_right_iff]
  exact List.forall₂_same.mpr fun entry _ => ⟨rfl, entry.2.writtenAs_toJson⟩

theorem Output.writtenAs_toJson (output : Output) : output.WrittenAs output.toJson :=
  ⟨_, Accounts.writtenAs_toJson output.accounts, rfl⟩

theorem Cache.writtenAs_toJson (cache : Cache) : cache.WrittenAs cache.toJson :=
  ⟨_, Accounts.writtenAs_toJson cache.accounts, rfl⟩

/-! ## Values -/

theorem Json.Layout.parse?_print {α : Type} {layout : Json.Layout α} {json : Json} {value : α}
    (kept : Kept 127 layout.schema json) (read : layout.read? json = some value) :
    layout.parse? json.print = some value := by
  rw [parse?, kept.parse?_print]
  exact read

namespace Info

variable (info : Info)

theorem ofJson?_toJson : ofJson? info.toJson = some info := by
  rw [ofJson?, toJson, Json.fields?_object]
  · simp [Word.ofJson?_toJson, Json.uint64?_ofUInt64, FixedBytes.ofJson?_toJson,
      Bytes.ofJson?_toJson]
  · decide
  · rfl

theorem kept_toJson (room : Nat) : Kept (room + 1) schema info.toJson := by
  refine .object Json.Schema.noConfusion ?_
  simp only [List.forall_mem_cons]
  refine ⟨.string ?_ _, .nat ?_ info.nonce.toNat_lt, .string ?_ _, .string ?_ _, ?_⟩
  all_goals simp [schema, Json.Schema.member, List.lookup_cons]

end Info

namespace Slot

variable (slot : Slot)

theorem ofJson?_toJson : ofJson? slot.toJson = some slot := by
  rw [ofJson?, toJson, Json.fields?_object]
  · simp [Word.optional?_toJson, Access.ofJson?_toJson]
  · decide
  · rfl

theorem kept_ofOption {schema : Json.Schema} (wanted : schema ≠ .ignored) (room : Nat)
    (value : Option Word) : Kept room schema (.ofOption Word.toJson value) := by
  cases value with
  | none => exact .null wanted
  | some value => exact .string wanted _

theorem kept_toJson (room : Nat) : Kept (room + 1) schema slot.toJson := by
  refine .object Json.Schema.noConfusion ?_
  simp only [List.forall_mem_cons]
  refine ⟨kept_ofOption ?_ _ _, kept_ofOption ?_ _ _, .string ?_ _, ?_⟩
  all_goals simp [schema, Json.Schema.member, List.lookup_cons]

end Slot

theorem getElem?_insert_eq {κ α : Type} [Ord κ] [Std.TransOrd κ] [Std.LawfulEqOrd κ]
    [DecidableEq κ] (map : Std.ExtTreeMap κ α) (key other : κ) (value : α) :
    (map.insert key value)[other]? = if key = other then some value else map[other]? := by
  simp only [Std.ExtTreeMap.getElem?_insert, Std.LawfulEqOrd.compare_eq_iff_eq]

namespace Storage

variable {storage : Storage} {json : Json}

theorem nodup_keys : (storage.toList.map Prod.fst).Nodup := by
  rw [List.Nodup, List.pairwise_map]
  exact Std.ExtTreeMap.distinct_keys_toList.imp fun different same =>
    different (Std.LawfulEqOrd.compare_eq_iff_eq.mpr same)

theorem foldl_insert {slots : List (Word × Slot)} (perm : slots.Perm storage.toList) :
    slots.foldl (fun storage entry => storage.insert entry.1 entry.2) ∅ = storage := by
  have any_order : slots.reverse.Perm storage.toList := (List.reverse_perm slots).trans perm
  have distinct : (slots.reverse.map Prod.fst).Nodup :=
    (any_order.map Prod.fst).nodup_iff.mpr nodup_keys
  apply Std.ExtTreeMap.ext_getElem?
  intro key
  rw [InsertionMap.lookup_foldl (fun storage key => storage[key]?) getElem?_insert_eq,
    Std.ExtTreeMap.getElem?_empty, Option.or_none]
  apply Option.ext
  intro slot
  rw [InsertionMap.find?_eq_some_iff distinct, any_order.mem_iff]
  exact Std.ExtTreeMap.mem_toList_iff_getElem?_eq_some

theorem WrittenAs.ofJson? (written : storage.WrittenAs json) : ofJson? json = some storage := by
  obtain ⟨slots, perm, rfl⟩ := written
  have entries : (Json.object (slots.map fun entry => (entry.1.text, entry.2.toJson))).entries?
      Word.read? Slot.ofJson? = some slots := by
    refine (mapM_map_eq_some (h := id) fun entry _ => ?_).trans (congrArg some slots.map_id)
    simp [Word.read?_text, Slot.ofJson?_toJson]
  rw [Storage.ofJson?, entries, Option.map_some, foldl_insert perm]

theorem WrittenAs.kept (written : storage.WrittenAs json) (room : Nat) :
    Kept (room + 2) (.map Slot.schema) json := by
  obtain ⟨slots, perm, rfl⟩ := written
  refine .object Json.Schema.noConfusion fun member listed => ?_
  obtain ⟨entry, _, rfl⟩ := List.mem_map.mp listed
  exact entry.2.kept_toJson room

end Storage

namespace Account

variable {account : Account} {json : Json}

theorem WrittenAs.ofJson? (written : account.WrittenAs json) : ofJson? json = some account := by
  obtain ⟨storage, stored, rfl⟩ := written
  rw [Account.ofJson?, Json.fields?_object]
  · simp [FixedBytes.ofJson?_toJson, Info.ofJson?_toJson, stored.ofJson?, Status.ofJson?_toJson]
  · decide
  · rfl

theorem WrittenAs.kept (written : account.WrittenAs json) (room : Nat) :
    Kept (room + 3) schema json := by
  obtain ⟨storage, stored, rfl⟩ := written
  refine .object Json.Schema.noConfusion ?_
  simp only [List.forall_mem_cons]
  refine ⟨.string ?_ _, account.info.kept_toJson (room + 1), stored.kept room, .string ?_ _, ?_⟩
  all_goals simp [schema, Json.Schema.member, List.lookup_cons]

end Account

namespace Accounts

variable {accounts : Accounts} {json : Json}

theorem foldl_insert :
    accounts.entries.foldl (fun accounts entry => accounts.insert entry.1 entry.2) ∅ = accounts :=
  InsertionMap.union_eq_right List.nil_prefix

theorem WrittenAs.ofJson? (written : accounts.WrittenAs json) : ofJson? json = some accounts := by
  obtain ⟨members, alike, rfl⟩ := written
  have entries : (Json.object members).entries? FixedBytes.ofText? Account.ofJson? =
      some accounts.entries := by
    rw [Json.entries?]
    -- The induction is on the pairs of an entry and the member that it is written as.
    generalize accounts.entries = entries at alike
    induction alike with
    | nil => rfl
    | @cons entry member _ _ same _ ih =>
      rw [List.mapM_cons, ih, same.1, entry.1.ofText?_text, same.2.ofJson?]
      rfl
  rw [Accounts.ofJson?, entries, Option.map_some, foldl_insert]

theorem WrittenAs.kept (written : accounts.WrittenAs json) (room : Nat) :
    Kept (room + 4) (.map Account.schema) json := by
  obtain ⟨members, alike, rfl⟩ := written
  refine .object Json.Schema.noConfusion fun member listed => ?_
  generalize accounts.entries = entries at alike
  induction alike with
  | nil => cases listed
  | cons same _ ih =>
    rcases List.mem_cons.mp listed with rfl | later
    · exact same.2.kept room
    · exact ih later

end Accounts

theorem Json.Kept.ofList {α : Type} {write : α → Json} {schema : Json.Schema} {room : Nat}
    {values : List α} (wanted : schema ≠ .ignored) (list : ∀ size, schema ≠ .bytes size)
    (kept : ∀ value ∈ values, ∀ index, Kept room (schema.item index) (write value)) :
    Kept (room + 1) schema (.ofList write values) := by
  refine .array wanted list fun item listed index => ?_
  obtain ⟨value, member, rfl⟩ := List.mem_map.mp listed
  exact kept value member index

theorem Json.Kept.list {α : Type} {write : α → Json} {item : Json.Schema} {room : Nat}
    (kept : ∀ value, Kept room item (write value)) (values : List α) :
    Kept (room + 1) (.list item) (.ofList write values) :=
  .ofList Json.Schema.noConfusion (fun _ => Json.Schema.noConfusion) fun value _ _ => kept value

namespace Log

variable (log : Log)

theorem ofJson?_toJson : ofJson? log.toJson = some log := by
  have topics := Json.list?_ofList fun topic (_ : topic ∈ log.topics) =>
    FixedBytes.ofJson?_toJson topic
  rw [ofJson?, toJson, Json.named?_object]
  · simp [FixedBytes.ofJson?_toJson, topics, Bytes.ofJson?_toJson]
  · decide
  · rfl

theorem kept_toJson (room : Nat) : Kept (room + 2) schema log.toJson := by
  refine .object Json.Schema.noConfusion ?_
  simp only [List.forall_mem_cons]
  have topics : schema.member "topics" = .any := rfl
  refine ⟨.string ?_ _, ?_, .string ?_ _, ?_⟩
  · simp [schema, Json.Schema.member]
  · rw [topics]
    exact .ofList Json.Schema.noConfusion (fun _ => Json.Schema.noConfusion)
      fun topic _ _ => .string Json.Schema.noConfusion _
  all_goals simp [schema, Json.Schema.member, List.lookup_cons]

end Log

namespace Transfer

variable (transfer : Transfer)

theorem ofJson?_toJson : ofJson? transfer.toJson = some transfer := by
  rw [ofJson?, toJson, Json.fields?_object]
  · simp [FixedBytes.ofJson?_toJson, Word.ofJson?_toJson]
  · decide
  · rfl

theorem kept_toJson (room : Nat) : Kept (room + 1) schema transfer.toJson := by
  refine .object Json.Schema.noConfusion ?_
  simp only [List.forall_mem_cons]
  refine ⟨.string ?_ _, .string ?_ _, .string ?_ _, ?_⟩
  all_goals simp [schema, Json.Schema.member, List.lookup_cons]

end Transfer

namespace Extent

variable {extent : Extent} (logs : extent.logs < 2 ^ 64) (transfers : extent.transfers < 2 ^ 64)

include logs transfers

theorem ofJson?_toJson : ofJson? extent.toJson = some extent := by
  rw [ofJson?, toJson, Json.fields?_object]
  · simp [Json.nat?, logs, transfers]
  · decide
  · rfl

theorem kept_toJson (room : Nat) : Kept (room + 1) schema extent.toJson := by
  refine .object Json.Schema.noConfusion ?_
  simp only [List.forall_mem_cons]
  refine ⟨.nat ?_ logs, .nat ?_ transfers, ?_⟩
  all_goals simp [schema, Json.Schema.member, List.lookup_cons]

end Extent

namespace Refusal

theorem parse?_text (refusal : Refusal) : layout.parse? (layout.text refusal) = some refusal :=
  Json.Layout.parse?_print (.string Json.Schema.noConfusion _) (ofName?_name refusal)

end Refusal

namespace Gas.Schedule

variable (schedule : Schedule)

theorem ofJson?_toJson : ofJson? schedule.toJson = some schedule := by
  rw [ofJson?, toJson, Json.fields?_object]
  · simp [fieldNames, Json.uint64?_ofUInt64]
  · decide
  · rfl

theorem kept_toJson (room : Nat) : Kept (room + 1) schema schedule.toJson := by
  have plain : ∀ name ∈ fieldNames, schema.member name = .any := by
    simp [fieldNames, schema, Json.Schema.member, List.lookup_cons]
  refine .object Json.Schema.noConfusion fun member listed => ?_
  obtain ⟨named, valued⟩ := List.of_mem_zip listed
  obtain ⟨price, _, same⟩ := List.mem_map.mp valued
  rw [plain _ named, ← same]
  exact .nat Json.Schema.noConfusion price.toNat_lt

end Gas.Schedule

namespace Config

variable (config : Config)

theorem ofJson?_toJson : ofJson? config.toJson = some config := by
  have extra := Json.list?_ofList fun address (_ : address ∈ config.extraPrecompiles) =>
    FixedBytes.ofJson?_toJson address
  have hardfork : Hardfork.ofJson? config.hardfork.toJson = some config.hardfork :=
    Hardfork.ofName?_name config.hardfork
  rw [ofJson?, toJson, Json.fields?_object]
  · simp [config.gas.ofJson?_toJson, hardfork, extra]
  · decide
  · rfl

theorem kept_toJson (room : Nat) : Kept (room + 2) schema config.toJson := by
  refine .object Json.Schema.noConfusion ?_
  simp only [List.forall_mem_cons]
  refine ⟨config.gas.kept_toJson room, .string ?_ _, ?_, ?_⟩
  · simp [schema, Json.Schema.member, List.lookup_cons]
  · exact .list (fun address => .string Json.Schema.noConfusion _) _
  · simp

theorem parse?_text : layout.parse? (layout.text config) = some config :=
  Json.Layout.parse?_print (config.kept_toJson 125) config.ofJson?_toJson

end Config

namespace Output

variable {output : Output} {json : Json}

theorem WrittenAs.ofJson? (written : output.WrittenAs json) : ofJson? json = some output := by
  obtain ⟨accounts, stored, rfl⟩ := written
  have logs := Json.list?_ofList fun log (_ : log ∈ output.logs) => log.ofJson?_toJson
  have transfers := Json.list?_ofList fun transfer (_ : transfer ∈ output.transfers) =>
    transfer.ofJson?_toJson
  rw [Output.ofJson?, Json.fields?_object]
  · simp [stored.ofJson?, logs, transfers]
  · decide
  · rfl

theorem WrittenAs.kept (written : output.WrittenAs json) (room : Nat) :
    Kept (room + 5) schema json := by
  obtain ⟨accounts, stored, rfl⟩ := written
  refine .object Json.Schema.noConfusion ?_
  simp only [List.forall_mem_cons]
  refine ⟨stored.kept room, ?_, ?_, ?_⟩
  · exact .list (fun log => log.kept_toJson (room + 1)) _
  · exact .list (fun transfer => transfer.kept_toJson (room + 2)) _
  · simp

theorem WrittenAs.parse? (written : output.WrittenAs json) :
    layout.parse? json.print = some output :=
  Json.Layout.parse?_print (written.kept 122) written.ofJson?

end Output

namespace Cache

variable {cache : Cache} {json : Json} (logs : cache.inherited.logs < 2 ^ 64)
  (transfers : cache.inherited.transfers < 2 ^ 64)

theorem ofList_warm (set : InsertionSet Address) : InsertionSet.ofList set.toList = set :=
  InsertionSet.union_eq_right List.nil_prefix

include logs transfers

theorem WrittenAs.ofJson? (written : cache.WrittenAs json) : ofJson? json = some cache := by
  obtain ⟨accounts, stored, rfl⟩ := written
  have warm := Json.list?_ofList fun address (_ : address ∈ cache.warm.toList) =>
    FixedBytes.ofJson?_toJson address
  have emitted := Json.list?_ofList fun log (_ : log ∈ cache.logs) => log.ofJson?_toJson
  have moved := Json.list?_ofList fun transfer (_ : transfer ∈ cache.transfers) =>
    transfer.ofJson?_toJson
  rw [Cache.ofJson?, Json.fields?_object]
  · simp [stored.ofJson?, warm, emitted, moved, Extent.ofJson?_toJson logs transfers, ofList_warm]
  · decide
  · rfl

theorem WrittenAs.kept (written : cache.WrittenAs json) (room : Nat) :
    Kept (room + 5) schema json := by
  obtain ⟨accounts, stored, rfl⟩ := written
  refine .object Json.Schema.noConfusion ?_
  simp only [List.forall_mem_cons]
  refine ⟨stored.kept room, ?_, ?_, ?_, Extent.kept_toJson logs transfers (room + 3), ?_⟩
  · exact .list (fun address => .string Json.Schema.noConfusion _) _
  · exact .list (fun log => log.kept_toJson (room + 1)) _
  · exact .list (fun transfer => transfer.kept_toJson (room + 2)) _
  · simp

theorem WrittenAs.parse? (written : cache.WrittenAs json) :
    layout.parse? json.print = some cache :=
  Json.Layout.parse?_print (written.kept logs transfers 122) (written.ofJson? logs transfers)

end Cache

namespace Reachable

variable {ε : Type} {Admitted : Ledger ε → Prop} {cache : Cache}

/-- Whatever was done to a cache, the output that it hands over is read back from every text that it
can be written as. So is the cache itself, given that a machine can count its logs and transfers. -/
theorem read_back (reachable : Reachable Admitted cache) :
    (cache.takeOutput.1.WrittenAs (Output.layout.write cache.takeOutput.1) ∧
      ∀ json, cache.takeOutput.1.WrittenAs json →
        Output.layout.parse? json.print = some cache.takeOutput.1) ∧
      cache.WrittenAs (Cache.layout.write cache) ∧
        (cache.logs.length < 2 ^ 64 → cache.transfers.length < 2 ^ 64 →
          ∀ json, cache.WrittenAs json → Cache.layout.parse? json.print = some cache) := by
  refine ⟨⟨Output.writtenAs_toJson _, fun json written => written.parse?⟩,
    Cache.writtenAs_toJson _, fun logs transfers json written => written.parse? ?_ ?_⟩
  · exact Nat.lt_of_le_of_lt reachable.inherited_le.1 logs
  · exact Nat.lt_of_le_of_lt reachable.inherited_le.2 transfers

/-- A slot without a value, one that was set to zero, code, and an account that is not handed over:
all of it is read back. -/
theorem read_back_after_calls :
    let ledger : Ledger Unit := .empty
    let first := FixedBytes.ofNat 20 1
    let second := FixedBytes.ofNat 20 2
    let program : Program := .perform (.warmSlot second 7)
      (.perform (.setCode first [96, 0]) (.perform (.writeSlot first 1 0)
        (.frame (.perform (.emit ⟨first, [FixedBytes.zero 32], [1]⟩) .done) .commit .done)))
    let cache := (program.run ⟨ledger, {}⟩ {}).cache
    ((cache.entry second).slot? 7 = some Slot.warm ∧
        (cache.entry first).current? 1 = some 0 ∧ (cache.entry first).info.code = [96, 0]) ∧
      Cache.layout.parse? (Cache.layout.text cache) = some cache ∧
        Output.layout.parse? (Output.layout.text cache.takeOutput.1) = some cache.takeOutput.1 := by
  intro ledger first second program cache
  have reachable : Reachable (fun _ => True) cache := Reachable.new.run ⟨ledger, {}⟩ trivial program
  obtain ⟨⟨handed, output⟩, written, read⟩ := reachable.read_back
  exact ⟨⟨rfl, rfl, rfl⟩, read (by decide) (by decide) _ written, output _ handed⟩

end Reachable

end Overlay
