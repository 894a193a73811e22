import Overlay.Codec.Ledger
import Overlay.Proofs.Roundtrip

/-!
Whether an info that is read from a text has the hash of its code. A reader takes the hash as it
stands and does not compare it with the code beside it, so this is up to the text: it has to give
the two in a pair. Of an address that comes more than once only the last account matters.
-/

set_option autoImplicit false

namespace Overlay

variable {α β κ : Type}

theorem forall₂_of_mapM {read : α → Option β} {items : List α} {values : List β}
    (made : items.mapM read = some values) :
    List.Forall₂ (fun item value => read item = some value) items values := by
  induction items generalizing values with
  | nil =>
    cases made
    exact .nil
  | cons item rest ih =>
    simp only [List.mapM_cons, Option.bind_eq_bind, Option.bind_eq_some_iff] at made
    obtain ⟨value, taken, others, later, made⟩ := made
    cases made
    exact .cons taken (ih later)

namespace Json

def Schema.names : Schema → List String
  | record fields _ => fields.map Prod.fst
  | _ => []

def field? (schema : Schema) (name : String) (json : Json) : Option Json :=
  (json.fields? schema.names).bind fun fields => fields[schema.names.idxOf name]?.join

def HasField (schema : Schema) (name : String) (holds : Json → Prop) (json : Json) : Prop :=
  ∃ value, json.field? schema name = some value ∧ holds value

section Keys

variable [DecidableEq κ] (key? : String → Option κ)

/-- The value of a key in an object that is a map. A key may come more than once and be spelled in
different ways; the last value counts. -/
def last? (key : κ) : Json → Option Json
  | object members =>
    (members.reverse.find? fun member => key? member.1 = some key).map Prod.snd
  | _ => none

def ForEach (holds : Json → Prop) (json : Json) : Prop :=
  ∀ key value, json.last? key? key = some value → holds value

end Keys

/-- The text is one of a value with the property. -/
def Layout.Shows (layout : Layout α) (holds : Json → Prop) (text : String) : Prop :=
  ∃ json, Json.parse? layout.schema text = some json ∧ holds json

/-- A reader gives something with a property exactly where the JSON has another. -/
def Reflects (read : Json → Option α) (property : α → Prop) (holds : Json → Prop) : Prop :=
  ∀ ⦃json value⦄, read json = some value → (property value ↔ holds json)

namespace Reflects

variable {read : Json → Option α} {property : α → Prop} {holds : Json → Prop}
  (reflects : Reflects read property holds)

include reflects

theorem bind {json? : Option Json} {value : α} (made : json?.bind read = some value) :
    property value ↔ ∃ json, json? = some json ∧ holds json := by
  obtain ⟨json, rfl, taken⟩ := Option.bind_eq_some_iff.mp made
  rw [reflects taken]
  constructor
  · exact fun held => ⟨json, rfl, held⟩
  · rintro ⟨other, same, held⟩
    cases same
    exact held

theorem field {schema : Schema} {name : String} {readRecord : Json → Option β} {part : β → α}
    (decode : List (Option Json) → Option β)
    (decodes : ∀ json, readRecord json = (json.fields? schema.names).bind decode)
    (found : ∀ fields value, decode fields = some value →
      fields[schema.names.idxOf name]?.join.bind read = some (part value)) :
    Reflects readRecord (fun value => property (part value)) (HasField schema name holds) := by
  intro json value made
  rw [decodes] at made
  obtain ⟨fields, named, made⟩ := Option.bind_eq_some_iff.mp made
  rw [HasField, field?, named]
  exact reflects.bind (found fields value made)

end Reflects

theorem Reflects.parse {layout : Layout α} {property : α → Prop} {holds : Json → Prop}
    (reflects : Reflects layout.read? property holds) {text : String} {value : α}
    (made : layout.parse? text = some value) : property value ↔ layout.Shows holds text :=
  reflects.bind made

/-! ## Maps -/

section Keys

variable [DecidableEq κ] {key? : String → Option κ} {read : Json → Option α}

theorem find?_reverse_of_entries? {json : Json} {entries : List (κ × α)}
    (made : json.entries? key? read = some entries) (key : κ) :
    (InsertionMap.find? key entries.reverse).map some = (json.last? key? key).map read := by
  cases json with
  | object members =>
    have alike := List.rel_reverse (forall₂_of_mapM made)
    rw [last?]
    generalize members.reverse = members, entries.reverse = entries at alike
    -- The induction goes from the last member back, with the entry that was read from it.
    induction alike with
    | nil => rfl
    | @cons member entry _ _ same _ ih =>
      simp only [Option.bind_eq_bind, Option.bind_eq_some_iff] at same
      obtain ⟨spelled, named, value, taken, same⟩ := same
      cases same
      by_cases hit : spelled = key
      · simp [InsertionMap.find?, named, taken, hit]
      · simpa [InsertionMap.find?, named, hit] using ih
  | _ => cases made

/-- Whatever the map is that the entries are put into, if it does what a map does. -/
theorem Reflects.map {property : α → Prop} {holds : Json → Prop}
    (reflects : Reflects read property holds) (key? : String → Option κ) {Map : Type}
    {insert : Map → κ → α → Map} (lookup : Map → κ → Option α)
    (written : ∀ map key other value, lookup (insert map key value) other =
      if key = other then some value else lookup map other)
    {bare : Map} (missing : ∀ key, lookup bare key = none) :
    Reflects
      (fun json => (json.entries? key? read).map fun entries =>
        entries.foldl (fun map entry => insert map entry.1 entry.2) bare)
      (fun map => ∀ key value, lookup map key = some value → property value)
      (ForEach key? holds) := by
  intro json map made
  obtain ⟨entries, taken, rfl⟩ := Option.map_eq_some_iff.mp made
  have counts (key : κ) := find?_reverse_of_entries? taken key
  simp only [InsertionMap.lookup_foldl lookup written, missing, Option.or_none]
  constructor
  · intro proper key member last
    obtain ⟨value, found, taken⟩ :=
      Option.map_eq_some_iff.mp ((counts key).trans (congrArg (Option.map read) last))
    exact (reflects taken.symm).mp (proper key value found)
  · intro held key value found
    obtain ⟨member, last, taken⟩ :=
      Option.map_eq_some_iff.mp ((counts key).symm.trans (congrArg (Option.map some) found))
    exact (reflects taken).mpr (held key member last)

end Keys

end Json

/-! ## Infos and what holds them -/

open Json (Reflects HasField ForEach)

namespace Info

/-- Beside the code there is its hash. -/
def Paired (json : Json) : Prop :=
  ∃ code, (json.field? schema "code").bind Bytes.ofJson? = some code ∧
    (json.field? schema "code_hash").bind FixedBytes.ofJson? = some (codeHashOf code)

theorem fields_of_ofJson? {json : Json} {info : Info} (made : ofJson? json = some info) :
    (json.field? schema "code").bind Bytes.ofJson? = some info.code ∧
      (json.field? schema "code_hash").bind FixedBytes.ofJson? = some info.codeHash := by
  unfold ofJson? at made
  obtain ⟨fields, found, made⟩ := Option.bind_eq_some_iff.mp made
  split at made
  · have named : json.fields? schema.names = some _ := found
    simp only [Option.bind_eq_bind, Option.bind_eq_some_iff] at made
    obtain ⟨_, _, _, _, codeHash, hashed, code, coded, made⟩ := made
    cases made
    rw [Json.field?, Json.field?, named]
    exact ⟨coded, hashed⟩
  · cases made

theorem reflects : Reflects ofJson? Coherent Paired := by
  intro json info made
  obtain ⟨coded, hashed⟩ := fields_of_ofJson? made
  constructor
  · exact fun coherent => ⟨info.code, coded, coherent ▸ hashed⟩
  · rintro ⟨code, same, paired⟩
    rw [coded, Option.some.injEq] at same
    rw [hashed, Option.some.injEq, ← same] at paired
    exact paired

end Info

namespace Account

def Paired : Json → Prop := HasField schema "info" Info.Paired

theorem reflects : Reflects ofJson? (fun account => account.info.Coherent) Paired := by
  refine Info.reflects.field _ (fun _ => rfl) fun fields account made => ?_
  split at made
  · simp only [Option.bind_eq_bind, Option.bind_eq_some_iff] at made
    obtain ⟨_, _, info, taken, _, _, _, _, made⟩ := made
    cases made
    exact taken
  · cases made

end Account

namespace Accounts

def Coherent (accounts : Accounts) : Prop :=
  ∀ address account, accounts.get? address = some account → account.info.Coherent

def Paired : Json → Prop :=
  ForEach (FixedBytes.ofText? : String → Option Address) Account.Paired

theorem reflects : Reflects ofJson? Coherent Paired :=
  Account.reflects.map _ InsertionMap.get? InsertionMap.get?_insert InsertionMap.get?_empty

end Accounts

namespace Cache

def Paired : Json → Prop := HasField schema "accounts" Accounts.Paired

theorem reflects : Reflects ofJson? (fun cache => cache.accounts.Coherent) Paired := by
  refine Accounts.reflects.field _ (fun _ => rfl) fun fields cache made => ?_
  split at made
  · simp only [Option.bind_eq_bind, Option.bind_eq_some_iff] at made
    obtain ⟨accounts, taken, _, _, _, _, _, _, _, _, made⟩ := made
    cases made
    exact taken
  · cases made

end Cache

namespace Output

def Paired : Json → Prop := HasField schema "accounts" Accounts.Paired

theorem reflects : Reflects ofJson? (fun output => output.accounts.Coherent) Paired := by
  refine Accounts.reflects.field _ (fun _ => rfl) fun fields output made => ?_
  split at made
  · simp only [Option.bind_eq_bind, Option.bind_eq_some_iff] at made
    obtain ⟨accounts, taken, _, _, _, _, made⟩ := made
    cases made
    exact taken
  · cases made

end Output

namespace MemoryLedger

namespace Record

def Paired : Json → Prop := HasField schema "info" Info.Paired

theorem reflects : Reflects ofJson? (fun record : Record => record.info.Coherent) Paired := by
  refine Info.reflects.field _ (fun _ => rfl) fun fields record made => ?_
  split at made
  · simp only [Option.bind_eq_bind, Option.bind_eq_some_iff] at made
    obtain ⟨_, _, info, taken, made⟩ := made
    cases made
    exact taken
  · cases made

end Record

def Coherent (memory : MemoryLedger) : Prop :=
  ∀ (address : Address) (record : Record),
    memory.accounts[address]? = some record → record.info.Coherent

def Paired : Json → Prop :=
  HasField layout.schema "accounts"
    (ForEach (FixedBytes.ofText? : String → Option Address) Record.Paired)

theorem reflects : Reflects ofJson? Coherent Paired := by
  have accounts := Record.reflects.map FixedBytes.ofText?
    (fun (accounts : Std.ExtTreeMap Address Record) address => accounts[address]?)
    getElem?_insert_eq fun _ => Std.ExtTreeMap.getElem?_empty
  refine accounts.field _ (fun _ => rfl) fun fields memory made => ?_
  split at made
  · simp only [Option.bind_eq_bind, Option.bind_eq_some_iff] at made
    obtain ⟨entries, taken, made⟩ := made
    cases made
    exact Option.map_eq_some_iff.mpr ⟨entries, taken, rfl⟩
  · cases made

end MemoryLedger

/-! ## Texts -/

theorem Info.parse?_text (info : Info) : layout.parse? (layout.text info) = some info :=
  Json.Layout.parse?_print (info.kept_toJson 126) info.ofJson?_toJson

/-- No hash is computed or compared when a text is read: what comes out is coherent if and only if
the text has, in every account that counts, the hash of the code beside it. -/
theorem coherent_iff_shows (text : String) :
    (∀ info, Info.layout.parse? text = some info →
      (info.Coherent ↔ Info.layout.Shows Info.Paired text)) ∧
    (∀ account, Account.layout.parse? text = some account →
      (account.info.Coherent ↔ Account.layout.Shows Account.Paired text)) ∧
    (∀ memory, MemoryLedger.layout.parse? text = some memory →
      (memory.Coherent ↔ MemoryLedger.layout.Shows MemoryLedger.Paired text)) ∧
    (∀ cache, Cache.layout.parse? text = some cache →
      (cache.accounts.Coherent ↔ Cache.layout.Shows Cache.Paired text)) ∧
    (∀ output, Output.layout.parse? text = some output →
      (output.accounts.Coherent ↔ Output.layout.Shows Output.Paired text)) :=
  ⟨fun _ made => Info.reflects.parse made, fun _ made => Account.reflects.parse made,
    fun _ made => MemoryLedger.reflects.parse made, fun _ made => Cache.reflects.parse made,
    fun _ made => Output.reflects.parse made⟩

/-- An info without code, with its hash and with another one inside an output. -/
theorem shows_only_with_hash :
    let address := FixedBytes.ofNat 20 1
    let account : Account := { address, info := { codeHash := FixedBytes.zero 32 } }
    let output : Output := { accounts := InsertionMap.insert ∅ address account }
    (Info.layout.parse? (Info.layout.text {}) = some {} ∧
        Info.layout.Shows Info.Paired (Info.layout.text {})) ∧
      Output.layout.parse? (Output.layout.text output) = some output ∧
        ¬ Output.layout.Shows Output.Paired (Output.layout.text output) := by
  intro address account output
  have info := Info.parse?_text {}
  have read := (Output.writtenAs_toJson output).parse?
  have mismatched : ¬ output.accounts.Coherent := fun coherent =>
    absurd (coherent address account (InsertionMap.get?_insert_self ..)) (by decide)
  refine ⟨⟨info, ?_⟩, read, fun shown => mismatched ?_⟩
  · exact ((coherent_iff_shows (Info.layout.text {})).1 _ info).mp rfl
  · exact ((coherent_iff_shows (Output.layout.text output)).2.2.2.2 _ read).mpr shown

/-- Zero is taken for the hash of no code. -/
theorem parse?_zero_hash :
    let info : Info := { codeHash := FixedBytes.zero 32 }
    Info.layout.parse? ("\x7b\"balance\":\"0x0\",\"nonce\":0,\"code_hash\":\"" ++
        "0x0000000000000000000000000000000000000000000000000000000000000000" ++
        "\",\"code\":\"0x\"\x7d") = some info ∧
      ¬ info.Coherent := by
  intro info
  refine ⟨?_, by decide⟩
  rw [← info.parse?_text]
  exact congrArg _ (by decide +kernel)

end Overlay
