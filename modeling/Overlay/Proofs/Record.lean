import Overlay.Json.Record

/-! Records, lists and maps are read back from the objects and arrays that they are written as. -/

set_option autoImplicit false

namespace Overlay

variable {α β γ κ : Type}

theorem mapM_map_eq_some {f : α → β} {g : β → Option γ} {h : α → γ} {items : List α}
    (reads : ∀ item ∈ items, g (f item) = some (h item)) :
    (items.map f).mapM g = some (items.map h) := by
  induction items with
  | nil => rfl
  | cons item rest ih =>
    rw [List.map_cons, List.mapM_cons, reads item List.mem_cons_self,
      ih fun item member => reads item (List.mem_cons_of_mem _ member)]
    rfl

theorem find?_entry [DecidableEq κ] {entries : List (κ × α)}
    (distinct : (entries.map Prod.fst).Nodup) {entry : κ × α} (listed : entry ∈ entries) :
    entries.find? (fun other => other.1 = entry.1) = some entry := by
  induction entries with
  | nil => cases listed
  | cons first rest ih =>
    obtain ⟨missing, distinct⟩ := List.nodup_cons.mp distinct
    rcases List.mem_cons.mp listed with rfl | later
    · exact List.find?_cons_of_pos (by simp)
    · have other : first.1 ≠ entry.1 := fun same =>
        missing (List.mem_map.mpr ⟨entry, later, same.symm⟩)
      rw [List.find?_cons_of_neg (by simpa using other)]
      exact ih distinct later

namespace Json

section Fields

variable {members : List (String × Json)} (distinct : (members.map Prod.fst).Nodup)

include distinct

theorem not_isRepeated (name : String) : isRepeated members name = false := by
  have single : (members.filter fun member => member.1 = name).length ≤ 1 := by
    induction members with
    | nil => simp
    | cons first rest ih =>
      obtain ⟨missing, distinct⟩ := List.nodup_cons.mp distinct
      by_cases same : first.1 = name
      · have none_left : rest.filter (fun member => member.1 = name) = [] := by
          apply List.filter_eq_nil_iff.mpr
          intro member later hit
          exact missing (List.mem_map.mpr ⟨member, later, by simpa [same] using hit⟩)
        simp [same, none_left]
      · rw [List.filter_cons_of_neg (by simpa using same)]
        exact ih distinct
  simpa [isRepeated] using single

theorem named?_map :
    (object members).named? (members.map Prod.fst) = some (members.map (some ·.2)) := by
  have single : (members.map Prod.fst).any (isRepeated members) = false := by
    simp [not_isRepeated distinct]
  have found : (members.map Prod.fst).map (lookup? members) = members.map (some ·.2) := by
    rw [List.map_map]
    exact List.map_congr_left fun member listed =>
      congrArg (Option.map Prod.snd) (find?_entry distinct listed)
  rw [named?, single, found]
  rfl

end Fields

section Names

variable {names : List String} {members : List (String × Json)} (distinct : names.Nodup)
  (same : members.map Prod.fst = names)

include distinct same

theorem named?_object : (object members).named? names = some (members.map (some ·.2)) := by
  subst same
  exact named?_map distinct

theorem fields?_object : (object members).fields? names = some (members.map (some ·.2)) :=
  named?_object distinct same

end Names

variable {write : α → Json} {read : Json → Option α}

theorem list?_ofList {values : List α} (reads : ∀ value ∈ values, read (write value) = some value) :
    (ofList write values).list? read = some values := by
  have items := mapM_map_eq_some (h := id) reads
  rwa [List.map_id] at items

/-- An absent value is a null, which no value is written as. -/
theorem optional?_ofOption (present : ∀ value, write value ≠ null)
    (reads : ∀ value, read (write value) = some value) (value : Option α) :
    (ofOption write value).optional? read = some value := by
  cases value with
  | none => rfl
  | some value =>
    rw [ofOption, Option.elim, optional?, reads]
    · rfl
    · exact present value

end Json

end Overlay
