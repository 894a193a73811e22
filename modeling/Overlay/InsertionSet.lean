/-! Finite sets that remember the order in which their members were first inserted. -/

set_option autoImplicit false

namespace Overlay

structure InsertionSet (α : Type) where
  toList : List α
  nodup : toList.Nodup
  deriving DecidableEq

namespace InsertionSet

variable {α : Type} [DecidableEq α]

instance : EmptyCollection (InsertionSet α) := ⟨⟨[], List.nodup_nil⟩⟩

instance : Membership α (InsertionSet α) := ⟨fun set a => a ∈ set.toList⟩

instance (set : InsertionSet α) (a : α) : Decidable (a ∈ set) :=
  inferInstanceAs (Decidable (a ∈ set.toList))

def insert (set : InsertionSet α) (a : α) : InsertionSet α :=
  if fresh : a ∈ set.toList then set
  else
    { toList := set.toList ++ [a]
      nodup := List.nodup_append.mpr ⟨set.nodup, by simp, by
        intro b found c single
        rw [List.mem_singleton.mp single]
        exact fun same => fresh (same ▸ found)⟩ }

def union (set other : InsertionSet α) : InsertionSet α :=
  other.toList.foldl insert set

def ofList (members : List α) : InsertionSet α :=
  members.foldl insert ∅

def agrees (first second : InsertionSet α) : Bool :=
  first.toList.length == second.toList.length && first.toList.all fun a => decide (a ∈ second)

omit [DecidableEq α] in
@[simp] theorem not_mem_empty (a : α) : a ∉ (∅ : InsertionSet α) := List.not_mem_nil

theorem toList_insert (set : InsertionSet α) (a : α) :
    (set.insert a).toList = if a ∈ set then set.toList else set.toList ++ [a] := by
  by_cases found : a ∈ set.toList
  · rw [insert, dif_pos found]
    exact (if_pos found).symm
  · rw [insert, dif_neg found]
    exact (if_neg found).symm

theorem mem_insert {set : InsertionSet α} {a b : α} : b ∈ set.insert a ↔ b ∈ set ∨ b = a := by
  show b ∈ (set.insert a).toList ↔ b ∈ set.toList ∨ b = a
  rw [toList_insert]
  split
  · next found =>
    exact ⟨Or.inl, fun either => either.elim id fun same => same ▸ found⟩
  · simp

theorem insert_of_mem {set : InsertionSet α} {a : α} (found : a ∈ set) : set.insert a = set :=
  dif_pos found

/-- New members are appended in the order of their first occurrences. -/
theorem toList_foldl_insert (members : List α) (set : InsertionSet α) :
    (members.foldl insert set).toList =
      set.toList ++ (members.filter (· ∉ set.toList)).eraseDups := by
  induction members generalizing set with
  | nil => simp
  | cons a rest ih =>
    rw [List.foldl_cons, ih, toList_insert]
    by_cases found : a ∈ set
    · have listed : a ∈ set.toList := found
      rw [if_pos found, List.filter_cons_of_neg (by simpa using listed)]
    · have unlisted : a ∉ set.toList := found
      rw [if_neg found, List.filter_cons_of_pos (by simpa using unlisted), List.eraseDups_cons,
        List.filter_filter, List.append_assoc, List.singleton_append]
      congr 3
      apply List.filter_congr
      intro b _
      by_cases same : b = a <;> simp [same]

private theorem eraseDups_of_nodup {members : List α} (distinct : members.Nodup) :
    members.eraseDups = members := by
  induction members with
  | nil => rfl
  | cons a rest ih =>
    obtain ⟨missing, distinct⟩ := List.nodup_cons.mp distinct
    have others : rest.filter (fun b => !b == a) = rest := by
      apply List.filter_eq_self.mpr
      intro b member
      have different : b ≠ a := fun same => missing (same ▸ member)
      simpa using different
    rw [List.eraseDups_cons, others, ih distinct]

theorem toList_union (set other : InsertionSet α) :
    (set.union other).toList = set.toList ++ other.toList.filter (· ∉ set) := by
  rw [union, toList_foldl_insert, eraseDups_of_nodup (other.nodup.filter _)]
  rfl

theorem mem_union {set other : InsertionSet α} {a : α} :
    a ∈ set.union other ↔ a ∈ set ∨ a ∈ other := by
  show a ∈ (set.union other).toList ↔ a ∈ set.toList ∨ a ∈ other.toList
  rw [toList_union, List.mem_append, List.mem_filter, decide_eq_true_iff]
  exact ⟨Or.imp_right And.left, fun either => by
    by_cases found : a ∈ set.toList
    · exact .inl found
    · exact .inr ⟨either.resolve_left found, found⟩⟩

omit [DecidableEq α] in
theorem ext_toList {first second : InsertionSet α} (same : first.toList = second.toList) :
    first = second := by
  cases first
  cases second
  cases same
  rfl

theorem union_assoc (first second third : InsertionSet α) :
    (first.union second).union third = first.union (second.union third) := by
  have fresh : third.toList.filter (· ∉ first.union second) =
      (third.toList.filter (· ∉ second)).filter (· ∉ first) := by
    rw [List.filter_filter]
    apply List.filter_congr
    intro a _
    simp [mem_union]
  apply ext_toList
  rw [toList_union, fresh, toList_union, toList_union, toList_union, List.filter_append,
    List.append_assoc]

theorem union_eq_right {set other : InsertionSet α} (earlier : set.toList <+: other.toList) :
    set.union other = other := by
  obtain ⟨fresh, order⟩ := earlier
  apply ext_toList
  have distinct : (set.toList ++ fresh).Nodup := order ▸ other.nodup
  have apart := (List.nodup_append.mp distinct).2.2
  have old : set.toList.filter (· ∉ set) = [] :=
    List.filter_eq_nil_iff.mpr fun a member => by simpa using (show a ∈ set from member)
  rw [toList_union, ← order, List.filter_append, old, List.nil_append]
  congr 1
  apply List.filter_eq_self.mpr
  intro a member
  have unlisted : a ∉ set := fun found => apart a found a member rfl
  simpa using unlisted

end InsertionSet

end Overlay
