/-!
Finite maps that remember the order in which their keys were first inserted. Writing to a key that
is present keeps its place; a new key goes to the end.
-/

set_option autoImplicit false

namespace Overlay

theorem getD_findSome?_reverse_cons {ι β : Type} (decides : ι → Option β) (item : ι)
    (rest : List ι) (value : β) :
    ((item :: rest).reverse.findSome? decides).getD value =
      (rest.reverse.findSome? decides).getD ((decides item).getD value) := by
  rw [List.reverse_cons, List.findSome?_append]
  cases rest.reverse.findSome? decides with
  | some later => rfl
  | none => simp

structure InsertionMap (κ α : Type) where
  entries : List (κ × α)
  nodup : (entries.map Prod.fst).Nodup
  deriving DecidableEq

namespace InsertionMap

variable {κ α β : Type} [DecidableEq κ]

def find? (key : κ) : List (κ × α) → Option α
  | [] => none
  | (key', value) :: rest => if key' = key then some value else find? key rest

def put (key : κ) (value : α) : List (κ × α) → List (κ × α)
  | [] => [(key, value)]
  | (key', value') :: rest =>
    if key' = key then (key, value) :: rest else (key', value') :: put key value rest

theorem find?_put (key other : κ) (value : α) (entries : List (κ × α)) :
    find? other (put key value entries) =
      if key = other then some value else find? other entries := by
  induction entries with
  | nil => rfl
  | cons entry rest ih =>
    obtain ⟨key', value'⟩ := entry
    by_cases same : key' = key
    · subst same
      by_cases hit : key' = other <;> simp [put, find?, hit]
    · rw [put, if_neg same, find?, find?, ih]
      by_cases hit : key' = other
      · have miss : ¬ key = other := fun h => same (hit.trans h.symm)
        rw [if_pos hit, if_pos hit, if_neg miss]
      · rw [if_neg hit, if_neg hit]

theorem keys_put (key : κ) (value : α) (entries : List (κ × α)) :
    (put key value entries).map Prod.fst =
      if key ∈ entries.map Prod.fst then entries.map Prod.fst
      else entries.map Prod.fst ++ [key] := by
  induction entries with
  | nil => simp [put]
  | cons entry rest ih =>
    obtain ⟨key', value'⟩ := entry
    by_cases same : key' = key
    · simp [put, same]
    · have different : ¬ key = key' := fun h => same h.symm
      by_cases found : key ∈ rest.map Prod.fst
      · simp [put, same, ih, found]
      · rw [put, if_neg same, List.map_cons, ih, if_neg found, if_neg (by simp [different, found]),
          List.map_cons, List.cons_append]

theorem put_of_find? {key : κ} {value : α} {entries : List (κ × α)}
    (found : find? key entries = some value) : put key value entries = entries := by
  induction entries with
  | nil => cases found
  | cons entry rest ih =>
    obtain ⟨key', value'⟩ := entry
    by_cases same : key' = key
    · rw [find?, if_pos same, Option.some.injEq] at found
      rw [put, if_pos same, same, found]
    · rw [find?, if_neg same] at found
      rw [put, if_neg same, ih found]

theorem put_of_not_mem {key : κ} (value : α) {entries : List (κ × α)}
    (missing : key ∉ entries.map Prod.fst) : put key value entries = entries ++ [(key, value)] := by
  induction entries with
  | nil => rfl
  | cons entry rest ih =>
    rw [List.map_cons, List.mem_cons, not_or] at missing
    rw [put, if_neg (Ne.symm missing.1), ih missing.2, List.cons_append]

theorem find?_isSome (key : κ) (entries : List (κ × α)) :
    (find? key entries).isSome = decide (key ∈ entries.map Prod.fst) := by
  induction entries with
  | nil => simp [find?]
  | cons entry rest ih =>
    obtain ⟨key', value⟩ := entry
    by_cases same : key' = key
    · simp [find?, same]
    · have different : ¬ key = key' := fun h => same h.symm
      simp only [find?, if_neg same, ih, List.map_cons, List.mem_cons, different, false_or]

theorem find?_eq_none {key : κ} {entries : List (κ × α)}
    (missing : key ∉ entries.map Prod.fst) : find? key entries = none := by
  have unknown := find?_isSome key entries
  rw [decide_eq_false missing] at unknown
  exact Option.isNone_iff_eq_none.mp (Option.isSome_eq_false_iff.mp unknown)

theorem find?_eq_some_iff {key : κ} {value : α} {entries : List (κ × α)}
    (distinct : (entries.map Prod.fst).Nodup) :
    find? key entries = some value ↔ (key, value) ∈ entries := by
  induction entries with
  | nil => simp [find?]
  | cons entry rest ih =>
    obtain ⟨key', value'⟩ := entry
    obtain ⟨missing, distinct⟩ := List.nodup_cons.mp distinct
    by_cases same : key' = key
    · subst same
      have other : (key', value) ∉ rest := fun member =>
        missing (List.mem_map.mpr ⟨_, member, rfl⟩)
      simp [find?, other, eq_comm]
    · simp [find?, same, Ne.symm same, ih distinct]

theorem find?_perm {first second : List (κ × α)} (distinct : (first.map Prod.fst).Nodup)
    (perm : first.Perm second) (key : κ) : find? key first = find? key second := by
  apply Option.ext
  intro value
  rw [find?_eq_some_iff distinct, find?_eq_some_iff ((perm.map Prod.fst).nodup_iff.mp distinct),
    perm.mem_iff]

/-- Entries are put into a map, whatever it is made of: of several for a key the last stays. -/
theorem lookup_foldl {Map : Type} {insert : Map → κ → α → Map} (lookup : Map → κ → Option α)
    (written : ∀ map key other value, lookup (insert map key value) other =
      if key = other then some value else lookup map other)
    (entries : List (κ × α)) (map : Map) (key : κ) :
    lookup (entries.foldl (fun map entry => insert map entry.1 entry.2) map) key =
      (find? key entries.reverse).or (lookup map key) := by
  rw [← List.foldr_reverse]
  induction entries.reverse with
  | nil => rfl
  | cons entry rest ih =>
    rw [List.foldr_cons, written, find?]
    split
    · rfl
    · exact ih

instance : EmptyCollection (InsertionMap κ α) := ⟨⟨[], List.nodup_nil⟩⟩

def keys (map : InsertionMap κ α) : List κ := map.entries.map Prod.fst

def size (map : InsertionMap κ α) : Nat := map.entries.length

def get? (map : InsertionMap κ α) (key : κ) : Option α := find? key map.entries

instance : Membership κ (InsertionMap κ α) := ⟨fun map key => key ∈ map.keys⟩

instance (map : InsertionMap κ α) (key : κ) : Decidable (key ∈ map) :=
  inferInstanceAs (Decidable (key ∈ map.keys))

def insert (map : InsertionMap κ α) (key : κ) (value : α) : InsertionMap κ α where
  entries := put key value map.entries
  nodup := by
    rw [keys_put]
    split
    · exact map.nodup
    · next fresh =>
      exact List.nodup_append.mpr ⟨map.nodup, by simp, by
        intro a found b single
        rw [List.mem_singleton.mp single]
        exact fun same => fresh (same ▸ found)⟩

def filter (map : InsertionMap κ α) (keep : κ → α → Bool) : InsertionMap κ α where
  entries := map.entries.filter fun entry => keep entry.1 entry.2
  nodup := (List.filter_sublist.map Prod.fst).nodup map.nodup

def union (map other : InsertionMap κ α) : InsertionMap κ α :=
  other.entries.foldl (fun result entry => result.insert entry.1 entry.2) map

def Equiv (first second : InsertionMap κ α) : Prop :=
  ∀ key, first.get? key = second.get? key

def agrees (same : α → α → Bool) (first second : InsertionMap κ α) : Bool :=
  first.size == second.size && first.entries.all fun entry =>
    match second.get? entry.1 with
    | none => false
    | some value => same entry.2 value

@[simp] theorem get?_empty (key : κ) : (∅ : InsertionMap κ α).get? key = none := rfl

omit [DecidableEq κ] in
@[simp] theorem keys_empty : (∅ : InsertionMap κ α).keys = [] := rfl

theorem get?_insert (map : InsertionMap κ α) (key other : κ) (value : α) :
    (map.insert key value).get? other = if key = other then some value else map.get? other :=
  find?_put key other value map.entries

@[simp] theorem get?_insert_self (map : InsertionMap κ α) (key : κ) (value : α) :
    (map.insert key value).get? key = some value := by
  simp [get?_insert]

theorem keys_insert (map : InsertionMap κ α) (key : κ) (value : α) :
    (map.insert key value).keys = if key ∈ map then map.keys else map.keys ++ [key] :=
  keys_put key value map.entries

theorem mem_insert {map : InsertionMap κ α} {key other : κ} {value : α} :
    other ∈ map.insert key value ↔ other ∈ map ∨ other = key := by
  show other ∈ (map.insert key value).keys ↔ _
  rw [keys_insert]
  split
  · next found =>
    exact ⟨Or.inl, fun either => either.elim id fun same => same ▸ found⟩
  · rw [List.mem_append, List.mem_singleton]
    exact Iff.rfl

theorem mem_iff_isSome {map : InsertionMap κ α} {key : κ} :
    key ∈ map ↔ (map.get? key).isSome = true := by
  rw [get?, find?_isSome, decide_eq_true_iff]
  exact Iff.rfl

theorem get?_eq_none_iff {map : InsertionMap κ α} {key : κ} :
    map.get? key = none ↔ key ∉ map := by
  rw [mem_iff_isSome]
  cases map.get? key <;> simp

/-- A map is determined by the order of its keys and by what they have. -/
theorem ext_get? {first second : InsertionMap κ α} (order : first.keys = second.keys)
    (same : ∀ key, first.get? key = second.get? key) : first = second := by
  have entries : ∀ left right : List (κ × α), (left.map Prod.fst).Nodup →
      left.map Prod.fst = right.map Prod.fst →
      (∀ key, find? key left = find? key right) → left = right := by
    intro left
    induction left with
    | nil =>
      intro right _ order _
      exact (List.map_eq_nil_iff.mp order.symm).symm
    | cons entry left ih =>
      intro right distinct order same
      cases right with
      | nil => cases order
      | cons other right =>
        obtain ⟨key, value⟩ := entry
        obtain ⟨key', value'⟩ := other
        simp only [List.map_cons, List.cons.injEq, List.nodup_cons] at distinct order
        obtain ⟨rfl, order⟩ := order
        have head := same key
        simp only [find?, if_pos, Option.some.injEq] at head
        subst head
        refine congrArg _ (ih right distinct.2 order fun other => ?_)
        by_cases hit : key = other
        · subst hit
          rw [find?_eq_none distinct.1, find?_eq_none (order ▸ distinct.1)]
        · simpa only [find?, if_neg hit] using same other
  cases first with | mk left distinct =>
  cases second with | mk right distinct' =>
  cases entries left right distinct order same
  rfl

theorem insert_insert (map : InsertionMap κ α) (key : κ) (first second : α) :
    (map.insert key first).insert key second = map.insert key second := by
  apply ext_get?
  · have found : key ∈ map.insert key first := mem_insert.mpr (Or.inr rfl)
    rw [keys_insert, if_pos found, keys_insert, keys_insert]
  · intro other
    simp only [get?_insert]
    split <;> rfl

theorem get?_filter (map : InsertionMap κ α) (keep : κ → α → Bool) (key : κ) :
    (map.filter keep).get? key = (map.get? key).filter (keep key) := by
  have filtered : ∀ entries : List (κ × α), (entries.map Prod.fst).Nodup →
      find? key (entries.filter fun entry => keep entry.1 entry.2) =
        (find? key entries).filter (keep key) := by
    intro entries
    induction entries with
    | nil => intro _; rfl
    | cons entry rest ih =>
      obtain ⟨key', value⟩ := entry
      intro distinct
      obtain ⟨missing, distinct⟩ := List.nodup_cons.mp distinct
      have others := ih distinct
      by_cases same : key' = key
      · subst same
        by_cases kept : keep key' value = true
        · simp [find?, kept, Option.filter]
        · rw [find?_eq_none missing] at others
          simpa [find?, kept, Option.filter] using others
      · by_cases kept : keep key' value = true <;> simp [find?, kept, same, others]
  exact filtered map.entries map.nodup

theorem keys_filter (map : InsertionMap κ α) (keep : κ → α → Bool) :
    (map.filter keep).keys = map.keys.filter fun key => (map.get? key).any (keep key) := by
  rw [keys, keys, List.filter_map]
  congr 1
  apply List.filter_congr
  rintro ⟨key, value⟩ member
  have found : map.get? key = some value := (find?_eq_some_iff map.nodup).mpr member
  simp [found]

section Union

private theorem keys_foldl_insert (entries : List (κ × α))
    (distinct : (entries.map Prod.fst).Nodup) (map : InsertionMap κ α) :
    (entries.foldl (fun result entry => result.insert entry.1 entry.2) map).keys =
      map.keys ++ (entries.map Prod.fst).filter (· ∉ map.keys) := by
  induction entries generalizing map with
  | nil => simp
  | cons entry rest ih =>
    obtain ⟨key, value⟩ := entry
    obtain ⟨missing, distinct⟩ := List.nodup_cons.mp distinct
    rw [List.foldl_cons, ih distinct, keys_insert, List.map_cons]
    by_cases found : key ∈ map
    · have listed : key ∈ map.keys := found
      rw [if_pos found, List.filter_cons_of_neg (by simpa using listed)]
    · have unlisted : key ∉ map.keys := found
      rw [if_neg found, List.filter_cons_of_pos (by simpa using unlisted), List.append_assoc,
        List.singleton_append]
      congr 2
      apply List.filter_congr
      intro other member
      have different : other ≠ key := fun same => missing (same ▸ member)
      simp [different]

theorem get?_union (map other : InsertionMap κ α) (key : κ) :
    (map.union other).get? key = (other.get? key).or (map.get? key) := by
  have order := find?_perm other.nodup (List.reverse_perm other.entries).symm key
  rw [union, lookup_foldl get? get?_insert, ← order]
  rfl

theorem mem_union {map other : InsertionMap κ α} {key : κ} :
    key ∈ map.union other ↔ key ∈ map ∨ key ∈ other := by
  rw [mem_iff_isSome, mem_iff_isSome, mem_iff_isSome, get?_union, Option.isSome_or,
    Bool.or_eq_true, or_comm]

/-- The keys of the first map keep their places; the new ones follow in the order of the second. -/
theorem keys_union (map other : InsertionMap κ α) :
    (map.union other).keys = map.keys ++ other.keys.filter (· ∉ map.keys) :=
  keys_foldl_insert other.entries other.nodup map

theorem union_assoc (first second third : InsertionMap κ α) :
    (first.union second).union third = first.union (second.union third) := by
  have fresh : third.keys.filter (· ∉ (first.union second).keys) =
      (third.keys.filter (· ∉ second.keys)).filter (· ∉ first.keys) := by
    rw [List.filter_filter]
    apply List.filter_congr
    intro key _
    have either : key ∈ (first.union second).keys ↔ key ∈ first.keys ∨ key ∈ second.keys :=
      mem_union
    simp [either]
  apply ext_get?
  · rw [keys_union, fresh, keys_union, keys_union, keys_union, List.filter_append,
      List.append_assoc]
  · intro key
    simp only [get?_union, Option.or_assoc]

/-- A map that goes on where another stopped replaces it altogether. -/
theorem union_eq_right {map other : InsertionMap κ α} (earlier : map.keys <+: other.keys) :
    map.union other = other := by
  obtain ⟨fresh, order⟩ := earlier
  apply ext_get?
  · have distinct : (map.keys ++ fresh).Nodup := order ▸ other.nodup
    have apart := (List.nodup_append.mp distinct).2.2
    rw [keys_union, ← order, List.filter_append, List.filter_eq_nil_iff.mpr (by simp),
      List.nil_append]
    congr 1
    apply List.filter_eq_self.mpr
    intro key member
    simpa using fun found => apart key found key member rfl
  · intro key
    rw [get?_union]
    cases found : other.get? key with
    | some value => rfl
    | none =>
      apply get?_eq_none_iff.mpr
      intro member
      apply get?_eq_none_iff.mp found
      show key ∈ other.keys
      exact order ▸ List.mem_append_left fresh member

end Union

end InsertionMap

end Overlay
