import Overlay.Json.Parser
import Overlay.Proofs.Lexeme

/-!
A printed value is read back for every schema that keeps all of it. The number of characters is fuel
enough, and a value ends where it ends whatever follows it, a number where something follows that is
no part of it.
-/

set_option autoImplicit false

namespace Overlay.Json

/-- The value consists of what a reader with the schema keeps as it is: numbers of 64 bits, no
arrays that the schema takes for bytes, and nothing that it passes over. -/
inductive Kept : (room : Nat) → Schema → Json → Prop where
  | null {room : Nat} {schema : Schema} (wanted : schema ≠ .ignored) : Kept room schema .null
  | bool {room : Nat} {schema : Schema} (wanted : schema ≠ .ignored) (value : Bool) :
      Kept room schema (.bool value)
  | nat {room : Nat} {schema : Schema} (wanted : schema ≠ .ignored) {value : Nat}
      (small : value < 2 ^ 64) : Kept room schema (.nat value)
  | string {room : Nat} {schema : Schema} (wanted : schema ≠ .ignored) (text : String) :
      Kept room schema (.string text)
  | array {room : Nat} {schema : Schema} (wanted : schema ≠ .ignored)
      (list : ∀ size, schema ≠ .bytes size) {items : List Json}
      (kept : ∀ item ∈ items, ∀ index, Kept room (schema.item index) item) :
      Kept (room + 1) schema (.array items)
  | object {room : Nat} {schema : Schema} (wanted : schema ≠ .ignored)
      {members : List (String × Json)}
      (kept : ∀ member ∈ members, Kept room (schema.member member.1) member.2) :
      Kept (room + 1) schema (.object members)

theorem skipBlanks_cons {c : Char} (printed : isBlank c = false) (rest : List Char) :
    skipBlanks (c :: rest) = c :: rest :=
  List.dropWhile_cons_of_neg (by simp [printed])

theorem isBlank_of_isDigit {c : Char} (digit : c.isDigit = true) : isBlank c = false := by
  apply Bool.eq_false_iff.mpr
  intro blank
  simp only [isBlank, Bool.or_eq_true, decide_eq_true_iff] at blank
  rcases blank with ((rfl | rfl) | rfl) | rfl <;> cases digit

/-! ## What the reader does at the first character of a value -/

section Heads

variable {fuel room : Nat} {schema : Schema} (wanted : schema ≠ .ignored) {c : Char}
  {rest : List Char}

include wanted

theorem value?_null :
    value? (fuel + 1) room schema ('n' :: 'u' :: 'l' :: 'l' :: rest) = some (.null, rest) := by
  rw [value?]
  · rfl
  · exact wanted

theorem value?_true :
    value? (fuel + 1) room schema ('t' :: 'r' :: 'u' :: 'e' :: rest) = some (.bool true, rest) := by
  rw [value?]
  · rfl
  · exact wanted

theorem value?_false :
    value? (fuel + 1) room schema ('f' :: 'a' :: 'l' :: 's' :: 'e' :: rest) =
      some (.bool false, rest) := by
  rw [value?]
  · rfl
  · exact wanted

theorem value?_quote :
    value? (fuel + 1) room schema ('"' :: rest) =
      (string? rest).map fun (text, rest) => (.string text, rest) := by
  rw [value?]
  · rfl
  · exact wanted

theorem value?_digit (digit : c.isDigit = true) :
    value? (fuel + 1) room schema (c :: rest) =
      match Number.read? (c :: rest) with
      | none => none
      | some (number, rest) => if number.isFinite then some (number.toJson, rest) else none := by
  rw [value?]
  · simp only [skipBlanks_cons (isBlank_of_isDigit digit)]
    -- None of the other heads is a digit.
    split <;> rename_i head <;> try (cases head; cases digit)
    rfl
  · exact wanted

theorem value?_emptyArray (list : ∀ size, schema ≠ .bytes size) :
    value? (fuel + 1) (room + 1) schema ('[' :: ']' :: rest) = some (.array [], rest) := by
  rw [value?]
  · simp only [skipBlanks_cons (show isBlank '[' = false from rfl),
      skipBlanks_cons (show isBlank ']' = false from rfl)]
  · exact wanted

theorem value?_array (list : ∀ size, schema ≠ .bytes size) (printed : isBlank c = false)
    (more : c ≠ ']') :
    value? (fuel + 1) (room + 1) schema ('[' :: c :: rest) =
      (items? fuel room schema [] 0 (c :: rest)).map fun (items, rest) => (.array items, rest) := by
  rw [value?]
  · simp only [skipBlanks_cons (show isBlank '[' = false from rfl), skipBlanks_cons printed]
    split <;> simp_all
  · exact wanted

theorem value?_emptyObject :
    value? (fuel + 1) (room + 1) schema ('\x7b' :: '\x7d' :: rest) = some (.object [], rest) := by
  rw [value?]
  · simp only [skipBlanks_cons (show isBlank '\x7b' = false from rfl),
      skipBlanks_cons (show isBlank '\x7d' = false from rfl)]
  · exact wanted

theorem value?_object (printed : isBlank c = false) (more : c ≠ '\x7d') :
    value? (fuel + 1) (room + 1) schema ('\x7b' :: c :: rest) =
      (members? fuel room schema [] (c :: rest)).map fun (members, rest) =>
        (.object members, rest) := by
  rw [value?]
  · simp only [skipBlanks_cons (show isBlank '\x7b' = false from rfl), skipBlanks_cons printed]
    split <;> simp_all
  · exact wanted

end Heads

/-! ## The printed text -/

theorem toList_print_array (items : List Json) :
    (print (.array items)).toList = '[' :: ((printItems items).toList ++ [']']) := by
  rw [print, String.toList_append, String.toList_append]
  rfl

theorem toList_print_object (members : List (String × Json)) :
    (print (.object members)).toList = '{' :: ((printMembers members).toList ++ ['}']) := by
  rw [print, String.toList_append, String.toList_append]
  rfl

theorem toList_print_nat (value : Nat) : (print (.nat value)).toList = Nat.toDigits 10 value := by
  rw [print, Nat.repr_eq_ofList_toDigits, String.toList_ofList]

theorem toList_printItems_cons (item next : Json) (rest : List Json) :
    (printItems (item :: next :: rest)).toList =
      (print item).toList ++ ',' :: (printItems (next :: rest)).toList := by
  rw [printItems, String.toList_append, String.toList_append, List.append_assoc]
  · rfl
  · simp

theorem exists_printItems (first : Json) (others : List Json) :
    ∃ later, (printItems (first :: others)).toList = (print first).toList ++ later := by
  cases others with
  | nil => exact ⟨[], (List.append_nil _).symm⟩
  | cons next rest => exact ⟨_, toList_printItems_cons first next rest⟩

theorem toList_printMembers_single (key : String) (value : Json) :
    (printMembers [(key, value)]).toList = (quote key).toList ++ ':' :: (print value).toList := by
  rw [printMembers, String.toList_append, String.toList_append, List.append_assoc]
  rfl

theorem toList_printMembers_cons (key : String) (value : Json) (next : String × Json)
    (rest : List (String × Json)) :
    (printMembers ((key, value) :: next :: rest)).toList =
      (printMembers [(key, value)]).toList ++ ',' :: (printMembers (next :: rest)).toList := by
  rw [toList_printMembers_single, printMembers]
  · simp
  · simp

theorem exists_printMembers (first : String × Json) (others : List (String × Json)) :
    ∃ later, (printMembers (first :: others)).toList = '"' :: later := by
  obtain ⟨key, value⟩ := first
  have single := toList_printMembers_single key value
  rw [toList_quote] at single
  cases others with
  | nil => exact ⟨_, single⟩
  | cons next rest =>
    rw [toList_printMembers_cons, single]
    exact ⟨_, rfl⟩

/-! ## Reading it back -/

def Reads (room : Nat) (schema : Schema) (json : Json) : Prop :=
  ∀ fuel rest, (print json).toList.length ≤ fuel → endsNumber rest = true →
    value? fuel room schema ((print json).toList ++ rest) = some (json, rest)

theorem items?_print {room : Nat} {schema : Schema} (first : Json) (others : List Json)
    (reads : ∀ item ∈ first :: others, ∀ index, Reads room (schema.item index) item) {fuel : Nat}
    (enough : (printItems (first :: others)).toList.length < fuel) (seen : List Json) (index : Nat)
    (rest : List Char) :
    items? fuel room schema seen index ((printItems (first :: others)).toList ++ ']' :: rest) =
      some (seen.reverse ++ first :: others, rest) := by
  induction others generalizing first fuel seen index with
  | nil =>
    cases fuel with
    | zero => cases enough
    | succ fuel =>
      rw [printItems] at enough ⊢
      have read := reads first (by simp) index fuel (']' :: rest) (by omega) rfl
      rw [items?, read]
      simp [skipBlanks_cons, isBlank]
  | cons next others ih =>
    cases fuel with
    | zero => cases enough
    | succ fuel =>
      rw [toList_printItems_cons, List.length_append, List.length_cons] at enough
      have read := reads first (by simp) index fuel
        (',' :: ((printItems (next :: others)).toList ++ ']' :: rest)) (by omega) rfl
      have later := ih next (fun item member => reads item (List.mem_cons_of_mem _ member))
        (show _ < fuel by omega) (first :: seen) (index + 1)
      rw [toList_printItems_cons, List.append_assoc, List.cons_append, items?, read]
      simp [skipBlanks_cons, isBlank, later]

theorem members?_member {room : Nat} {schema : Schema} {key : String} {value : Json}
    (reads : Reads room (schema.member key) value) {fuel : Nat}
    (enough : (printMembers [(key, value)]).toList.length ≤ fuel) {seen : List (String × Json)}
    {rest : List Char} (ends : endsNumber rest = true)
    {result : Option (List (String × Json) × List Char)}
    (continued :
      (match skipBlanks rest with
        | ',' :: rest => members? fuel room schema ((key, value) :: seen) rest
        | '\x7d' :: rest => some (((key, value) :: seen).reverse, rest)
        | _ => none) = result) :
    members? (fuel + 1) room schema seen ((printMembers [(key, value)]).toList ++ rest) =
      result := by
  rw [toList_printMembers_single, toList_quote] at enough ⊢
  simp only [List.cons_append, List.length_cons, List.length_append] at enough
  have read := reads fuel rest (by omega) ends
  have named := string?_escaped key (':' :: ((print value).toList ++ rest))
  simp only [List.cons_append, List.append_assoc, List.nil_append, members?]
  simp only [skipBlanks_cons (show isBlank '"' = false from rfl), named,
    skipBlanks_cons (show isBlank ':' = false from rfl), read]
  exact continued

theorem members?_print {room : Nat} {schema : Schema} (first : String × Json)
    (others : List (String × Json))
    (reads : ∀ member ∈ first :: others, Reads room (schema.member member.1) member.2) {fuel : Nat}
    (enough : (printMembers (first :: others)).toList.length < fuel) (seen : List (String × Json))
    (rest : List Char) :
    members? fuel room schema seen ((printMembers (first :: others)).toList ++ '\x7d' :: rest) =
      some (seen.reverse ++ first :: others, rest) := by
  induction others generalizing first fuel seen with
  | nil =>
    cases fuel with
    | zero => cases enough
    | succ fuel =>
      refine members?_member (reads first (by simp)) (Nat.le_of_lt_succ enough) rfl ?_
      simp [skipBlanks_cons, isBlank]
  | cons next others ih =>
    cases fuel with
    | zero => cases enough
    | succ fuel =>
      rw [toList_printMembers_cons, List.length_append, List.length_cons] at enough
      have later := ih next (fun member listed => reads member (List.mem_cons_of_mem _ listed))
        (show _ < fuel by omega) (first :: seen)
      rw [toList_printMembers_cons, List.append_assoc, List.cons_append]
      refine members?_member (reads first (by simp)) (by omega) rfl ?_
      simp [skipBlanks_cons, isBlank, later]

namespace Kept

variable {room : Nat} {schema : Schema} {json : Json}

theorem head (kept : Kept room schema json) :
    ∃ c rest, (print json).toList = c :: rest ∧ isBlank c = false ∧ c ≠ ']' := by
  cases kept with
  | null => exact ⟨_, _, rfl, rfl, by decide⟩
  | bool wanted value => cases value <;> exact ⟨_, _, rfl, rfl, by decide⟩
  | @nat _ _ _ value =>
    obtain ⟨c, rest, digit, same⟩ := starts_toDigits value
    refine ⟨c, rest, (toList_print_nat value).trans same, isBlank_of_isDigit digit, ?_⟩
    rintro rfl
    cases digit
  | string => exact ⟨_, _, toList_quote _, rfl, by decide⟩
  | array => exact ⟨_, _, toList_print_array _, rfl, by decide⟩
  | object => exact ⟨_, _, toList_print_object _, rfl, by decide⟩

theorem value?_nat (wanted : schema ≠ .ignored) {value : Nat} (small : value < 2 ^ 64) (fuel : Nat)
    {rest : List Char} (ends : endsNumber rest = true) :
    value? (fuel + 1) room schema (Nat.toDigits 10 value ++ rest) = some (.nat value, rest) := by
  have read := Number.read?_toDigits value ends
  obtain ⟨c, later, digit, same⟩ := starts_toDigits value
  rw [same, List.cons_append] at read ⊢
  rw [value?_digit wanted digit, read]
  simp [Number.isFinite_ofNat small, Number.toJson_ofNat]

theorem reads (kept : Kept room schema json) : Reads room schema json := by
  -- A value spends one unit of fuel and has at least one character, so the length is enough.
  induction kept with
  | null wanted =>
    intro fuel rest enough ends
    cases fuel with
    | zero => cases enough
    | succ fuel => exact value?_null wanted
  | bool wanted value =>
    intro fuel rest enough ends
    cases fuel with
    | zero => cases value <;> cases enough
    | succ fuel =>
      cases value with
      | false => exact value?_false wanted
      | true => exact value?_true wanted
  | nat wanted small =>
    intro fuel rest enough ends
    rw [toList_print_nat] at enough ⊢
    cases fuel with
    | zero => exact absurd enough (Nat.not_le_of_lt Nat.length_toDigits_pos)
    | succ fuel => exact value?_nat wanted small fuel ends
  | string wanted text =>
    intro fuel rest enough ends
    rw [print, toList_quote] at enough ⊢
    cases fuel with
    | zero => cases enough
    | succ fuel =>
      rw [List.cons_append, value?_quote wanted, List.append_assoc, List.singleton_append,
        string?_escaped]
      rfl
  | @array room schema wanted list items kept ih =>
    intro fuel rest enough ends
    rw [toList_print_array] at enough ⊢
    cases fuel with
    | zero => cases enough
    | succ fuel =>
      simp only [List.length_cons, List.length_append] at enough
      cases items with
      | nil => exact value?_emptyArray wanted list
      | cons first others =>
        have read := items?_print first others ih (show _ < fuel by omega) [] 0 rest
        -- The head of the first item tells the array from an empty one.
        obtain ⟨c, tail, head, printed, more⟩ := (kept first (by simp) 0).head
        obtain ⟨later, whole⟩ := exists_printItems first others
        simp only [whole, head, List.cons_append, List.append_assoc, List.nil_append] at read ⊢
        rw [value?_array wanted list printed more, read]
        rfl
  | @object room schema wanted members kept ih =>
    intro fuel rest enough ends
    rw [toList_print_object] at enough ⊢
    cases fuel with
    | zero => cases enough
    | succ fuel =>
      simp only [List.length_cons, List.length_append] at enough
      cases members with
      | nil => exact value?_emptyObject wanted
      | cons first others =>
        have read := members?_print first others ih (show _ < fuel by omega) [] rest
        obtain ⟨later, whole⟩ := exists_printMembers first others
        simp only [whole, List.cons_append, List.append_assoc, List.nil_append] at read ⊢
        rw [value?_object wanted rfl (by decide), read]
        rfl

theorem parse?_print {schema : Schema} {json : Json} (kept : Kept 127 schema json) :
    parse? schema json.print = some json := by
  have read := kept.reads (2 * json.print.toList.length + 2) [] (by omega) rfl
  rw [List.append_nil] at read
  rw [parse?, ofChars?, read]
  rfl

end Kept

end Overlay.Json
