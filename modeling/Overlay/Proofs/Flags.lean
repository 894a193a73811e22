import Overlay.Codec.Account
import Overlay.Proofs.Record

/-!
Every byte of flags is read back from its text: the pieces between the bars are the names of the
flags that are set and the number of the other bits, with a blank on either side.
-/

set_option autoImplicit false

namespace Overlay.Flags

/-- A piece of text without blanks and bars. -/
structure Solid (text : List Char) : Prop where
  nonempty : text ≠ []
  spaceless : ∀ c ∈ text, isSpace c = false
  barless : ∀ c ∈ text, c ≠ '|'

instance (text : List Char) : Decidable (Solid text) :=
  decidable_of_iff (text ≠ [] ∧ text.all (fun c => !isSpace c && c != '|') = true) <| by
    simp only [List.all_eq_true, Bool.and_eq_true, Bool.not_eq_true', bne_iff_ne]
    exact ⟨fun ⟨nonempty, all⟩ => ⟨nonempty, fun c member => (all c member).1,
        fun c member => (all c member).2⟩,
      fun solid => ⟨solid.nonempty, fun c member => ⟨solid.spaceless c member,
        solid.barless c member⟩⟩⟩

section Pieces

variable {text : List Char}

theorem pieces_of_barless (barless : ∀ c ∈ text, c ≠ '|') : pieces text = [text] := by
  induction text with
  | nil => rfl
  | cons c rest ih =>
    have other : c ≠ '|' := barless c List.mem_cons_self
    rw [pieces, ih fun c member => barless c (List.mem_cons_of_mem _ member)]
    exact fun same => other same

theorem pieces_bar (barless : ∀ c ∈ text, c ≠ '|') (rest : List Char) :
    pieces (text ++ '|' :: rest) = text :: pieces rest := by
  induction text with
  | nil => rfl
  | cons c later ih =>
    have other : c ≠ '|' := barless c List.mem_cons_self
    rw [List.cons_append, pieces, ih fun c member => barless c (List.mem_cons_of_mem _ member)]
    exact fun same => other same

theorem dropWhile_isSpace (solid : Solid text) {lead : List Char}
    (before : ∀ c ∈ lead, isSpace c = true) (rest : List Char) :
    (lead ++ (text ++ rest)).dropWhile isSpace = text ++ rest := by
  rw [List.dropWhile_append_of_pos before]
  cases text with
  | nil => exact absurd rfl solid.nonempty
  | cons c later => exact List.dropWhile_cons_of_neg (by simp [solid.spaceless])

theorem Solid.reverse (solid : Solid text) : Solid text.reverse where
  nonempty := by simpa using solid.nonempty
  spaceless c member := solid.spaceless c (List.mem_reverse.mp member)
  barless c member := solid.barless c (List.mem_reverse.mp member)

theorem trim_append (solid : Solid text) (lead trail : List Char)
    (before : ∀ c ∈ lead, isSpace c = true) (after : ∀ c ∈ trail, isSpace c = true) :
    trim (lead ++ (text ++ trail)) = text := by
  have backwards : ∀ c ∈ trail.reverse, isSpace c = true := fun c member =>
    after c (List.mem_reverse.mp member)
  have ends := dropWhile_isSpace solid.reverse backwards []
  rw [List.append_nil] at ends
  rw [trim, dropWhile_isSpace solid before, List.reverse_append, ends, List.reverse_reverse]

end Pieces

section Reading

variable (table : Table)

theorem trim_solid {text : List Char} (solid : Solid text) : trim text = text := by
  have trimmed := trim_append solid [] [] (by simp) (by simp)
  rwa [List.append_nil] at trimmed

theorem piece?_append {text : List Char} (solid : Solid text) (lead trail : List Char)
    (before : ∀ c ∈ lead, isSpace c = true) (after : ∀ c ∈ trail, isSpace c = true) :
    piece? table (lead ++ (text ++ trail)) = piece? table text := by
  rw [piece?, trim_append solid lead trail before after, piece?, trim_solid solid]

theorem mem_intercalate {separator first : List Char} {others : List (List Char)} {c : Char}
    (member : c ∈ first) : c ∈ separator.intercalate (first :: others) := by
  cases others with
  | nil => rwa [List.intercalate_singleton]
  | cons next rest =>
    rw [List.intercalate_cons_cons, List.append_assoc]
    exact List.mem_append_left _ member

/-- The pieces of a written text mean what its parts mean. -/
theorem mapM_piece? (first : List Char) (others : List (List Char))
    (solid : ∀ part ∈ first :: others, Solid part) (lead : List Char)
    (before : ∀ c ∈ lead, c = ' ') :
    (pieces (lead ++ [' ', '|', ' '].intercalate (first :: others))).mapM (piece? table) =
      (first :: others).mapM (piece? table) := by
  have blank : ∀ c ∈ lead, isSpace c = true := fun c member => before c member ▸ by decide
  have barless : ∀ c ∈ lead, c ≠ '|' := fun c member => before c member ▸ by decide
  have whole := solid first List.mem_cons_self
  induction others generalizing first lead with
  | nil =>
    rw [List.intercalate_singleton, pieces_of_barless]
    · have same := piece?_append table whole lead [] blank (by simp)
      rw [List.append_nil] at same
      rw [List.mapM_cons, List.mapM_cons, same]
    · intro c member
      exact (List.mem_append.mp member).elim (barless c) (whole.barless c)
  | cons next others ih =>
    have rest := ih next (fun part member => solid part (List.mem_cons_of_mem _ member))
      [' '] (by simp) (by simp [isSpace]) (by simp) (solid next (by simp))
    -- The blank before a bar belongs to the piece before it, the one behind it leads the next.
    have piece : ∀ c ∈ lead ++ (first ++ [' ']), c ≠ '|' := by
      intro c member
      simp only [List.mem_append, List.mem_singleton] at member
      rcases member with member | member | rfl
      · exact barless c member
      · exact whole.barless c member
      · decide
    have split := pieces_bar piece ([' '] ++ [' ', '|', ' '].intercalate (next :: others))
    rw [List.intercalate_cons_cons]
    simp only [List.append_assoc, List.cons_append, List.nil_append] at split rest ⊢
    rw [split, List.mapM_cons, rest, piece?_append table whole lead [' '] blank (by simp [isSpace]),
      List.mapM_cons (a := first)]

end Reading

/-- What makes a table readable: its names are solid, none of them looks like a number, and no two
are the same; the bits of the flags that are set and the bits without a name make up the byte. -/
structure Readable (table : Table) : Prop where
  solid : ∀ flag ∈ table, Solid flag.1.toList
  named : ∀ flag ∈ table, flag.1.toList.head? ≠ some '0'
  distinct : (table.map Prod.fst).Nodup
  whole : ∀ byte, ((Flags.named table byte).map Prod.snd).foldl (· ||| ·) 0 ||| unnamed table byte =
    byte

def parts (table : Table) (byte : UInt8) : List (List Char × UInt8) :=
  (named table byte).map (fun flag => (flag.1.toList, flag.2)) ++
    if unnamed table byte = 0 then []
    else [('0' :: 'x' :: Nat.toDigits 16 (unnamed table byte).toNat, unnamed table byte)]

theorem toList_write (table : Table) (byte : UInt8) :
    (write table byte).toList = [' ', '|', ' '].intercalate ((parts table byte).map Prod.fst) := by
  rw [write, String.toList_intercalate, parts, List.map_append, List.map_append, List.map_map,
    List.map_map]
  congr 2
  split <;> simp

theorem forall_byte {P : UInt8 → Prop}
    (all : ∀ high low : Fin 16, P (UInt8.ofNat (16 * high.val + low.val))) (byte : UInt8) :
    P byte := by
  have small : byte.toNat < 256 := byte.toNat_lt
  have digits := all ⟨byte.toNat / 16, by omega⟩ ⟨byte.toNat % 16, by omega⟩
  rwa [Nat.div_add_mod, UInt8.ofNat_toNat] at digits

theorem number?_toDigits : ∀ byte, number? (Nat.toDigits 16 byte.toNat) = some byte :=
  forall_byte (by decide +kernel)

theorem solid_toDigits : ∀ byte, Solid ('0' :: 'x' :: Nat.toDigits 16 (UInt8.toNat byte)) :=
  forall_byte (by decide +kernel)

namespace Readable

variable {table : Table} (readable : Readable table)

include readable

theorem piece?_name {flag : String × UInt8} (member : flag ∈ table) :
    piece? table flag.1.toList = some flag.2 := by
  rw [piece?, trim_solid (readable.solid flag member)]
  split
  · next digits starts =>
    exact absurd (congrArg List.head? starts) (readable.named flag member)
  · rw [String.ofList_toList, find?_entry readable.distinct member]
    rfl

theorem piece?_part (byte : UInt8) :
    ∀ part ∈ parts table byte, Solid part.1 ∧ piece? table part.1 = some part.2 := by
  intro part member
  rcases List.mem_append.mp member with member | member
  · obtain ⟨flag, listed, rfl⟩ := List.mem_map.mp member
    have known : flag ∈ table := (List.mem_filter.mp listed).1
    exact ⟨readable.solid flag known, readable.piece?_name known⟩
  · split at member
    · cases member
    · cases List.mem_singleton.mp member
      refine ⟨solid_toDigits _, ?_⟩
      rw [piece?, trim_solid (solid_toDigits _)]
      exact number?_toDigits _

theorem bits_parts (byte : UInt8) : ((parts table byte).map Prod.snd).foldl (· ||| ·) 0 = byte := by
  refine Eq.trans ?_ (readable.whole byte)
  rw [parts, List.map_append, List.map_map, List.foldl_append]
  split
  · next none => simp [none, Function.comp_def]
  · simp [Function.comp_def]

/-- Every byte is read back, also its bits without a name. -/
theorem read?_write (byte : UInt8) : read? table (write table byte) = some byte := by
  have solid := readable.piece?_part byte
  have bits := readable.bits_parts byte
  rw [read?, toList_write]
  cases written : parts table byte with
  | nil =>
    rw [written] at bits
    rw [if_pos (by simp)]
    exact congrArg some bits
  | cons first others =>
    rw [written] at solid bits
    have visible :
        ¬ ([' ', '|', ' '].intercalate ((first :: others).map Prod.fst)).all isSpace := by
      intro spaces
      have starts := (solid first List.mem_cons_self).1
      obtain ⟨c, member⟩ := List.exists_mem_of_ne_nil _ starts.nonempty
      have space := List.all_eq_true.mp spaces c (mem_intercalate member)
      exact absurd space (Bool.eq_false_iff.mp (starts.spaceless c member))
    have read : ((first :: others).map Prod.fst).mapM (piece? table) =
        some ((first :: others).map Prod.snd) :=
      mapM_map_eq_some fun part member => (solid part member).2
    have texts : ∀ text ∈ (first :: others).map Prod.fst, Solid text := by
      intro text member
      obtain ⟨part, listed, rfl⟩ := List.mem_map.mp member
      exact (solid part listed).1
    have pieces := mapM_piece? table first.1 (others.map Prod.fst) texts [] (by simp)
    rw [← List.map_cons, List.nil_append, read] at pieces
    rw [if_neg visible, pieces]
    exact congrArg some bits

end Readable

end Overlay.Flags
