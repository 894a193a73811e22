import Overlay.Json.Number

/-!
Strings and numbers are read back as they are written. A string ends at its closing quote whatever
follows; the digits of a number end where something follows that is no part of a number.
-/

set_option autoImplicit false

namespace Overlay.Json

/-! ## Strings -/

def escaped (text : List Char) : List Char :=
  text.flatMap fun c => (escapeChar c).toList

theorem toList_quote (text : String) :
    (quote text).toList = '"' :: (escaped text.toList ++ ['"']) := by
  have folded : ∀ (chars : List Char) (start : String),
      (chars.foldl (fun quoted c => quoted ++ escapeChar c) start).toList =
        start.toList ++ escaped chars := by
    intro chars
    induction chars with
    | nil => simp [escaped]
    | cons c rest ih =>
      intro start
      rw [List.foldl_cons, ih, String.toList_append, List.append_assoc]
      rfl
  rw [quote, String.toList_append, folded]
  rfl

inductive Escape (c : Char) : List Char → Prop where
  | letter (letter : Char) (plain : letter ≠ 'u') (means : escaped? letter = some c) :
      Escape c ['\\', letter]
  | code (control : c.toNat < 32) :
      Escape c ['\\', 'u', '0', '0', Nat.digitChar (c.toNat / 16), Nat.digitChar (c.toNat % 16)]
  | itself (quote : c ≠ '"') (backslash : c ≠ '\\') (printed : ¬ c.toNat < 32) : Escape c [c]

theorem escape_escapeChar (c : Char) : Escape c (escapeChar c).toList := by
  unfold escapeChar
  split
  · exact .letter '"' (by decide) rfl
  · exact .letter '\\' (by decide) rfl
  · exact .letter 'n' (by decide) rfl
  · exact .letter 'r' (by decide) rfl
  · exact .letter 't' (by decide) rfl
  · exact .letter 'b' (by decide) rfl
  · exact .letter 'f' (by decide) rfl
  · next quote backslash _ _ _ _ _ =>
    split
    · next control =>
      rw [String.toList_append, String.toList_ofList, String.toList_ofList]
      exact .code control
    · next printed =>
      rw [Char.toString, String.toList_singleton]
      exact .itself quote backslash printed

theorem quoted?_cons {c : Char} (quote : c ≠ '"') (backslash : c ≠ '\\') (printed : ¬ c.toNat < 32)
    (seen rest : List Char) : quoted? seen (c :: rest) = quoted? (c :: seen) rest := by
  rw [quoted?.eq_def]
  split
  · next ends => cases ends
  · next ends => cases ends; exact absurd rfl quote
  · next starts => cases starts; exact absurd rfl backslash
  · next same =>
    cases same
    exact if_neg printed

theorem quoted?_digitChar {value : Nat} (small : value < 16) (seen rest : List Char) :
    quoted? seen (Nat.digitChar value :: rest) = quoted? (Nat.digitChar value :: seen) rest := by
  have printed : ∀ v : Fin 16, ¬ (Nat.digitChar v.val).toNat < 32 := by decide
  exact quoted?_cons (Nat.digitChar_ne _ rfl) (Nat.digitChar_ne _ rfl) (printed ⟨value, small⟩)
    seen rest

theorem hex4?_byte {value : Nat} (small : value < 256) (rest : List Char) :
    hex4? ('0' :: '0' :: Nat.digitChar (value / 16) :: Nat.digitChar (value % 16) :: rest) =
      some (value, rest) := by
  have upper : Hex.digit? (Nat.digitChar (value / 16)) = some (value / 16) :=
    Hex.digit?_digitChar (by omega)
  have lower : Hex.digit? (Nat.digitChar (value % 16)) = some (value % 16) :=
    Hex.digit?_digitChar (by omega)
  have zero : Hex.digit? '0' = some 0 := by decide
  simp [hex4?, zero, upper, lower]
  omega

namespace Escape

variable {c : Char} {written : List Char} (escape : Escape c written) (seen rest : List Char)

include escape

theorem quoted? : quoted? seen (written ++ rest) = Json.quoted? (written.reverse ++ seen) rest := by
  cases escape with
  | letter letter plain means => simp [Json.quoted?]
  | code control =>
    have high : c.toNat / 16 < 16 := by omega
    have low : c.toNat % 16 < 16 := by omega
    have zero := quoted?_cons (c := '0') (by decide) (by decide) (by decide)
    simp only [List.cons_append, List.nil_append, Json.quoted?, zero, quoted?_digitChar high,
      quoted?_digitChar low]
    rfl
  | itself quote backslash printed => exact quoted?_cons quote backslash printed seen rest

theorem unescape? (fuel : Nat) :
    Json.unescape? (fuel + 1) seen (written ++ rest) = Json.unescape? fuel (c :: seen) rest := by
  cases escape with
  | letter letter plain means =>
    have read : escape? (letter :: rest) = some (c, rest) := by
      simp [escape?, means]
    simp [Json.unescape?, read]
  | code control =>
    have read : escape? ('u' :: '0' :: '0' :: Nat.digitChar (c.toNat / 16) ::
        Nat.digitChar (c.toNat % 16) :: rest) = some (c, rest) := by
      have high : isHighSurrogate c.toNat = false := by simp [isHighSurrogate]; omega
      have low : isLowSurrogate c.toNat = false := by simp [isLowSurrogate]; omega
      simp [escape?, unicodeEscape?, hex4?_byte (show c.toNat < 256 by omega), high, low]
    simp [Json.unescape?, read]
  | itself quote backslash printed =>
    rw [List.singleton_append, Json.unescape?]
    exact fun same => backslash same

theorem length_pos : 0 < written.length := by
  cases escape <;> simp

end Escape

theorem length_le_escaped (text : List Char) : text.length ≤ (escaped text).length := by
  induction text with
  | nil => simp
  | cons c rest ih =>
    have longer := (escape_escapeChar c).length_pos
    rw [escaped, List.flatMap_cons, List.length_append, List.length_cons]
    change rest.length ≤ (rest.flatMap fun c => (escapeChar c).toList).length at ih
    omega

theorem quoted?_escaped (text seen rest : List Char) :
    quoted? seen (escaped text ++ '"' :: rest) = some (seen.reverse ++ escaped text, rest) := by
  induction text generalizing seen with
  | nil => simp [escaped, quoted?]
  | cons c text ih =>
    rw [escaped, List.flatMap_cons, List.append_assoc, (escape_escapeChar c).quoted?, ← escaped, ih]
    simp

theorem unescape?_escaped {fuel : Nat} {text : List Char} (enough : text.length ≤ fuel)
    (seen : List Char) :
    unescape? fuel seen (escaped text) = some (String.ofList (seen.reverse ++ text)) := by
  induction text generalizing fuel seen with
  | nil => cases fuel <;> simp [escaped, unescape?]
  | cons c text ih =>
    cases fuel with
    | zero => simp at enough
    | succ fuel =>
      rw [escaped, List.flatMap_cons, (escape_escapeChar c).unescape?, ← escaped,
        ih (Nat.le_of_succ_le_succ enough)]
      simp

/-- A string is read up to its closing quote, whatever follows. -/
theorem string?_escaped (text : String) (rest : List Char) :
    string? (escaped text.toList ++ '"' :: rest) = some (text, rest) := by
  rw [string?, quoted?_escaped]
  simp [unescape?_escaped (length_le_escaped text.toList)]

/-! ## Numbers -/

def endsNumber (rest : List Char) : Bool :=
  rest.head?.all fun c => !c.isDigit && c ≠ '.' && c ≠ 'e' && c ≠ 'E'

theorem isDigit_of_endsNumber {c : Char} {rest : List Char}
    (ends : endsNumber (c :: rest) = true) : c.isDigit = false := by
  simp only [endsNumber, List.head?_cons, Option.all_some, Bool.and_eq_true,
    Bool.not_eq_true'] at ends
  exact ends.1.1.1

theorem digits_append {found rest : List Char} (all : ∀ c ∈ found, c.isDigit = true)
    (ends : endsNumber rest = true) : digits (found ++ rest) = (found, rest) := by
  rw [digits, List.takeWhile_append_of_pos all, List.dropWhile_append_of_pos all]
  cases rest with
  | nil => simp
  | cons c rest =>
    have other := Bool.eq_false_iff.mp (isDigit_of_endsNumber ends)
    rw [List.takeWhile_cons_of_neg other, List.dropWhile_cons_of_neg other, List.append_nil]

theorem all_isDigit_toDigits (value : Nat) : ∀ c ∈ Nat.toDigits 10 value, c.isDigit = true :=
  fun _ => Nat.isDigit_of_mem_toDigits (by decide) (by decide)

theorem starts_toDigits (value : Nat) :
    ∃ digit rest, digit.isDigit = true ∧ Nat.toDigits 10 value = digit :: rest := by
  have nonempty : Nat.toDigits 10 value ≠ [] := Nat.toDigits_ne_nil
  obtain ⟨digit, rest, same⟩ := List.exists_cons_of_ne_nil nonempty
  exact ⟨digit, rest, all_isDigit_toDigits value digit (same ▸ List.mem_cons_self), same⟩

theorem head_toDigits {value : Nat} (nonzero : value ≠ 0) :
    ∃ digit rest, digit ≠ '0' ∧ Nat.toDigits 10 value = digit :: rest := by
  induction value using Nat.strongRecOn with
  | ind value ih =>
    by_cases small : value < 10
    · refine ⟨Nat.digitChar value, [], ?_, Nat.toDigits_of_lt_base small⟩
      exact mt Nat.digitChar_eq_zero.mp nonzero
    · obtain ⟨digit, rest, first, same⟩ := ih (value / 10) (by omega) (by omega)
      refine ⟨digit, rest ++ [Nat.digitChar (value % 10)], first, ?_⟩
      rw [Nat.toDigits_of_base_le (by decide) (by omega), same, List.cons_append]

namespace Number

def ofNat (value : Nat) : Number := ⟨false, Nat.toDigits 10 value, [], none⟩

theorem whole?_toDigits (value : Nat) {rest : List Char} (ends : endsNumber rest = true) :
    whole? (Nat.toDigits 10 value ++ rest) = some (Nat.toDigits 10 value, rest) := by
  by_cases zero : value = 0
  · subst zero
    cases rest with
    | nil => rfl
    | cons c rest => simp [whole?, isDigit_of_endsNumber ends]
  · obtain ⟨digit, later, nonzero, same⟩ := head_toDigits zero
    have found := digits_append (all_isDigit_toDigits value) ends
    rw [same, List.cons_append] at found ⊢
    rw [whole?]
    · rw [digits?, found]
    · exact fun _ zero => nonzero (List.cons.inj zero).1

theorem unsigned?_toDigits (value : Nat) {rest : List Char} (ends : endsNumber rest = true) :
    unsigned? false (Nat.toDigits 10 value ++ rest) = some (ofNat value, rest) := by
  -- What follows has neither a point nor an exponent, so the digits are the whole number.
  have fraction : fraction? rest = some ([], rest) := by
    cases rest with
    | nil => rfl
    | cons c rest =>
      rw [fraction?]
      rintro _ ⟨⟩
      cases ends
  have exponent : exponent? rest = some (none, rest) := by
    cases rest with
    | nil => rfl
    | cons c rest =>
      rw [exponent?] <;> rintro _ ⟨⟩ <;> cases ends
  rw [unsigned?, whole?_toDigits value ends]
  simp [fraction, exponent, ofNat]

theorem read?_toDigits (value : Nat) {rest : List Char} (ends : endsNumber rest = true) :
    read? (Nat.toDigits 10 value ++ rest) = some (ofNat value, rest) := by
  have number := unsigned?_toDigits value ends
  obtain ⟨digit, later, isDigit, same⟩ := starts_toDigits value
  rw [same, List.cons_append] at number ⊢
  rw [read?, number]
  rintro _ ⟨⟩
  cases isDigit

theorem toJson_ofNat (value : Nat) : (ofNat value).toJson = .nat value := by
  simp [toJson, nat?, ofNat, Nat.ofDigitChars_ten_toDigits]

theorem appendWhole_of_lt {digits : List Char} {coefficient : Nat}
    (small : Nat.ofDigitChars 10 digits coefficient < 2 ^ 64) :
    appendWhole coefficient digits = (Nat.ofDigitChars 10 digits coefficient, 0) := by
  induction digits generalizing coefficient with
  | nil => rfl
  | cons digit rest ih =>
    rw [Nat.ofDigitChars_cons] at small ⊢
    have appended : append coefficient digit < 2 ^ 64 := by
      -- The digits that are left only make the number larger.
      refine Nat.lt_of_le_of_lt ?_ small
      rw [Nat.ofDigitChars_eq_ofDigitChars_zero, ← append]
      have positive : 0 < 10 ^ rest.length := Nat.pow_pos (by decide)
      exact Nat.le_trans (Nat.le_mul_of_pos_left _ positive) (Nat.le_add_right _ _)
    rw [appendWhole, if_pos appended]
    exact ih small

/-- No power of ten is split off a number of 64 bits. -/
theorem isFinite_ofNat {value : Nat} (small : value < 2 ^ 64) : (ofNat value).isFinite = true := by
  have whole : appendWhole 0 (Nat.toDigits 10 value) = (value, 0) := by
    rw [appendWhole_of_lt] <;> rw [Nat.ofDigitChars_ten_toDigits]
    exact small
  simp [isFinite, scaled, ofNat, whole, appendFraction]

end Number

end Overlay.Json
