import QueryViews.Decode.Format
import QueryViews.Proofs.Text.Blanks
import QueryViews.Proofs.Text.Digits

/-! Integers as numbers and as text. A text that writes an integer is read as that integer up to the
largest one of 64 bits with a sign. A number is taken as it is, so the integers above are read as
numbers only. -/

namespace QueryViews

namespace Text

/-- The text writes the integer in decimal: an optional sign and at least one digit, be they zeros,
with blanks around them. -/
def Denotes (text : List Char) (n : Int) : Prop :=
  ∃ before sign digits after,
    text = before ++ (sign ++ digits) ++ after ∧
      (∀ c ∈ before, isBlank c = true) ∧ (∀ c ∈ after, isBlank c = true) ∧
      digits ≠ [] ∧ (∀ c ∈ digits, c.isDigit = true) ∧
      (sign = ['-'] ∧ n = -(digitsValue digits : Int) ∨
        (sign = [] ∨ sign = ['+']) ∧ n = digitsValue digits)

theorem le_digitsValueFrom (high : Nat) (digits : List Char) :
    high ≤ digitsValueFrom high digits := by
  induction digits generalizing high with
  | nil => exact Nat.le_refl high
  | cons c rest ih =>
    rw [digitsValueFrom_cons]
    exact Nat.le_trans (by omega) (ih _)

/-- Digits are read behind a sign. -/
def signed (negative : Bool) (magnitude : Nat) : Int :=
  if negative then -(magnitude : Int) else magnitude

/-- The first magnitude that is out of range. -/
def magnitudeBound (negative : Bool) : Nat :=
  if negative then 0x8000000000000001 else 0x8000000000000000

def boundFault (negative : Bool) : IntegerFault := if negative then .tooSmall else .tooLarge

/-- One digit either leaves the range or makes the magnitude longer. -/
theorem integerAfter_cons (negative : Bool) (value : Nat) {c : Char} (rest : List Char)
    (digit : c.isDigit = true) :
    integerAfter negative (signed negative value) (c :: rest) =
      if value * 10 + (c.toNat - '0'.toNat) < magnitudeBound negative then
        integerAfter negative (signed negative (value * 10 + (c.toNat - '0'.toNat))) rest
      else .error (boundFault negative) := by
  have low : '0'.toNat ≤ c.toNat := (toNat_of_isDigit digit).1
  generalize longer : value * 10 + (c.toNat - '0'.toNat) = magnitude
  have next : (if negative then signed negative value * 10 - (c.toNat - '0'.toNat : Int)
      else signed negative value * 10 + (c.toNat - '0'.toNat : Int)) =
      signed negative magnitude := by
    cases negative with
    | true =>
      simp only [signed, if_true]
      omega
    | false =>
      simp only [signed, Bool.false_eq_true, if_false]
      omega
  rw [integerAfter, digit]
  simp only [Bool.not_true, Bool.false_eq_true, if_false, next]
  cases negative with
  | true =>
    simp only [signed, magnitudeBound, boundFault, integerBound, integerMin, if_true]
    rw [if_neg (by omega)]
    by_cases fits : magnitude < 0x8000000000000001
    · rw [if_pos fits, if_neg (by omega)]
    · rw [if_neg fits, if_pos (by omega)]
  | false =>
    simp only [signed, magnitudeBound, boundFault, integerBound, integerMin, Bool.false_eq_true,
      if_false]
    split
    · rw [if_neg (by omega)]
    · rw [if_neg (by omega), if_pos (by omega)]

theorem integerAfter_of_digits {negative : Bool} {value : Nat} {digits : List Char}
    (inRange : value < magnitudeBound negative) (all : ∀ c ∈ digits, c.isDigit = true) :
    integerAfter negative (signed negative value) digits =
      if digitsValueFrom value digits < magnitudeBound negative then
        .ok (signed negative (digitsValueFrom value digits))
      else .error (boundFault negative) := by
  induction digits generalizing value with
  | nil => exact (if_pos inRange).symm
  | cons c rest ih =>
    obtain ⟨digit, others⟩ := List.forall_mem_cons.1 all
    rw [integerAfter_cons negative value rest digit, digitsValueFrom_cons]
    generalize value * 10 + (c.toNat - '0'.toNat) = longer
    split
    next smaller => exact ih smaller others
    next larger =>
      have grows := le_digitsValueFrom longer rest
      exact (if_neg fun small => larger (Nat.lt_of_le_of_lt grows small)).symm

theorem lt_magnitudeBound_iff {negative : Bool} {magnitude : Nat} :
    magnitude < magnitudeBound negative ↔
      integerMin ≤ signed negative magnitude ∧ signed negative magnitude < integerBound := by
  cases negative with
  | true =>
    simp only [magnitudeBound, signed, integerMin, integerBound, if_true]
    omega
  | false =>
    simp only [magnitudeBound, signed, integerMin, integerBound, Bool.false_eq_true, if_false]
    omega

theorem integerAfter_zero {negative : Bool} {digits : List Char}
    (all : ∀ c ∈ digits, c.isDigit = true) :
    integerAfter negative 0 digits =
      if integerMin ≤ signed negative (digitsValue digits) ∧
          signed negative (digitsValue digits) < integerBound then
        .ok (signed negative (digitsValue digits))
      else .error (boundFault negative) := by
  have zero : signed negative 0 = 0 := by cases negative <;> rfl
  have inRange : 0 < magnitudeBound negative := by cases negative <;> decide
  have read := integerAfter_of_digits inRange all
  rw [zero] at read
  exact read.trans (if_congr lt_magnitudeBound_iff rfl rfl)

theorem isDigit_of_integerAfter {negative : Bool} {value n : Int} {digits : List Char}
    (read : integerAfter negative value digits = .ok n) : ∀ c ∈ digits, c.isDigit = true := by
  induction digits generalizing value with
  | nil => exact fun _ none => absurd none List.not_mem_nil
  | cons c rest ih =>
    unfold integerAfter at read
    cases digit : c.isDigit with
    | false =>
      rw [digit] at read
      cases read
    | true =>
      simp only [digit, Bool.not_true, Bool.false_eq_true, if_false] at read
      refine List.forall_mem_cons.2 ⟨digit, ?_⟩
      generalize (if negative then value * 10 - (c.toNat - '0'.toNat : Int)
        else value * 10 + (c.toNat - '0'.toNat : Int)) = longer at read
      by_cases large : integerBound ≤ longer
      · rw [if_pos large] at read
        cases read
      · by_cases small : longer < integerMin
        · rw [if_neg large, if_pos small] at read
          cases read
        · rw [if_neg large, if_neg small] at read
          exact ih read

theorem integer_unsigned {digits : List Char} (some : digits ≠ [])
    (all : ∀ c ∈ digits, c.isDigit = true) : integer digits = integerAfter false 0 digits := by
  cases digits with
  | nil => exact absurd rfl some
  | cons c rest =>
    have digit := all c List.mem_cons_self
    cases rest with
    | nil => exact if_pos digit
    | cons d others =>
      have notMinus : c ≠ '-' := by
        rintro rfl
        exact absurd digit (by decide)
      have notPlus : c ≠ '+' := by
        rintro rfl
        exact absurd digit (by decide)
      simp [integer, notMinus, notPlus]

theorem integer_minus {digits : List Char} (some : digits ≠ []) :
    integer ('-' :: digits) = integerAfter true 0 digits := by
  cases digits with
  | nil => exact absurd rfl some
  | cons => rfl

theorem integer_plus {digits : List Char} (some : digits ≠ []) :
    integer ('+' :: digits) = integerAfter false 0 digits := by
  cases digits with
  | nil => exact absurd rfl some
  | cons => rfl

/-- What is read has a sign or none, and digits behind it. -/
theorem exists_sign {text : List Char} {n : Int} (read : integer text = .ok n) :
    ∃ negative sign digits, text = sign ++ digits ∧ digits ≠ [] ∧
      (sign = ['-'] ∧ negative = true ∨ (sign = [] ∨ sign = ['+']) ∧ negative = false) ∧
        integerAfter negative 0 digits = .ok n := by
  unfold integer at read
  split at read
  case h_1 => cases read
  case h_2 c =>
    split at read
    · exact ⟨false, [], [c], rfl, by simp, .inr ⟨.inl rfl, rfl⟩, read⟩
    · cases read
  case h_3 digits more =>
    refine ⟨true, ['-'], digits, rfl, ?_, .inl ⟨rfl, rfl⟩, read⟩
    rintro rfl
    exact more rfl
  case h_4 digits more =>
    refine ⟨false, ['+'], digits, rfl, ?_, .inr ⟨.inr rfl, rfl⟩, read⟩
    rintro rfl
    exact more rfl
  case h_5 some _ _ _ => exact ⟨false, [], text, rfl, some, .inr ⟨.inl rfl, rfl⟩, read⟩

/-- A text that writes an integer is read as it, or the integer is out of range. -/
theorem integer_of_denotes {text : List Char} {n : Int} (written : Denotes text n) :
    integer (trim text) =
      if integerMin ≤ n ∧ n < integerBound then .ok n else .error (boundFault (n < 0)) := by
  obtain ⟨before, sign, digits, after, rfl, blankBefore, blankAfter, some, all, value⟩ := written
  have visible : ∀ c ∈ sign ++ digits, isBlank c = false := by
    refine List.forall_mem_append.2 ⟨?_, fun c inside => isBlank_of_isDigit (all c inside)⟩
    rcases value with ⟨rfl, -⟩ | ⟨rfl | rfl, -⟩
    · exact List.forall_mem_singleton.2 rfl
    · exact fun _ none => absurd none List.not_mem_nil
    · exact List.forall_mem_singleton.2 rfl
  rw [trim_around blankBefore blankAfter visible]
  rcases value with ⟨rfl, rfl⟩ | ⟨plain, rfl⟩
  · refine (integer_minus some).trans ((integerAfter_zero all).trans ?_)
    by_cases inRange :
      integerMin ≤ -(digitsValue digits : Int) ∧ -(digitsValue digits : Int) < integerBound
    · exact (if_pos inRange).trans (if_pos inRange).symm
    · have negative : -(digitsValue digits : Int) < 0 := by
        simp only [integerMin, integerBound] at inRange
        omega
      rw [decide_eq_true negative]
      exact (if_neg inRange).trans (if_neg inRange).symm
  · have read : integer (sign ++ digits) = integerAfter false 0 digits := by
      rcases plain with rfl | rfl
      · exact integer_unsigned some all
      · exact integer_plus some
    have positive : ¬(digitsValue digits : Int) < 0 := by omega
    refine read.trans ((integerAfter_zero all).trans ?_)
    rw [decide_eq_false positive]
    rfl

theorem denotes_of_integer {text : List Char} {n : Int} (read : integer (trim text) = .ok n) :
    Denotes text n := by
  obtain ⟨before, after, shape, blankBefore, blankAfter⟩ := exists_trim text
  obtain ⟨negative, sign, digits, parts, some, signs, digitsRead⟩ := exists_sign read
  have all := isDigit_of_integerAfter digitsRead
  rw [integerAfter_zero all] at digitsRead
  split at digitsRead
  · obtain rfl := Except.ok.inj digitsRead
    refine ⟨before, sign, digits, after, parts ▸ shape, blankBefore, blankAfter, some, all, ?_⟩
    rcases signs with ⟨minus, rfl⟩ | ⟨plain, rfl⟩
    · exact .inl ⟨minus, rfl⟩
    · exact .inr ⟨plain, rfl⟩
  · cases digitsRead

/-- An integer is written by its own digits. -/
theorem denotes_toString (n : Int) : Denotes (toString n).toList n := by
  have digits : ∀ m : Nat, ∀ c ∈ Nat.toDigits 10 m, c.isDigit = true :=
    fun _ _ member => isDigit_of_mem_toDigits member
  have none : ∀ c ∈ ([] : List Char), isBlank c = true :=
    fun _ member => absurd member List.not_mem_nil
  cases n with
  | ofNat m =>
    refine ⟨[], [], Nat.toDigits 10 m, [], ?_, none, none, Nat.toDigits_ne_nil, digits m,
      .inr ⟨.inl rfl, ?_⟩⟩
    · rw [List.append_nil]
      exact Nat.toList_repr
    · rw [digitsValue_toDigits]
      rfl
  | negSucc m =>
    refine ⟨[], ['-'], Nat.toDigits 10 (m + 1), [], ?_, none, none, Nat.toDigits_ne_nil, digits _,
      .inl ⟨rfl, ?_⟩⟩
    · rw [List.append_nil]
      show ("-" ++ Nat.repr (m + 1)).toList = _
      rw [String.toList_append, Nat.toList_repr]
      rfl
    · rw [digitsValue_toDigits]
      rfl

end Text

namespace Format

theorem integer_string (text : String) :
    integer (.string text) =
      match Text.integer (Text.trim text.toList) with
      | .ok n => .ok (.whole n)
      | .error fault => refuse (.string text) (ofIntegerFault fault) := rfl

/-- The texts that are read as integers are those that write one of 64 bits with a sign. -/
theorem integer_string_eq_ok_iff {text : String} {n : Int} :
    integer (.string text) = .ok (.whole n) ↔
      Text.Denotes text.toList n ∧ Text.integerMin ≤ n ∧ n < Text.integerBound := by
  rw [integer_string]
  constructor
  · intro read
    cases found : Text.integer (Text.trim text.toList) with
    | error fault =>
      rw [found] at read
      cases read
    | ok m =>
      rw [found] at read
      obtain rfl : m = n := Json.whole.inj (Except.ok.inj read)
      have written := Text.denotes_of_integer found
      refine ⟨written, ?_⟩
      rw [Text.integer_of_denotes written] at found
      by_contra outside
      rw [if_neg outside] at found
      cases found
  · rintro ⟨written, inRange⟩
    rw [Text.integer_of_denotes written, if_pos inRange]

/-- A number that is an integer is read as it is, and as text it is written in decimal. With any
sign, zeros and blanks that write it, the text is read as that integer too, if 64 bits with a sign
hold it, and is too large otherwise. -/
theorem integer_of_written {n : Int} (low : Json.wholeMin ≤ n) :
    integer (.whole n) = .ok (.whole n) ∧
      (∃ text, Format.text (.whole n) = .ok (.string text) ∧ Text.Denotes text.toList n) ∧
      ∀ text : String,
        (integer (.string text) = .ok (.whole n) ↔
          Text.Denotes text.toList n ∧ n < Text.integerBound) ∧
        (Text.Denotes text.toList n → Text.integerBound ≤ n →
          integer (.string text) = .error (.format (.string text) .integerTooLarge)) := by
  refine ⟨rfl, ⟨_, rfl, Text.denotes_toString n⟩, fun text => ⟨?_, fun written large => ?_⟩⟩
  · rw [integer_string_eq_ok_iff]
    exact and_congr_right fun _ => and_iff_right low
  · have outside : ¬(Text.integerMin ≤ n ∧ n < Text.integerBound) :=
      fun inRange => Int.not_lt.2 large inRange.2
    have positive : ¬n < 0 := by
      simp only [Text.integerBound] at large
      omega
    rw [integer_string, Text.integer_of_denotes written, if_neg outside, decide_eq_false positive]
    rfl

/-- The least integer of 64 bits, with zeros in front of it and on a line of its own. -/
theorem integer_of_written_least :
    Json.wholeMin ≤ -9223372036854775808 ∧
      Text.Denotes "\t-009223372036854775808\n".toList (-9223372036854775808) ∧
      integer (.string "\t-009223372036854775808\n") = .ok (.whole (-9223372036854775808)) := by
  have low : Json.wholeMin ≤ -9223372036854775808 := by decide
  have written : Text.Denotes "\t-009223372036854775808\n".toList (-9223372036854775808) :=
    ⟨['\t'], ['-'], "009223372036854775808".toList, ['\n'], by decide,
      List.forall_mem_singleton.2 rfl, List.forall_mem_singleton.2 rfl, by decide,
      List.all_eq_true.1 (by decide), .inl ⟨rfl, by decide⟩⟩
  obtain ⟨-, -, texts⟩ := integer_of_written low
  exact ⟨low, written, (texts _).1.2 ⟨written, by decide⟩⟩

/-- The first integer above the range is one as a number, and too large as the text of it. -/
theorem not_integer_of_written_above :
    integer (.whole 9223372036854775808) = .ok (.whole 9223372036854775808) ∧
      Format.text (.whole 9223372036854775808) = .ok (.string "9223372036854775808") ∧
      integer (.string "9223372036854775808") =
        .error (.format (.string "9223372036854775808") .integerTooLarge) := by
  refine ⟨rfl, ?_, ?_⟩
  · rfl
  · rw [integer_string]
    have read : Text.integer (Text.trim "9223372036854775808".toList) = .error .tooLarge := by
      decide
    rw [read]
    rfl

end Format
end QueryViews
