import QueryViews.Text.CharClass
import QueryViews.Text.Number

/-! Decimal digits and the numbers they denote. -/

namespace QueryViews.Text

theorem digitsValueFrom_cons (high : Nat) (c : Char) (rest : List Char) :
    digitsValueFrom high (c :: rest) =
      digitsValueFrom (high * 10 + (c.toNat - '0'.toNat)) rest := by
  change digitsValueFrom (high * 10 + (c.toNat - '0'.toNat)) rest = _
  rfl

theorem digitsValueFrom_eq (digits : List Char) (high : Nat) :
    digitsValueFrom high digits = Nat.ofDigitChars 10 digits high := by
  induction digits generalizing high with
  | nil => rfl
  | cons c rest ih => rw [digitsValueFrom_cons, ih, Nat.ofDigitChars_cons, Nat.mul_comm 10]

theorem isDigit_of_mem_toDigits {n : Nat} {c : Char} (member : c ∈ Nat.toDigits 10 n) :
    c.isDigit = true :=
  Nat.isDigit_of_mem_toDigits (by decide) (by decide) member

theorem digitsValue_toDigits (n : Nat) : digitsValue (Nat.toDigits 10 n) = n := by
  rw [digitsValue, digitsValueFrom_eq, Nat.ofDigitChars_ten_toDigits]

theorem toNat_of_isDigit {c : Char} (digit : c.isDigit = true) : 48 ≤ c.toNat ∧ c.toNat ≤ 57 := by
  simp only [Char.isDigit, Bool.and_eq_true, decide_eq_true_eq] at digit
  exact digit

theorem isBlank_of_isDigit {c : Char} (digit : c.isDigit = true) : isBlank c = false := by
  obtain ⟨low, high⟩ := toNat_of_isDigit digit
  simp only [isBlank, blankRuns, List.any_cons, List.any_nil, Bool.or_false, Bool.or_eq_false_iff,
    Bool.and_eq_false_iff, decide_eq_false_iff_not]
  omega

/-- So many digits denote a number below that power of ten. -/
theorem digitsValueFrom_lt {digits : List Char} (all : ∀ c ∈ digits, c.isDigit = true)
    (high : Nat) : digitsValueFrom high digits < (high + 1) * tenTo digits.length := by
  induction digits generalizing high with
  | nil => exact Nat.lt_of_lt_of_eq (Nat.lt_succ_self high) (Nat.mul_one _).symm
  | cons c rest ih =>
    obtain ⟨digit, others⟩ := List.forall_mem_cons.1 all
    have single : high * 10 + (c.toNat - '0'.toNat) + 1 ≤ (high + 1) * 10 := by
      have most := (toNat_of_isDigit digit).2
      have zero : '0'.toNat = 48 := rfl
      omega
    rw [digitsValueFrom_cons]
    generalize high * 10 + (c.toNat - '0'.toNat) = longer at single
    calc digitsValueFrom longer rest
        < (longer + 1) * tenTo rest.length := ih others longer
      _ ≤ (high + 1) * 10 * tenTo rest.length := Nat.mul_le_mul_right _ single
      _ = (high + 1) * tenTo (c :: rest).length := by
        rw [List.length_cons, tenTo_succ, Nat.mul_assoc, Nat.mul_comm 10]

theorem digitsValue_lt {digits : List Char} (all : ∀ c ∈ digits, c.isDigit = true) :
    digitsValue digits < tenTo digits.length :=
  Nat.lt_of_lt_of_eq (digitsValueFrom_lt all 0) (Nat.one_mul _)

theorem digitsValue_zeros (count : Nat) (digits : List Char) :
    digitsValue (List.replicate count '0' ++ digits) = digitsValue digits := by
  induction count with
  | zero => rfl
  | succ count ih =>
    rw [List.replicate_succ, List.cons_append, digitsValue, digitsValueFrom_cons]
    exact ih

end QueryViews.Text
