import QueryViews.Decimal.Binary64
import QueryViews.Json.Basic
import QueryViews.Text.Real

/-! Which floats are finite. Rounding moves the exponent of a number only so far, so integers of 64
bits are finite as floats. Decimal digits give a number or an infinity, never a float that is not a
number. -/

namespace QueryViews.Binary64

open Float.Model (UnpackedFloat)
open Float.Model.UnpackedFloat

abbrev format : Float.Model.Format := .binary64

/-- What is left of a number in the bits of a float. -/
abbrev stored (f : UnpackedFloat) : UnpackedFloat :=
  UnpackedFloat.unpack format (UnpackedFloat.pack format f)

/-- The exponent of the largest finite floats. -/
def largestExponent : Int := 971

/-- The exponent of the least floats. -/
def leastExponent : Int := -1074

/-- Zero, or a number with an exponent of at most this. -/
def Bounded (exponent : Int) : UnpackedFloat → Prop
  | .zero _ => True
  | .finite _ _ e _ => e ≤ exponent
  | .infinity _ | .notANumber => False

/-- Zero, or a number of so many binary digits at most. -/
def Short (digits : Nat) : UnpackedFloat → Prop
  | .zero _ => True
  | .finite _ m _ _ => m < twoTo digits
  | .infinity _ | .notANumber => False

theorem Bounded.mono {low high : Int} {f : UnpackedFloat} (bounded : Bounded low f)
    (le : low ≤ high) : Bounded high f := by
  cases f with
  | zero => trivial
  | finite => exact Int.le_trans bounded le
  | infinity => exact bounded.elim
  | notANumber => exact bounded.elim

theorem Bounded.neg {exponent : Int} {f : UnpackedFloat} (bounded : Bounded exponent f) :
    Bounded exponent f.neg := by
  cases f with
  | zero => trivial
  | finite => exact bounded
  | infinity => exact bounded.elim
  | notANumber => exact bounded.elim

theorem Bounded.isFinite {exponent : Int} {f : UnpackedFloat} (bounded : Bounded exponent f) :
    f.isFinite = true := by
  cases f with
  | zero => rfl
  | finite => rfl
  | infinity => exact bounded.elim
  | notANumber => exact bounded.elim

theorem Bounded.isNaN {exponent : Int} {f : UnpackedFloat} (bounded : Bounded exponent f) :
    f.isNaN = false := by
  cases f with
  | zero => rfl
  | finite => rfl
  | infinity => rfl
  | notANumber => exact bounded.elim

theorem isFinite_of_not {f : UnpackedFloat} (number : f.isNaN = false) (limited : f.isInf = false) :
    f.isFinite = true := by
  cases f with
  | zero => rfl
  | finite => rfl
  | infinity => cases limited
  | notANumber => cases number

section Bits
variable {b : BitVec format.numBits}

/-- An exponent of all ones is that of the infinities and of what is no number. The others belong to
numbers, which have 53 digits at most. -/
theorem unpack_cases (b : BitVec format.numBits) :
    unpackExponent b = -1#_ ∧ (UnpackedFloat.unpack format b).isFinite = false ∨
      unpackExponent b ≠ -1#_ ∧ Short 53 (UnpackedFloat.unpack format b) ∧
        Bounded (max (((unpackExponent b).toNat : Int) - 1075) leastExponent)
          (UnpackedFloat.unpack format b) := by
  unfold UnpackedFloat.unpack
  dsimp only
  by_cases large : unpackExponent b = -1#_
  · refine .inl ⟨large, ?_⟩
    rw [if_pos large]
    by_cases none : unpackMantissa b = 0#_
    · rw [if_pos none]
      rfl
    · rw [if_neg none]
      rfl
  · refine .inr ⟨large, ?_⟩
    rw [if_neg large]
    by_cases subnormal : unpackExponent b = 0#_
    · rw [if_pos subnormal, subnormal]
      by_cases none : unpackMantissa b = 0#_
      · rw [dif_pos none]
        exact ⟨trivial, trivial⟩
      · rw [dif_neg none]
        have wider : twoTo 52 ≤ twoTo 53 := by decide
        exact ⟨Nat.lt_of_lt_of_le (unpackMantissa b).isLt wider, Int.le_max_right _ _⟩
    · rw [if_neg subnormal]
      exact ⟨BitVec.isLt _, Int.le_max_left _ _⟩

theorem bounded_unpack (small : unpackExponent b ≠ -1#_) :
    Bounded (max (((unpackExponent b).toNat : Int) - 1075) leastExponent)
      (UnpackedFloat.unpack format b) := by
  rcases unpack_cases b with ⟨large, -⟩ | ⟨-, -, bounded⟩
  · exact absurd large small
  · exact bounded

theorem short_of_finite (finite : (UnpackedFloat.unpack format b).isFinite = true) :
    Short 53 (UnpackedFloat.unpack format b) ∧
      Bounded largestExponent (UnpackedFloat.unpack format b) := by
  rcases unpack_cases b with ⟨-, infinite⟩ | ⟨small, short, bounded⟩
  · rw [infinite] at finite
    cases finite
  · have below : (unpackExponent b).toNat ≠ 2047 := fun all => small (BitVec.eq_of_toNat_eq all)
    have width : (unpackExponent b).toNat < 2048 := (unpackExponent b).isLt
    refine ⟨short, bounded.mono (Int.max_le.2 ⟨?_, by decide⟩)⟩
    change _ ≤ (971 : Int)
    omega

end Bits

/-- Components with an exponent below the largest one are those of a number. -/
theorem bounded_packComponents {sign : Sign} {biased : Nat}
    {mantissa : BitVec format.mantissaBitsWithoutImplicit} {exponent : Int} (small : biased < 2047)
    (low : leastExponent ≤ exponent) (high : (biased : Int) - 1075 ≤ exponent) :
    Bounded exponent (UnpackedFloat.unpack format
      (packComponents format sign (BitVec.ofNat _ biased) mantissa)) := by
  have width : (BitVec.ofNat format.exponentBits biased).toNat = biased :=
    Nat.mod_eq_of_lt (Nat.lt_succ_of_lt small)
  have notAll : unpackExponent (packComponents format sign (BitVec.ofNat _ biased) mantissa) ≠
      -1#_ := by
    rw [unpackExponent_packComponents]
    intro all
    have value : biased = 2047 := width.symm.trans (congrArg BitVec.toNat all)
    omega
  refine (bounded_unpack notAll).mono ?_
  rw [unpackExponent_packComponents, width]
  exact Int.max_le.2 ⟨high, low⟩

theorem biasedExponent_eq (e : Int) :
    (e + format.exponentBias + format.mantissaBitsWithoutImplicit).toNat = (e + 1075).toNat :=
  congrArg Int.toNat (Int.add_assoc e 1023 52)

/-- What is packed within the range of exponents comes back within the same bound. -/
theorem bounded_stored {exponent : Int} {f : UnpackedFloat} (bounded : Bounded exponent f)
    (low : leastExponent ≤ exponent) (high : exponent ≤ largestExponent) :
    Bounded exponent (stored f) := by
  have zero : ((0 : Nat) : Int) - 1075 ≤ exponent := Int.le_trans (by decide) low
  cases f with
  | infinity => exact bounded.elim
  | notANumber => exact bounded.elim
  | zero sign => exact bounded_packComponents (by decide) low zero
  | finite sign m e positive =>
    have upper : e ≤ exponent := bounded
    simp only [leastExponent, largestExponent] at low high
    have biased := biasedExponent_eq e
    have small : (e + 1075).toNat < 2047 := by omega
    unfold stored UnpackedFloat.pack
    simp only [biased]
    rw [if_neg (Nat.not_le.2 (Nat.succ_lt_succ small))]
    split
    · exact bounded_packComponents small low (by omega)
    · exact bounded_packComponents (by decide) low zero

theorem unpack_packedInfinity (sign : Sign) :
    ∃ s, UnpackedFloat.unpack format (packedInfinity format sign) = .infinity s := by
  have none : unpackMantissa (packComponents format sign (-1#_) 0) = 0#_ :=
    unpackMantissa_packComponents
  unfold UnpackedFloat.unpack packedInfinity
  dsimp only
  rw [if_pos unpackExponent_packComponents, if_pos none]
  exact ⟨_, rfl⟩

theorem pack_of_largestExponent_lt {sign : Sign} {m : Nat} {e : Int} {positive : 0 < m}
    (large : largestExponent < e) :
    UnpackedFloat.pack format (.finite sign m e positive) = packedInfinity format sign := by
  have biased := biasedExponent_eq e
  simp only [largestExponent] at large
  unfold UnpackedFloat.pack
  simp only [biased]
  refine if_pos ?_
  change 2048 ≤ _
  omega

/-- Packing a number gives a number, be it too large. -/
theorem isNaN_stored {f : UnpackedFloat} (number : f.isNaN = false) :
    (stored f).isNaN = false := by
  have bounds : leastExponent ≤ largestExponent := by decide
  have infinite : ∀ sign,
      (UnpackedFloat.unpack format (packedInfinity format sign)).isNaN = false := fun sign => by
    obtain ⟨s, unpacked⟩ := unpack_packedInfinity sign
    rw [unpacked]
    rfl
  cases f with
  | notANumber => cases number
  | infinity sign => exact infinite sign
  | zero sign =>
    have zero : Bounded largestExponent (.zero sign) := trivial
    exact (bounded_stored zero bounds (Int.le_refl _)).isNaN
  | finite sign m e positive =>
    by_cases fits : e ≤ largestExponent
    · have finite : Bounded largestExponent (.finite sign m e positive) := fits
      exact (bounded_stored finite bounds (Int.le_refl _)).isNaN
    · rw [stored, pack_of_largestExponent_lt (Int.not_le.1 fits)]
      exact infinite sign

theorem mantissa_shiftRight_le (m : ExtendedMantissa) (count : Nat) :
    (m >>> count).mantissa ≤ m.mantissa := by
  change (count.repeat ExtendedMantissa.shiftRightOne m).mantissa ≤ m.mantissa
  induction count with
  | zero => exact Nat.le_refl _
  | succ count ih => exact Nat.le_trans (Nat.div_le_self _ 2) ih

theorem roundedMantissa_le (m : ExtendedMantissa) : m.roundedMantissa ≤ m.mantissa + 1 := by
  obtain ⟨mantissa, round, sticky⟩ := m
  cases round with
  | false => cases sticky <;> exact Nat.le_succ _
  | true =>
    cases sticky with
    | false => exact Nat.add_le_add_left (Nat.le_of_lt_succ (Nat.mod_lt _ (by decide))) _
    | true => exact Nat.le_refl _

theorem mantissa_ofMantissaAndAccuracy (mantissa : Nat) (accuracy : Accuracy) :
    (ExtendedMantissa.ofMantissaAndAccuracy mantissa accuracy).mantissa = mantissa := by
  cases accuracy with
  | exact => rfl
  | inexact order => cases order <;> rfl

theorem log2_le_of_lt {m bits : Nat} (lt : m < twoTo (bits + 1)) : m.log2 ≤ bits := by
  by_cases zero : m = 0
  · rw [zero]
    exact Nat.zero_le _
  · exact Nat.le_of_lt_succ ((Nat.log2_lt zero).2 lt)

theorem log2_le_of_le_succ {m n : Nat} (le : m ≤ n + 1) : m.log2 ≤ n.log2 + 1 := by
  have below : n < twoTo (n.log2 + 1) := Nat.lt_log2_self
  have double := twoTo_succ (n.log2 + 1)
  exact log2_le_of_lt (by omega)

/-- One shift raises the exponent to that of the leading digit, if it is lower. -/
theorem exponent_shiftToTargetExponent_le {m : Nat} {e j : Int} (accuracy : Accuracy)
    (nonneg : 0 ≤ j) (le : e ≤ j) :
    (shiftToTargetExponent format m e accuracy).2 ≤ j + m.log2 := by
  have target : format.targetExponent (Float.Model.totalExponent m e) =
    max (m.log2 + 1 + e - 53) (-1074) := rfl
  simp only [shiftToTargetExponent, shiftToExponent, target]
  omega

theorem mantissa_shiftToTargetExponent_le (m : Nat) (e : Int) (accuracy : Accuracy) :
    (shiftToTargetExponent format m e accuracy).1.mantissa ≤ m :=
  Nat.le_trans (mantissa_shiftRight_le _ _)
    (Nat.le_of_eq (mantissa_ofMantissaAndAccuracy m accuracy))

/-- Rounding shifts twice: to the leading digit, and once more if a digit was added. -/
theorem bounded_roundWithAccuracy {sign : Sign} {m : Nat} {e j : Int} {accuracy : Accuracy}
    (nonneg : 0 ≤ j) (le : e ≤ j) :
    Bounded (j + 2 * m.log2 + 1) (roundWithAccuracy format sign m e accuracy) := by
  have once := exponent_shiftToTargetExponent_le (m := m) accuracy nonneg le
  have shifted := mantissa_shiftToTargetExponent_le m e accuracy
  generalize found : shiftToTargetExponent format m e accuracy = first at once shifted
  obtain ⟨extended, exponent⟩ := first
  have rounded : extended.roundedMantissa.log2 ≤ m.log2 + 1 :=
    log2_le_of_le_succ (Nat.le_trans (roundedMantissa_le extended) (Nat.succ_le_succ shifted))
  have twice : (shiftToTargetExponent format extended.roundedMantissa exponent .exact).2 ≤
      j + m.log2 + extended.roundedMantissa.log2 :=
    exponent_shiftToTargetExponent_le .exact (by omega) once
  unfold roundWithAccuracy
  rw [found]
  dsimp only
  generalize shiftToTargetExponent format extended.roundedMantissa exponent .exact = second at twice
  by_cases none : second.1.mantissa = 0
  · rw [dif_pos none]
    trivial
  · rw [dif_neg none]
    change second.2 ≤ _
    omega

theorem bounded_mul {s t : Sign} {m n : Nat} {d e j : Int} {pm : 0 < m} {pn : 0 < n}
    (nonneg : 0 ≤ j) (le : d + e ≤ j) :
    Bounded (j + 2 * (m * n).log2 + 1)
      (UnpackedFloat.mul format (.finite s m d pm) (.finite t n e pn)) :=
  bounded_roundWithAccuracy nonneg le

theorem log2_shiftLeft_le (m count : Nat) : (m <<< count).log2 ≤ m.log2 + count := by
  refine log2_le_of_lt ?_
  calc m <<< count = m * 2 ^ count := Nat.shiftLeft_eq m count
    _ < 2 ^ (m.log2 + 1) * 2 ^ count :=
      Nat.mul_lt_mul_of_pos_right Nat.lt_log2_self (Nat.two_pow_pos count)
    _ = 2 ^ (m.log2 + count + 1) := by rw [← Nat.pow_add, Nat.add_right_comm]

/-- A number of few digits gets zeros behind it up to the width of a float. -/
theorem bounded_round {sign : Sign} {m : Nat} (short : m.log2 ≤ 52) :
    Bounded 105 (UnpackedFloat.round format sign m 0) := by
  have target : format.targetExponent (Float.Model.totalExponent m 0) = (m.log2 : Int) - 52 := by
    change max ((m.log2 : Int) + 1 + 0 - 53) (-1074) = _
    omega
  simp only [UnpackedFloat.round, decreaseExponent, target]
  have longer := log2_shiftLeft_le m (0 - ((m.log2 : Int) - 52)).toNat
  refine (bounded_roundWithAccuracy (Int.le_refl 0) (by omega)).mono ?_
  omega

theorem bounded_ofNat {n : Nat} (short : n.log2 ≤ 52) :
    Bounded 105 (UnpackedFloat.ofNat format n) := by
  simp only [UnpackedFloat.ofNat, UnpackedFloat.ofInt, UnpackedFloat.normalize]
  split
  · refine bounded_round ?_
    have none : (-(n : Int)).toNat = 0 := by omega
    rw [none]
    exact Nat.zero_le _
  · trivial
  · exact bounded_round short

theorem unpack_one : ∃ positive,
    Float.exactlyRepresentablePowersOfTen[0].toModel.unpack =
      .finite .positive 0x10000000000000 (-52) positive :=
  ⟨by decide, rfl⟩

/-- A product with one moves the exponent of a number as its digits are moved. -/
theorem bounded_times_one {x : Float} {j : Int} (nonneg : 52 ≤ j)
    (bounded : Bounded j x.toModel.unpack) :
    Bounded (j + 159) (UnpackedFloat.mul format x.toModel.unpack
      Float.exactlyRepresentablePowersOfTen[0].toModel.unpack) := by
  obtain ⟨positive, one⟩ := unpack_one
  rw [one]
  have short : Short 53 x.toModel.unpack := (short_of_finite bounded.isFinite).1
  generalize x.toModel.unpack = f at bounded short
  cases f with
  | infinity => exact bounded.elim
  | notANumber => exact bounded.elim
  | zero => trivial
  | finite sign m e some =>
    have width : m < 0x20000000000000 := short
    have room : twoTo (105 + 1) = 0x20000000000000 * 0x20000000000000 := by decide
    have product : (m * 0x10000000000000).log2 ≤ 105 := log2_le_of_lt (by omega)
    have upper : e ≤ j := bounded
    refine (bounded_mul (j := j - 52) (by omega) (by omega)).mono ?_
    omega

/-- Scaled by no power of ten, a number has the exponent that makes room for its digits. -/
theorem bounded_ofScientific {n : Nat} (inRange : n < twoTo 64) :
    Bounded 250 (UnpackedFloat.ofScientific format n 0) := by
  have log2 : n.log2 ≤ 63 := log2_le_of_lt inRange
  have longer := log2_shiftLeft_le n 53
  unfold UnpackedFloat.ofScientific
  by_cases zero : n = 0
  · rw [dif_pos zero]
    trivial
  · rw [dif_neg zero]
    have least : -((2 : Int) ^ format.exponentBits + n.log2) ≤ 0 := by
      have bits : (2 : Int) ^ format.exponentBits = 2048 := by decide
      omega
    rw [if_neg (by decide), if_neg (Int.not_lt.2 least), if_pos (Int.le_refl 0)]
    refine (bounded_mul (j := 0) (Int.le_refl 0) (by decide)).mono ?_
    have product : (n <<< format.mantissaBits * 10 ^ Int.toNat 0).log2 = (n <<< 53).log2 :=
      congrArg Nat.log2 (Nat.mul_one _)
    omega

/-- Integers of 64 bits without a sign are finite as floats. -/
theorem isFinite_ofNat {n : Nat} (inRange : n < twoTo 64) : (Float.ofNat n).isFinite = true := by
  change (Float.ofScientific n false 0).isFinite = true
  unfold Float.ofScientific
  split
  next short =>
    have whole : n.toUInt64.toNat = n := Nat.mod_eq_of_lt inRange
    have digits : n.log2 ≤ 52 := log2_le_of_lt short.1
    have float : Bounded 105 n.toUInt64.toFloat.toModel.unpack := by
      refine bounded_stored ?_ (by decide) (by decide)
      have read := bounded_ofNat digits
      rw [← whole] at read
      exact read
    refine (bounded_stored (bounded_times_one (by decide) float) ?_ ?_).isFinite
    · decide
    · decide
  next =>
    exact (bounded_stored (bounded_ofScientific inRange) (by decide) (by decide)).isFinite

theorem isFinite_neg {x : Float} (finite : x.isFinite = true) : (-x).isFinite = true := by
  change x.toModel.unpack.isFinite = true at finite
  change (stored x.toModel.unpack.neg).isFinite = true
  have bounded : Bounded largestExponent x.toModel.unpack := (short_of_finite finite).2
  exact (bounded_stored bounded.neg (by decide) (Int.le_refl _)).isFinite

/-- So are the integers that stay integers. -/
theorem isFinite_ofInt {n : Int} (low : Json.wholeMin ≤ n) (high : n < Json.wholeBound) :
    (Float.ofInt n).isFinite = true := by
  simp only [Json.wholeMin, Json.wholeBound] at low high
  have bits : twoTo 64 = 0x10000000000000000 := by decide
  cases n with
  | ofNat m =>
    have small : (m : Int) < 0x10000000000000000 := high
    exact isFinite_ofNat (by omega)
  | negSucc m => exact isFinite_neg (isFinite_ofNat (by omega))

theorem isNaN_roundWithAccuracy {sign : Sign} {m : Nat} {e : Int} {accuracy : Accuracy} :
    (roundWithAccuracy format sign m e accuracy).isNaN = false := by
  unfold roundWithAccuracy
  dsimp only
  generalize shiftToTargetExponent format m e accuracy = first
  generalize shiftToTargetExponent format first.1.roundedMantissa first.2 .exact = second
  by_cases none : second.1.mantissa = 0
  · rw [dif_pos none]
    rfl
  · rw [dif_neg none]
    rfl

theorem isNaN_ofNat {n : Nat} : (UnpackedFloat.ofNat format n).isNaN = false := by
  simp only [UnpackedFloat.ofNat, UnpackedFloat.ofInt, UnpackedFloat.normalize]
  split
  · exact isNaN_roundWithAccuracy
  · rfl
  · exact isNaN_roundWithAccuracy

theorem isNaN_mul {f : UnpackedFloat} {sign : Sign} {m : Nat} {e : Int} {positive : 0 < m}
    (number : f.isNaN = false) :
    (UnpackedFloat.mul format f (.finite sign m e positive)).isNaN = false := by
  cases f with
  | notANumber => cases number
  | infinity => rfl
  | zero => rfl
  | finite => exact isNaN_roundWithAccuracy

theorem isNaN_div {f : UnpackedFloat} {sign : Sign} {m : Nat} {e : Int} {positive : 0 < m}
    (number : f.isNaN = false) :
    (UnpackedFloat.div format f (.finite sign m e positive)).isNaN = false := by
  cases f with
  | notANumber => cases number
  | infinity => rfl
  | zero => rfl
  | finite => exact isNaN_roundWithAccuracy

theorem isNaN_ofScientific (n : Nat) (e : Int) :
    (UnpackedFloat.ofScientific format n e).isNaN = false := by
  unfold UnpackedFloat.ofScientific
  by_cases zero : n = 0
  · rw [dif_pos zero]
    rfl
  · rw [dif_neg zero]
    by_cases large : e > 2 ^ format.exponentBits
    · rw [if_pos large]
      rfl
    rw [if_neg large]
    by_cases tiny : e < -(2 ^ format.exponentBits + n.log2)
    · rw [if_pos tiny]
      rfl
    rw [if_neg tiny]
    by_cases up : 0 ≤ e
    · rw [if_pos up]
      exact isNaN_mul rfl
    · rw [if_neg up]
      exact isNaN_div rfl

/-- A number other than zero. -/
def isNonzero : UnpackedFloat → Bool
  | .finite .. => true
  | .zero _ | .infinity _ | .notANumber => false

theorem isNonzero_powerOfTen :
    ∀ power ∈ Float.exactlyRepresentablePowersOfTen.toList,
      isNonzero power.toModel.unpack = true := by decide

theorem exists_unpack_powerOfTen {power : Float}
    (exact : power ∈ Float.exactlyRepresentablePowersOfTen) :
    ∃ sign m e positive, power.toModel.unpack = .finite sign m e positive := by
  have nonzero := isNonzero_powerOfTen power (Array.mem_toList_iff.2 exact)
  generalize power.toModel.unpack = f at nonzero
  cases f with
  | finite sign m e positive => exact ⟨sign, m, e, positive, rfl⟩
  | zero => cases nonzero
  | infinity => cases nonzero
  | notANumber => cases nonzero

/-- Digits with an exponent are a number or an infinity. -/
theorem isNaN_ofDigits (n : Nat) (down : Bool) (e : Nat) :
    (Float.ofScientific n down e).isNaN = false := by
  unfold Float.ofScientific
  split
  next short =>
    have inTable : e < Float.exactlyRepresentablePowersOfTen.size := Nat.lt_succ_of_le short.2
    obtain ⟨sign, m, k, positive, power⟩ := exists_unpack_powerOfTen (Array.getElem_mem inTable)
    have number : n.toUInt64.toFloat.toModel.unpack.isNaN = false := isNaN_stored isNaN_ofNat
    simp only
    split
    · change (stored (UnpackedFloat.div format n.toUInt64.toFloat.toModel.unpack _)).isNaN = false
      rw [power]
      exact isNaN_stored (isNaN_div number)
    · change (stored (UnpackedFloat.mul format n.toUInt64.toFloat.toModel.unpack _)).isNaN = false
      rw [power]
      exact isNaN_stored (isNaN_mul number)
  next => exact isNaN_stored (isNaN_ofScientific n _)

end QueryViews.Binary64

namespace QueryViews.Text

open Binary64

/-- A real in decimal text has a nearest float only where that is finite. -/
theorem Real.isFinite_of_toFloat? {r : Real} {x : Float} (nearest : r.toFloat? = some x) :
    x.isFinite = true := by
  cases r with
  | notFinite => cases nearest
  | finite negative significand exponent =>
    obtain ⟨magnitude, number, rounded⟩ : ∃ magnitude : Float, magnitude.isNaN = false ∧
        (if magnitude.isInf then none else some (if negative then -magnitude else magnitude)) =
          some x := by
      refine ⟨_, ?_, nearest⟩
      split
      · exact isNaN_ofDigits 0 false 0
      · split
        · exact isNaN_ofDigits _ _ _
        · split <;> exact isNaN_ofDigits _ _ _
    split at rounded
    next => cases rounded
    next limited =>
      have finite : magnitude.isFinite = true :=
        isFinite_of_not number (Bool.not_eq_true _ ▸ limited)
      rw [← Option.some.inj rounded]
      split
      · exact isFinite_neg finite
      · exact finite

end QueryViews.Text
