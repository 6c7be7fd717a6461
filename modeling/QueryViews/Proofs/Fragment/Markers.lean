import QueryViews.Fragment.Placeholder
import QueryViews.Fragment.Rendering
import QueryViews.Proofs.Text.Digits

/-! Cutting a written text at the markers of its writer. A text put together of markers and of text
without their brace is read marker by marker: every marker is taken as a whole, so its closing brace
opens no other one. What stands between two values of the writer stays text, with the markers of
other writers in it. -/

namespace QueryViews

namespace Text

/-- A number is read back from its digits. -/
theorem natural?_toDigits (n : Nat) : natural? (Nat.toDigits 10 n) = some n := by
  have digits : (Nat.toDigits 10 n).all Char.isDigit = true :=
    List.all_eq_true.2 fun _ member => isDigit_of_mem_toDigits member
  rw [natural?, if_pos ⟨Nat.toDigits_ne_nil, digits⟩, digitsValue_toDigits]

theorem takeWhile_digits {n : Nat} {stop : Char} (rest : List Char)
    (ends : isDecimalDigit stop = false) :
    (Nat.toDigits 10 n ++ stop :: rest).takeWhile isDecimalDigit = Nat.toDigits 10 n := by
  rw [List.takeWhile_append_of_pos fun c member =>
      isDecimalDigit_of_isDigit (isDigit_of_mem_toDigits member),
    List.takeWhile_cons_of_neg (by simp [ends]), List.append_nil]

theorem dropWhile_digits {n : Nat} {stop : Char} (rest : List Char)
    (ends : isDecimalDigit stop = false) :
    (Nat.toDigits 10 n ++ stop :: rest).dropWhile isDecimalDigit = stop :: rest := by
  rw [List.dropWhile_append_of_pos fun c member =>
      isDecimalDigit_of_isDigit (isDigit_of_mem_toDigits member),
    List.dropWhile_cons_of_neg (by simp [ends])]

end Text

namespace Marker

/-- The marker that stands for value `index` of writer `writer`. -/
def numbered (writer index : Nat) : Marker := ⟨Nat.toDigits 10 writer, Nat.toDigits 10 index⟩

theorem toList_markerText (writer index : Nat) :
    (Writing.markerText writer index).toList = (numbered writer index).toList := by
  simp [toList, numbered, Writing.markerText]

/-- A marker is read as a whole, whatever follows it. -/
theorem read?_numbered (writer index : Nat) (rest : List Char) :
    read? ((numbered writer index).toList ++ rest) = some (numbered writer index, rest) := by
  have colon : Text.isDecimalDigit ':' = false := by decide
  have brace : Text.isDecimalDigit markerBrace = false := by decide
  have shape : (numbered writer index).toList ++ rest =
      markerBrace :: (Nat.toDigits 10 writer ++ ':' ::
        (Nat.toDigits 10 index ++ markerBrace :: rest)) := by
    simp [toList, numbered]
  rw [shape, read?]
  simp [Text.takeWhile_digits, Text.dropWhile_digits, colon, brace, Nat.toDigits_ne_nil, numbered]

theorem read?_of_ne {c : Char} (plain : c ≠ markerBrace) (rest : List Char) :
    read? (c :: rest) = none := by
  rw [read?, if_pos plain]

end Marker

namespace Writing

/-- The numbers of a writing are such as a register holds. -/
structure Fits (w : Writing) : Prop where
  writer : w.writer < Text.registerBound
  values : w.values.length ≤ Text.registerBound

variable {w : Writing}

theorem valueOf?_own (fits : w.Fits) (index : Fin w.values.length) :
    w.valueOf? (.numbered w.writer index) = some w.values[index] := by
  have small : (index : Nat) < Text.registerBound := Nat.lt_of_lt_of_le index.2 fits.values
  simp [valueOf?, Marker.numbered, Text.natural?_toDigits, fits.writer, small]

theorem valueOf?_foreign {writer : Nat} (other : writer ≠ w.writer) (index : Nat) :
    w.valueOf? (.numbered writer index) = none := by
  simp [valueOf?, Marker.numbered, Text.natural?_toDigits, other]

theorem partsAfter_nil (pending : List Char) : w.partsAfter pending [] = pendingText pending := by
  rw [partsAfter]

theorem partsAfter_of_none {c : Char} {rest : List Char} (passed : Marker.read? (c :: rest) = none)
    (pending : List Char) :
    w.partsAfter pending (c :: rest) = w.partsAfter (c :: pending) rest := by
  rw [partsAfter]
  split
  next => rfl
  next found => cases passed.symm.trans found

theorem partsAfter_of_some {m : Marker} {text after : List Char}
    (read : Marker.read? text = some (m, after)) (pending : List Char) :
    w.partsAfter pending text =
      match w.valueOf? m with
      | some held => pendingText pending ++ .value held :: w.partsAfter [] after
      | none => w.partsAfter (m.toList.reverse ++ pending) after := by
  cases text with
  | nil => cases read
  | cons c rest =>
    rw [partsAfter]
    split
    next none => cases none.symm.trans read
    next found =>
      cases found.symm.trans read
      rfl

theorem partsAfter_plain {plain : List Char} (noBrace : markerBrace ∉ plain)
    (pending rest : List Char) :
    w.partsAfter pending (plain ++ rest) = w.partsAfter (plain.reverse ++ pending) rest := by
  induction plain generalizing pending with
  | nil => rfl
  | cons c plain ih =>
    obtain ⟨different, later⟩ := List.ne_and_not_mem_of_not_mem_cons noBrace
    rw [List.cons_append, partsAfter_of_none (Marker.read?_of_ne different.symm _), ih later,
      List.reverse_cons, List.append_assoc, List.singleton_append]

theorem partsAfter_own (fits : w.Fits) (index : Fin w.values.length) (pending rest : List Char) :
    w.partsAfter pending ((Marker.numbered w.writer index).toList ++ rest) =
      pendingText pending ++ .value w.values[index] :: w.partsAfter [] rest := by
  rw [partsAfter_of_some (Marker.read?_numbered _ _ _), valueOf?_own fits]

theorem partsAfter_foreign {writer : Nat} (other : writer ≠ w.writer) (index : Nat)
    (pending rest : List Char) :
    w.partsAfter pending ((Marker.numbered writer index).toList ++ rest) =
      w.partsAfter ((Marker.numbered writer index).toList.reverse ++ pending) rest := by
  rw [partsAfter_of_some (Marker.read?_numbered _ _ _), valueOf?_foreign other]

end Writing
end QueryViews
