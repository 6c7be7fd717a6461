import QueryViews.Fragment.Basic
import QueryViews.Text.CharClass
import QueryViews.Text.Number

/-! Expressions written as one string. While the string is written, each value is stood in for
by a marker; afterwards the string is cut at the markers of its own writer, and the markers of
every other writer stay text. -/

namespace QueryViews

/-- The character that opens and closes a marker. -/
def markerBrace : Char := '\x01'

/-- A marker as found in a text: the digits of its writer and of its index. -/
structure Marker where
  writer : List Char
  index : List Char
deriving DecidableEq, Repr

namespace Marker

def toList (m : Marker) : List Char :=
  markerBrace :: (m.writer ++ ':' :: (m.index ++ [markerBrace]))

/-- The marker at the very start of a text, and what follows it. Its digits may be of any
script. -/
def read? : List Char → Option (Marker × List Char)
  | [] => none
  | c :: text =>
    if c ≠ markerBrace then none else
    match text.takeWhile Text.isDecimalDigit, text.dropWhile Text.isDecimalDigit with
    | writer, ':' :: text =>
      match text.takeWhile Text.isDecimalDigit, text.dropWhile Text.isDecimalDigit with
      | index, closing :: after =>
        if closing = markerBrace ∧ writer ≠ [] ∧ index ≠ [] then some (⟨writer, index⟩, after)
        else none
      | _, [] => none
    | _, _ => none

theorem toList_append_of_read? {text after : List Char} {m : Marker}
    (found : read? text = some (m, after)) : text = m.toList ++ after := by
  unfold read? at found
  split at found
  · cases found
  next c body =>
    split at found
    · cases found
    next opening =>
      split at found
      next writer inner middle =>
        split at found
        next index closing rest last =>
          split at found
          next closed =>
            cases found
            have first := List.takeWhile_append_dropWhile (p := Text.isDecimalDigit) (l := body)
            have second := List.takeWhile_append_dropWhile (p := Text.isDecimalDigit) (l := inner)
            rw [middle] at first
            rw [last] at second
            simp only [ne_eq, Decidable.not_not] at opening
            simp only [toList, List.cons_append, List.append_assoc, List.nil_append]
            rw [← closed.1, second, first, opening, closed.1]
          · cases found
        · cases found
      · cases found

theorem length_lt_of_read? {text after : List Char} {m : Marker}
    (found : read? text = some (m, after)) : after.length < text.length := by
  rw [toList_append_of_read? found]
  simp [toList]
  omega

end Marker

/-- One writing of an expression: the writer's number and the values stood in for so far. -/
structure Writing where
  writer : Nat
  values : List Segment := []
deriving Inhabited

namespace Writing

def mint : Minting Writing := return ⟨← modifyGet Supply.takeWriter, []⟩

/-- The text that stands for value `index` of writer `writer`. -/
def markerText (writer index : Nat) : String :=
  String.singleton markerBrace ++ toString writer ++ ":" ++ toString index
    ++ String.singleton markerBrace

/-- The marker that stands for `value` from now on. -/
def hold (w : Writing) (value : Segment) : String × Writing :=
  (markerText w.writer w.values.length, { w with values := w.values ++ [value] })

/-- The value a marker stands for, if it is one of this writing. -/
def valueOf? (w : Writing) (m : Marker) : Option Segment := do
  let writer ← Text.natural? m.writer
  let index ← Text.natural? m.index
  if writer = w.writer ∧ writer < Text.registerBound ∧ index < Text.registerBound then
    w.values[index]?
  else none

/-- A stretch of text, or a value in place of its marker. -/
inductive Part where
  | text (stretch : String)
  | value (held : Segment)

def Part.toSegment : Part → Segment
  | .text stretch => .verbatim stretch
  | .value held => held

/-- The text read since the last value, given backwards, unless there is none. -/
def pendingText : List Char → List Part
  | [] => []
  | pending => [.text (String.ofList pending.reverse)]

def partsAfter (w : Writing) (pending : List Char) (text : List Char) : List Part :=
  match text with
  | [] => pendingText pending
  | c :: rest =>
    match found : Marker.read? (c :: rest) with
    | none => partsAfter w (c :: pending) rest
    | some (m, after) =>
      have : after.length < rest.length + 1 := Marker.length_lt_of_read? found
      match w.valueOf? m with
      | some held => pendingText pending ++ .value held :: partsAfter w [] after
      | none => partsAfter w (m.toList.reverse ++ pending) after
termination_by text.length

/-- Cuts a written text at the markers of this writing. -/
def parts (w : Writing) (text : String) : List Part := w.partsAfter [] text.toList

def toFragment (w : Writing) (text : String) : Fragment := (w.parts text).map Part.toSegment

end Writing
end QueryViews
