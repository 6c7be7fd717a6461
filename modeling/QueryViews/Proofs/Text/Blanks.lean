import Mathlib.Data.List.TakeWhile
import QueryViews.Text.CharClass

/-! Blanks around a text. -/

namespace QueryViews.Text

theorem trimStart_append {before rest : List Char} (blank : ∀ c ∈ before, isBlank c = true) :
    trimStart (before ++ rest) = trimStart rest :=
  List.dropWhile_append_of_pos blank

theorem trimStart_of_head {text : List Char} (visible : ∀ c ∈ text.head?, isBlank c = false) :
    trimStart text = text := by
  cases text with
  | nil => rfl
  | cons c rest => exact List.dropWhile_cons_of_neg (by simp [visible c rfl])

theorem trim_around {before text after : List Char} (blankBefore : ∀ c ∈ before, isBlank c = true)
    (blankAfter : ∀ c ∈ after, isBlank c = true) (visible : ∀ c ∈ text, isBlank c = false) :
    trim (before ++ text ++ after) = text := by
  have ends : trimStart (text ++ after).reverse = text.reverse := by
    rw [List.reverse_append,
      trimStart_append fun c inside => blankAfter c (List.mem_reverse.1 inside)]
    exact trimStart_of_head fun c first =>
      visible c (List.mem_reverse.1 (List.mem_of_mem_head? first))
  cases text with
  | nil =>
    have blank : ∀ c ∈ before ++ after, isBlank c = true :=
      List.forall_mem_append.2 ⟨blankBefore, blankAfter⟩
    have none : trimStart (before ++ after) = [] := List.dropWhile_eq_nil_iff.2 blank
    rw [List.append_nil, trim, none]
    rfl
  | cons c rest =>
    have starts : trimStart (c :: rest ++ after) = c :: rest ++ after :=
      trimStart_of_head fun d first => by
        obtain rfl : c = d := Option.some.inj first
        exact visible c List.mem_cons_self
    rw [List.append_assoc, trim, trimStart_append blankBefore, starts, ends, List.reverse_reverse]

/-- What is cut off a text is blank. -/
theorem exists_trim (text : List Char) :
    ∃ before after, text = before ++ trim text ++ after ∧
      (∀ c ∈ before, isBlank c = true) ∧ (∀ c ∈ after, isBlank c = true) := by
  have cut : ∀ t : List Char, t = t.takeWhile isBlank ++ trimStart t :=
    fun t => List.takeWhile_append_dropWhile.symm
  have blank : ∀ t : List Char, ∀ c ∈ t.takeWhile isBlank, isBlank c = true :=
    fun t c inside => List.mem_takeWhile_imp inside
  let behind := (trimStart text).reverse
  refine ⟨text.takeWhile isBlank, (behind.takeWhile isBlank).reverse, ?_, blank text, ?_⟩
  · have ends : trimStart text = trim text ++ (behind.takeWhile isBlank).reverse := by
      rw [trim, ← List.reverse_append, ← cut behind, List.reverse_reverse]
    rw [List.append_assoc, ← ends]
    exact cut text
  · exact fun c inside => blank behind c (List.mem_reverse.1 inside)

end QueryViews.Text
