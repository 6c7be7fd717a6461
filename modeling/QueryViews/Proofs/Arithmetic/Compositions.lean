import QueryViews.Proofs.Arithmetic.Splicing
import QueryViews.Proofs.Fragment.Expansion
import QueryViews.Proofs.Fragment.Markers

/-! Columns that are composed arithmetically. Each writes an operation on two smaller columns, down
to columns of tables. Expanded, a composition is spliced into one text without any parentheses, in
which an operand that is redirected stands as a single column. -/

namespace QueryViews

open Arithmetic

def Arithmetic.Operator.written (op : Operator) : String := String.ofList [' ', op.symbol, ' ']

/-- The text `left op right`, with both operands held by the writer. -/
def Writing.operation (w : Writing) (op : Operator) (left right : Segment) : Fragment :=
  let (first, w) := w.hold left
  let (second, w) := w.hold right
  w.toFragment (first ++ op.written ++ second)

/-- A fresh writer gives back the operands around the operator. -/
theorem Writing.operation_eq {writer : Nat} (small : writer < Text.registerBound) (op : Operator)
    (left right : Segment) :
    operation ⟨writer, []⟩ op left right = [left, .verbatim op.written, right] := by
  let w : Writing := ⟨writer, [left, right]⟩
  have fits : w.Fits := ⟨small, show 2 ≤ Text.registerBound by decide⟩
  have plain : markerBrace ∉ op.written.toList := by cases op <;> decide
  have first := partsAfter_own fits ⟨0, Nat.two_pos⟩ []
    (op.written.toList ++ (Marker.numbered writer 1).toList)
  have between := partsAfter_plain plain (w := w) [] (Marker.numbered writer 1).toList
  have second := partsAfter_own fits ⟨1, Nat.one_lt_two⟩ op.written.toList.reverse []
  rw [List.append_nil] at between second
  have text : w.parts (markerText writer 0 ++ op.written ++ markerText writer 1) =
      [.value left, .text op.written, .value right] := by
    rw [parts, String.toList_append, String.toList_append, List.append_assoc,
      Marker.toList_markerText, Marker.toList_markerText]
    refine first.trans ?_
    rw [between, second, partsAfter_nil]
    cases op <;> rfl
  exact congrArg (List.map Part.toSegment) text

/-- A column of a table, or an operation on smaller ones that some writer has written. Each has the
identity of its own column. -/
inductive Composition where
  | column (id : TokenId) (source : Alias) (name : String)
  | operation (id : TokenId) (writer : Fin Text.registerBound) (op : Operator)
    (left right : Composition)

/-- The column that a token stands for. -/
def Redirects.column? (r : Redirects) (id : TokenId) : Option (Alias × String) :=
  match r.lookup id with
  | some [.column source name] => some (source, name)
  | _ => none

namespace Composition

def token : Composition → Token
  | column id source name => ⟨id, Fragment.column source name⟩
  | operation id writer op left right =>
    ⟨id, Writing.operation ⟨writer, []⟩ op left.token.toSegment right.token.toSegment⟩

theorem token_operation (id : TokenId) (writer : Fin Text.registerBound) (op : Operator)
    (left right : Composition) :
    (operation id writer op left right).token =
      ⟨id, [left.token.toSegment, .verbatim op.written, right.token.toSegment]⟩ := by
  rw [token, Writing.operation_eq writer.2]

/-- The expression that the composition is meant to be, in the columns of tables. -/
def tree : Composition → Term (Alias × String)
  | column _ source name => .leaf (source, name)
  | operation _ _ op left right => .node op left.tree right.tree

/-- The expression where what is redirected stands as a single column. -/
def under (r : Redirects) : Composition → Term (Alias × String)
  | column id source name => .leaf ((r.column? id).getD (source, name))
  | operation id _ op left right =>
    match r.column? id with
    | some c => .leaf c
    | none => .node op (left.under r) (right.under r)

end Composition

/-- The tree as it is spliced together. -/
def Arithmetic.Term.toFragment : Term (Alias × String) → Fragment
  | leaf (source, name) => Fragment.column source name
  | node op left right => left.toFragment ++ Fragment.verbatim op.written ++ right.toFragment

theorem Redirects.Flat.lookup_eq {r : Redirects} (flat : r.Flat) (id : TokenId) :
    r.lookup id = (r.column? id).map fun c => Fragment.column c.1 c.2 := by
  cases found : r.lookup id with
  | none => simp [column?, found]
  | some f =>
    obtain ⟨source, name, rfl⟩ := flat id f found
    simp [column?, found, Fragment.column]

namespace Composition
variable {r : Redirects}

theorem substitute_toSegment (flat : r.Flat) (t : Composition) :
    t.token.toSegment.substitute r.lookup = (t.under r).toFragment := by
  induction t with
  | column id source name =>
    simp only [token, Token.toSegment, Segment.substitute, flat.lookup_eq, under]
    cases r.column? id <;> rfl
  | operation id writer op left right ofLeft ofRight =>
    have stands := flat.lookup_eq id
    rw [token_operation, under]
    show (Segment.token id [left.token.toSegment, .verbatim op.written,
      right.token.toSegment]).substitute r.lookup = _
    unfold Segment.substitute
    cases redirected : r.column? id with
    | some c =>
      rw [stands, redirected]
      rfl
    | none =>
      rw [stands, redirected]
      show left.token.toSegment.substitute r.lookup ++ ([.verbatim op.written] ++
        (right.token.toSegment.substitute r.lookup ++ [])) = _
      rw [ofLeft, ofRight, List.append_nil, ← List.append_assoc]
      rfl

/-- A composition is expanded to its spliced text. -/
theorem expandToken_token (flat : r.Flat) (t : Composition) :
    r.expandToken t.token = (t.under r).toFragment := by
  rw [Redirects.expandToken, Redirects.expand_of_flat flat]
  exact (List.append_nil _).trans (t.substitute_toSegment flat)

/-- Cutting off operands leaves a plain tree plain. -/
theorem plain_under {regroups : Operator → Bool} {t : Composition}
    (plain : t.tree.Plain regroups) :
    t.tree.strength ≤ (t.under r).strength ∧
      ((t.under r).strength = t.tree.strength ∨ (t.under r).strength = 2) ∧
        (t.under r).Plain regroups := by
  induction t with
  | column id source name => exact ⟨Nat.le_refl 2, .inl rfl, trivial⟩
  | operation id writer op left right ofLeft ofRight =>
    obtain ⟨⟨leftBinds, leftPlain⟩, rightBinds, rightPlain⟩ := plain
    obtain ⟨leftLe, -, ofLeft⟩ := ofLeft leftPlain
    obtain ⟨rightLe, kept, ofRight⟩ := ofRight rightPlain
    rw [under]
    split
    next => exact ⟨Nat.le_of_lt op.strength_lt_two, .inr rfl, trivial⟩
    next =>
      refine ⟨Nat.le_refl _, .inl rfl, ⟨Nat.le_trans leftBinds leftLe, ofLeft⟩, ?_, ofRight⟩
      rcases rightBinds with tight | ⟨same, grouped⟩
      · exact .inl (Nat.lt_of_lt_of_le tight rightLe)
      · rcases kept with kept | cut
        · exact .inr ⟨kept.trans same, grouped⟩
        · exact .inl (cut ▸ op.strength_lt_two)

end Composition

namespace Arithmetic.Lexeme
variable {ν : Type}

def ofSymbol? : Char → Option (Lexeme ν)
  | '+' => some (.operator .plus)
  | '-' => some (.operator .minus)
  | '*' => some (.operator .times)
  | '/' => some (.operator .per)
  | '(' => some .opening
  | ')' => some .closing
  | _ => none

/-- The lexemes of literal text, in which blanks stand for nothing. -/
def ofChars? : List Char → Option (List (Lexeme ν))
  | [] => some []
  | c :: rest => do
    let others ← ofChars? rest
    if c = ' ' then return others else return (← ofSymbol? c) :: others

theorem ofChars?_written (op : Operator) :
    ofChars? op.written.toList = some [(Lexeme.operator op : Lexeme ν)] := by
  cases op <;> rfl

end Arithmetic.Lexeme

namespace SqlText

/-- The lexemes of a rendered text, in which every column is an operand. -/
def lexemes? : SqlText → Option (List (Lexeme (Alias × String)))
  | [] => some []
  | .column source name _ :: rest => do return .operand (source, name) :: (← lexemes? rest)
  | .verbatim text :: rest => do return (← Lexeme.ofChars? text.toList) ++ (← lexemes? rest)
  | .label _ _ :: _ | .placeholder _ _ :: _ => none

/-- The value of an arithmetic text where the columns hold the values of the row. -/
def evaluate? {α : Type} (I : Meaning α) (row : Alias × String → α) (text : SqlText) :
    Option α := do
  Arithmetic.evaluate? I row (← text.lexemes?)

/-- The tree that the text reads as, if it is arithmetic. -/
def parse? (text : SqlText) : Option (Term (Alias × String)) := do
  Arithmetic.parse? (← text.lexemes?)

theorem lexemes?_append (s t : SqlText) :
    lexemes? (s ++ t) = do return (← lexemes? s) ++ (← lexemes? t) := by
  induction s with
  | nil => simp [lexemes?]
  | cons piece rest ih =>
    cases piece with
    | column source name written =>
      simp only [List.cons_append, lexemes?, ih]
      cases lexemes? rest <;> cases lexemes? t <;> rfl
    | verbatim text =>
      simp only [List.cons_append, lexemes?, ih]
      cases (Lexeme.ofChars? text.toList : Option (List (Lexeme (Alias × String)))) <;>
        cases lexemes? rest <;> cases lexemes? t <;> simp
    | label | placeholder => rfl

end SqlText

/-- Whatever has been named and numbered before, a spliced tree is written as its lexemes. -/
theorem Arithmetic.Term.lexemes?_render (style : Style) (t : Term (Alias × String))
    (r : Rendering) :
    ((Fragment.render style t.toFragment).run r).1.lexemes? = some t.lexemes := by
  induction t generalizing r with
  | leaf name => rfl
  | node op left right ofLeft ofRight =>
    let first := (Fragment.render style left.toFragment).run r
    have whole : ((Fragment.render style (node op left right).toFragment).run r).1 =
        first.1 ++ SqlText.verbatim op.written ++
          ((Fragment.render style right.toFragment).run first.2).1 := by
      rw [toFragment, Fragment.render_append, Fragment.render_append]
      rfl
    have between : (SqlText.verbatim op.written).lexemes? =
        some [(Lexeme.operator op : Lexeme (Alias × String))] := by
      rw [SqlText.verbatim, SqlText.lexemes?, Lexeme.ofChars?_written]
      rfl
    rw [whole, SqlText.lexemes?_append, SqlText.lexemes?_append, ofLeft, between, ofRight]
    simp [lexemes]

theorem Arithmetic.Term.evaluate?_render {α : Type} (I : Meaning α) (row : Alias × String → α)
    (style : Style) (t : Term (Alias × String)) (r : Rendering) :
    ((Fragment.render style t.toFragment).run r).1.evaluate? I row =
      Arithmetic.evaluate? I row t.lexemes := by
  rw [SqlText.evaluate?, t.lexemes?_render]
  rfl

end QueryViews
