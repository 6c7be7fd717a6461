import QueryViews.Identity

/-! Rendered SQL as the list of its pieces. The pieces remember which source, column or
parameter they were written for; the statement's text is their written forms in a row. -/

namespace QueryViews

inductive SqlPiece where
  | verbatim (text : String)
  | column (source : Alias) (name : String) (written : String)
  | label (source : Alias) (written : String)
  | placeholder (index : Nat) (written : String)
deriving DecidableEq, Repr

def SqlPiece.written : SqlPiece → String
  | .verbatim text => text
  | .column _ _ written | .label _ written | .placeholder _ written => written

abbrev SqlText := List SqlPiece

namespace SqlText

def verbatim (text : String) : SqlText := [.verbatim text]

instance : Coe String SqlText := ⟨verbatim⟩

def toString (text : SqlText) : String := String.join (text.map SqlPiece.written)

@[simp] theorem toString_append (s t : SqlText) :
    toString (s ++ t) = toString s ++ toString t := by
  simp [toString, String.join_append]

def join (separator : String) (parts : List SqlText) : SqlText :=
  (parts.intersperse (verbatim separator)).flatten

end SqlText
end QueryViews
