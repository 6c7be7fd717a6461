/-! How statements are compiled: the rule for inner joins, and how sources and output columns
are named. -/

namespace QueryViews

/-- When the joined side of an inner join becomes a subquery. -/
inductive JoinPolicy where
  /-- For any join, condition or later clause on it. -/
  | strict
  /-- Only for grouping, ordering or a window on it. -/
  | relaxed
deriving DecidableEq, Repr, Inhabited

structure Settings where
  joinPolicy : JoinPolicy := .strict
  /-- Sources are named by this text and a number. -/
  tableStem : String := "t"
  /-- Output columns are named by this text and a number. -/
  columnStem : String := "value_"
deriving DecidableEq, Repr, Inhabited

namespace Settings

def relaxed : Settings := { joinPolicy := .relaxed }

def columnName (s : Settings) (index : Nat) : String := s.columnStem ++ toString index

end Settings
end QueryViews
