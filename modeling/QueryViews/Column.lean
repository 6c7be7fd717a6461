import QueryViews.Decode.Attempt
import QueryViews.Decode.Format
import QueryViews.Fragment.Basic
import QueryViews.View.Error

/-! Output columns: an expression, whether it may be NULL, and the chain of formats its raw
values go through. -/

namespace QueryViews

/-- A format that is applied after waiting for some rounds. -/
structure DecodeStep where
  rounds : Nat
  format : Format

structure Column where
  token : Token
  nullable : Bool
  steps : List DecodeStep := []
  tag : Option String := none

/-- Runs a value through the steps until one of them fails. -/
def DecodeStep.runAll : List DecodeStep → Json → Attempt Json
  | [], v => .done (.ok v)
  | step :: rest, v =>
    match step.format v with
    | .ok w => .delayed step.rounds (runAll rest w)
    | .error error => ⟨step.rounds, .error error⟩

namespace Column

/-- A column over an expression of its own. -/
def mint (nullable : Bool) (definition : Fragment) : Minting Column :=
  return { token := ← Token.mint definition, nullable }

def withNull (c : Column) (nullable : Bool) : Column := { c with nullable }

/-- Makes a column nullable, or leaves it as it is. -/
def widen (c : Column) (nullable : Bool) : Column := c.withNull (c.nullable || nullable)

def thenFormat (c : Column) (format : Format) (rounds : Nat) : Column :=
  { c with steps := c.steps ++ [⟨rounds, format⟩] }

def format (c : Column) (format : Format) : Column := c.thenFormat format 0

def withTag (c : Column) (tag : String) : Column := { c with tag := some tag }

/-- Replaces the expected tag by the next one. -/
def advanceTag (c : Column) (expected next : String) : Except ViewError Column :=
  if c.tag = some expected then .ok (c.withTag next)
  else .error (.tagMismatch expected c.tag)

/-- The value of a raw value that was selected under this name. NULL goes through no format. -/
def decode (c : Column) (name : String) (raw : Json) : Attempt Json :=
  if raw.isNull then
    .done (if c.nullable then .ok .null else .error (.unexpectedNull name))
  else DecodeStep.runAll c.steps raw

def toFragment (c : Column) : Fragment := c.token.toFragment

end Column
end QueryViews
