import QueryViews.Dialect.Sqlite
import QueryViews.Fragment.Placeholder
import QueryViews.Query.Compiler
import QueryViews.Settings.Reading
import QueryViews.View.Steps
import QueryViews.Proofs.Fragment.Tokens
import QueryViews.Proofs.Needs
import QueryViews.Proofs.Steps
import QueryViews.Proofs.Join.Elision
import QueryViews.Proofs.Bracketing
import QueryViews.Proofs.Scope.WellScoped
import QueryViews.Proofs.Scope.Standing
import QueryViews.Proofs.Pipeline
import QueryViews.Proofs.Scope.JoinFree
import QueryViews.Proofs.Meaning.Interpretation
import QueryViews.Proofs.Meaning.Selection
import QueryViews.Proofs.Meaning.Values
import QueryViews.Proofs.Meaning.RowPipeline
import QueryViews.Proofs.Fragment.Touched
import QueryViews.Proofs.Join.Reads
import QueryViews.Proofs.Join.Shadowing
import QueryViews.Proofs.Join.Numbering
import QueryViews.Proofs.Join.Support
import QueryViews.Proofs.Join.Sides
import QueryViews.Proofs.Clauses.Visits
import QueryViews.Proofs.Clauses.Tally
import QueryViews.Proofs.Clauses.Aggregates
import QueryViews.Proofs.Decode.Rows
import QueryViews.Proofs.Join.Orderly
import QueryViews.Proofs.Meaning.Scenes
import QueryViews.Proofs.Meaning.SideRows
import QueryViews.Proofs.Meaning.JoinedRows
import QueryViews.Proofs.Meaning.LeftJoin
import QueryViews.Proofs.Clauses.Course
import QueryViews.Proofs.Rendering.Script
import QueryViews.Proofs.Rendering.OnePass
import QueryViews.Proofs.Rendering.Texts
import QueryViews.Proofs.Rendering.QuestionMarks
import QueryViews.Proofs.Demand.Reads
import QueryViews.Proofs.Demand.Tidy
import QueryViews.Proofs.Join.OnConditions
import QueryViews.Proofs.Join.Asked
import QueryViews.Proofs.Meaning.RowCount
import QueryViews.Proofs.Renaming.Queries
import QueryViews.Proofs.Join.Labels
import QueryViews.Proofs.Demand.Neutral
import QueryViews.Proofs.Rendering.KeyTexts
import QueryViews.Proofs.Scope.TidyViews
import QueryViews.Proofs.Clauses.LeadingOrder
import QueryViews.Proofs.Clauses.Nesting
import QueryViews.Proofs.Meaning.Pages
import QueryViews.Proofs.Join.Confined
import QueryViews.Proofs.Unbracketing
import QueryViews.Proofs.Demand.Narrowing
import QueryViews.Proofs.Scope.Reachability
import QueryViews.Proofs.Fragment.Markers
import QueryViews.Proofs.Fragment.Chunks
import QueryViews.Proofs.Arithmetic.Precedence
import QueryViews.Proofs.Arithmetic.Splicing
import QueryViews.Proofs.Arithmetic.Compositions
import QueryViews.Proofs.Arithmetic.Subqueries
import QueryViews.Proofs.Arithmetic.SettledRows
import QueryViews.Proofs.Arithmetic.ComposedColumns
import QueryViews.Proofs.Arithmetic.ComposedQueries
import QueryViews.Proofs.Decode.Places
import QueryViews.Proofs.Join.Widening
import QueryViews.Proofs.Decode.StrictColumns
import QueryViews.Proofs.Calendar.Instants
import QueryViews.Proofs.Calendar.Scans
import QueryViews.Proofs.Calendar.PrintedInstants
import QueryViews.Proofs.Decode.Timestamps
import QueryViews.Proofs.Rendering.Identifiers
import QueryViews.Proofs.Fragment.SpelledOut
import QueryViews.Proofs.Stages
import QueryViews.Proofs.Rendering.FinishedStatements
