import FieldSearch.Main
import FieldSearch.Proofs.GraphQL.Compaction
import FieldSearch.Proofs.Query.Binding
import FieldSearch.Proofs.Session.Publication
import FieldSearch.Session.Script
import FieldSearch.Proofs.GraphQL.Lexeme
import FieldSearch.Proofs.GraphQL.Relexing
import FieldSearch.Proofs.GraphQL.Syntax
import FieldSearch.Proofs.Text.Digits
import FieldSearch.Proofs.GraphQL.Scalar
import FieldSearch.Proofs.GraphQL.SearchDocument
import FieldSearch.Proofs.Schema.Fold
import FieldSearch.Proofs.Schema.Response
import FieldSearch.Proofs.Query.Compilation
import FieldSearch.Proofs.Schema.Flights
import FieldSearch.Proofs.Session.Discovery
import FieldSearch.Proofs.Transport.Recovery
import FieldSearch.Proofs.Session.Answers
import FieldSearch.Proofs.Session.FailedFlight
import FieldSearch.Proofs.Session.SingleFlight
import FieldSearch.Proofs.Session.Constrained
import FieldSearch.Proofs.Schema.Declaration
import FieldSearch.Proofs.Session.Overtaken
import FieldSearch.Proofs.Repository.Shapes
import FieldSearch.Proofs.Repository.Turns
import FieldSearch.Proofs.Session.Explanation
import FieldSearch.Proofs.Repository.Batches
import FieldSearch.Proofs.Repository.Outcomes
import FieldSearch.Proofs.Query.Grammar
import FieldSearch.Proofs.Results.Aggregation
import FieldSearch.Proofs.Saved.Document
import FieldSearch.Proofs.Saved.Runs
import FieldSearch.Proofs.Repository.Hosts
import FieldSearch.Proofs.Results.Rendering
import FieldSearch.Proofs.Repository.Parameters
import FieldSearch.Proofs.Repository.Requests
import FieldSearch.Proofs.Schema.AllOrNothing
import FieldSearch.Proofs.Transport.Admission
import FieldSearch.Proofs.Transport.Pacing
import FieldSearch.Proofs.Transport.Bodies
import FieldSearch.Proofs.Transport.Retrying
import FieldSearch.Proofs.Saved.Answers
import FieldSearch.Proofs.Transport.Promises
import FieldSearch.Proofs.GraphQL.Canonical
import FieldSearch.Proofs.Repository.Compacted
import FieldSearch.Proofs.Transport.Sequential
import FieldSearch.Proofs.Number.Written
import FieldSearch.Proofs.GraphQL.Literals
import FieldSearch.Proofs.Schema.Coverage
import FieldSearch.Proofs.Query.Suggestion
import FieldSearch.Proofs.Session.Suggested
import FieldSearch.Proofs.Query.Autofill
import FieldSearch.Proofs.Query.Eligibility
import FieldSearch.Proofs.Schema.Folding
import FieldSearch.Proofs.Repository.Unusable
import FieldSearch.Proofs.Saved.Reading
import FieldSearch.Proofs.Number.Spelling
import FieldSearch.Proofs.Transport.Waits
import FieldSearch.Proofs.Repository.Normalization
import FieldSearch.Proofs.Moment.Phrases
import FieldSearch.Proofs.Text.Lines
import FieldSearch.Proofs.Results.Cells
import FieldSearch.Proofs.Results.Layout
import FieldSearch.Proofs.Transport.Accounting
