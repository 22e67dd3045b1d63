import CallAtlas.Text.Utf8
import CallAtlas.Text.Blank
import CallAtlas.Text.Digit
import CallAtlas.Text.Printable
import CallAtlas.Text.Upper
import CallAtlas.Text.Quoted
import CallAtlas.Text.Integer
import CallAtlas.Tree
import CallAtlas.Record
import CallAtlas.Context
import CallAtlas.Error
import CallAtlas.Notice
import CallAtlas.Candidate
import CallAtlas.ReturnLabel
import CallAtlas.Calls
import CallAtlas.Extraction
import CallAtlas.Extractor
import CallAtlas.Tree.Rows
import CallAtlas.Json
import CallAtlas.Catalog
import CallAtlas.Statistics
import CallAtlas.Report
import CallAtlas.Path
import CallAtlas.Language
import CallAtlas.FileSystem
import CallAtlas.Environment
import CallAtlas.EnvFile
import CallAtlas.Settings
import CallAtlas.JavaScript.Lexeme
import CallAtlas.JavaScript.Phrase
import CallAtlas.JavaScript.Reading
import CallAtlas.JavaScript.Literal
import CallAtlas.JavaScript.Member
import CallAtlas.JavaScript.Markup
import CallAtlas.JavaScript.Expression
import CallAtlas.JavaScript.Statement
import CallAtlas.JavaScript.Program
import CallAtlas.Analysis
import CallAtlas.Scanner
import CallAtlas.Host
import CallAtlas.Progress
import CallAtlas.CommandLine
import CallAtlas.Command
import CallAtlas.Main
import CallAtlas.Proofs.Bearers
import CallAtlas.Proofs.LastOfKey
import CallAtlas.Proofs.OutermostFunctions
import CallAtlas.Proofs.Callers
import CallAtlas.Proofs.Nesting
import CallAtlas.Proofs.ScanHistory
import CallAtlas.Proofs.Addresses
import CallAtlas.Proofs.SourceOrder
import CallAtlas.Proofs.BodyEdits
import CallAtlas.Proofs.ScanState
import CallAtlas.Proofs.RelativePaths
import CallAtlas.Proofs.WorkerPool
import CallAtlas.Proofs.Details
import CallAtlas.Proofs.Methods
import CallAtlas.Proofs.FileSearch
import CallAtlas.Proofs.SearchIndependence
import CallAtlas.Proofs.FileIsolation
import CallAtlas.Proofs.EnvFiles
import CallAtlas.Proofs.Overrides
import CallAtlas.Proofs.Failures
import CallAtlas.Proofs.Printing
import CallAtlas.Proofs.Endings
import CallAtlas.Proofs.JsonTexts
import CallAtlas.Proofs.JsonRoundTrip
import CallAtlas.Proofs.Documents
import CallAtlas.Proofs.Siblings
import CallAtlas.Proofs.FirstOccurrences
import CallAtlas.Proofs.CallNames
import CallAtlas.Proofs.ConsoleCalls
import CallAtlas.Proofs.OwnReturns
import CallAtlas.Proofs.StackWalk
import CallAtlas.Proofs.NestingScan
import CallAtlas.Proofs.MalformedForms
import CallAtlas.Proofs.LaterCode
import CallAtlas.Proofs.DecodedText
import CallAtlas.Proofs.WrittenSettings
import CallAtlas.Proofs.RecordCounts
import CallAtlas.Proofs.TopFiles
