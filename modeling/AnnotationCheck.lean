import AnnotationCheck.Analysis.Basic
import AnnotationCheck.Analysis.History
import AnnotationCheck.Analysis.Pass
import AnnotationCheck.Builtins
import AnnotationCheck.CommandLine.Options
import AnnotationCheck.CommandLine.Run
import AnnotationCheck.Comment
import AnnotationCheck.Comment.Words
import AnnotationCheck.Config.Basic
import AnnotationCheck.Declarations
import AnnotationCheck.Disk.Basic
import AnnotationCheck.Disk.Glob
import AnnotationCheck.Disk.Ignore
import AnnotationCheck.Disk.Listing
import AnnotationCheck.Disk.Walk
import AnnotationCheck.Docblock.Language
import AnnotationCheck.Docblock.Placement
import AnnotationCheck.Docblock.Templates
import AnnotationCheck.Issue.Basic
import AnnotationCheck.Main
import AnnotationCheck.Path.Basic
import AnnotationCheck.Path.Order
import AnnotationCheck.Path.Set
import AnnotationCheck.Php.Grammar
import AnnotationCheck.Php.Lexer
import AnnotationCheck.Php.Program
import AnnotationCheck.Php.Rule
import AnnotationCheck.Php.Statement
import AnnotationCheck.Php.Token
import AnnotationCheck.Project.Basic
import AnnotationCheck.Project.Check
import AnnotationCheck.Project.Load
import AnnotationCheck.Proofs.Analysis.AlikeScopes
import AnnotationCheck.Proofs.Analysis.Isolation
import AnnotationCheck.Proofs.Analysis.Lines
import AnnotationCheck.Proofs.Analysis.Memo
import AnnotationCheck.Proofs.Analysis.Names
import AnnotationCheck.Proofs.Analysis.Offer
import AnnotationCheck.Proofs.Analysis.Report
import AnnotationCheck.Proofs.Analysis.Sink
import AnnotationCheck.Proofs.Analysis.SourceOrder
import AnnotationCheck.Proofs.Analysis.WholeFile
import AnnotationCheck.Proofs.Comment.Located
import AnnotationCheck.Proofs.Comment.Parted
import AnnotationCheck.Proofs.Comment.Ranges
import AnnotationCheck.Proofs.Comment.Words
import AnnotationCheck.Proofs.Config.Exclusion
import AnnotationCheck.Proofs.Declarations.FirstSpace
import AnnotationCheck.Proofs.Declarations.Homes
import AnnotationCheck.Proofs.Declarations.Imports
import AnnotationCheck.Proofs.Declarations.Names
import AnnotationCheck.Proofs.Declarations.Spelled
import AnnotationCheck.Proofs.Declarations.Unbroken
import AnnotationCheck.Proofs.Disk.Place
import AnnotationCheck.Proofs.Disk.Walk
import AnnotationCheck.Proofs.Docblock.Placement
import AnnotationCheck.Proofs.Docblock.Templates
import AnnotationCheck.Proofs.Issue.Sort
import AnnotationCheck.Proofs.Path.Join
import AnnotationCheck.Proofs.Path.Order
import AnnotationCheck.Proofs.Path.Relative
import AnnotationCheck.Proofs.Php.Comments
import AnnotationCheck.Proofs.Php.Imports
import AnnotationCheck.Proofs.Php.Reads
import AnnotationCheck.Proofs.Php.Spelling
import AnnotationCheck.Proofs.Php.Statements
import AnnotationCheck.Proofs.Project.BelowRoot
import AnnotationCheck.Proofs.Project.Blocks
import AnnotationCheck.Proofs.Project.ByFile
import AnnotationCheck.Proofs.Project.Check
import AnnotationCheck.Proofs.Project.Due
import AnnotationCheck.Proofs.Project.Exclusion
import AnnotationCheck.Proofs.Project.FilesAnalyzed
import AnnotationCheck.Proofs.Project.Findings
import AnnotationCheck.Proofs.Project.Imports
import AnnotationCheck.Proofs.Project.KnownClasses
import AnnotationCheck.Proofs.Project.Order
import AnnotationCheck.Proofs.Project.Orders
import AnnotationCheck.Proofs.Project.Overlap
import AnnotationCheck.Proofs.Project.OwnNames
import AnnotationCheck.Proofs.Project.Symbols
import AnnotationCheck.Proofs.Project.Unreadable
import AnnotationCheck.Proofs.Report.Json
import AnnotationCheck.Proofs.Report.Lines
import AnnotationCheck.Proofs.Report.Records
import AnnotationCheck.Proofs.Report.ShownPath
import AnnotationCheck.Proofs.Scope.Canonical
import AnnotationCheck.Proofs.Scope.Case
import AnnotationCheck.Proofs.Scope.Excuses
import AnnotationCheck.Proofs.Scope.Resolves
import AnnotationCheck.Proofs.Scope.Spelling
import AnnotationCheck.Proofs.Scope.Unwrapping
import AnnotationCheck.Proofs.Text.Bytes
import AnnotationCheck.Proofs.Text.Case
import AnnotationCheck.Proofs.Text.Lines
import AnnotationCheck.Proofs.Text.Offset
import AnnotationCheck.Proofs.Text.Runs
import AnnotationCheck.Proofs.Text.Trim
import AnnotationCheck.Proofs.Union.Bytes
import AnnotationCheck.Proofs.Union.Case
import AnnotationCheck.Proofs.Union.Element
import AnnotationCheck.Proofs.Union.Members
import AnnotationCheck.Proofs.Union.Tail
import AnnotationCheck.Proofs.VarTag.Cuts
import AnnotationCheck.Proofs.VarTag.Parts
import AnnotationCheck.Proofs.VarTag.Places
import AnnotationCheck.Proofs.VarTag.Reading
import AnnotationCheck.Reference
import AnnotationCheck.Report.Basic
import AnnotationCheck.Report.Json
import AnnotationCheck.Report.Json.Reader
import AnnotationCheck.Scope
import AnnotationCheck.Symbols
import AnnotationCheck.Text.Basic
import AnnotationCheck.Text.Hex
import AnnotationCheck.Text.Lossy
import AnnotationCheck.Text.Offset
import AnnotationCheck.Text.Space
import AnnotationCheck.Toml.Document
import AnnotationCheck.Toml.Quoted
import AnnotationCheck.Toml.Value
import AnnotationCheck.Union.Basic
import AnnotationCheck.Union.Bytes
import AnnotationCheck.Union.Language
import AnnotationCheck.VarTag
import AnnotationCheck.VarTag.Language
