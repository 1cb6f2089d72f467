import Pegsmith.Code.Header
import Pegsmith.Code.Lexer
import Pegsmith.Code.Matching
import Pegsmith.Code.Name
import Pegsmith.Code.Parser
import Pegsmith.Code.Session
import Pegsmith.Code.Writer
import Pegsmith.Command.Arguments
import Pegsmith.Command.Build
import Pegsmith.Command.Files
import Pegsmith.Command.Generate
import Pegsmith.Command.Log
import Pegsmith.Command.Output
import Pegsmith.Description
import Pegsmith.Description.Reader
import Pegsmith.Diagnostic
import Pegsmith.Fault
import Pegsmith.Generation
import Pegsmith.Grammar.Basic
import Pegsmith.Grammar.Lowered
import Pegsmith.Grammar.Recursion
import Pegsmith.Grammar.Tokens
import Pegsmith.Main
import Pegsmith.Memo
import Pegsmith.Parsing.Compiled
import Pegsmith.Parsing.Evaluate
import Pegsmith.Parsing.Lexer
import Pegsmith.Parsing.Matcher
import Pegsmith.Parsing.Rules
import Pegsmith.Parsing.Search
import Pegsmith.Parsing.Tape
import Pegsmith.Parsing.Token
import Pegsmith.Parsing.Value
import Pegsmith.Pattern.Basic
import Pegsmith.Pattern.Lexeme
import Pegsmith.Pattern.Parser
import Pegsmith.Pattern.Printer
import Pegsmith.Pattern.Shape
import Pegsmith.Plan.Basic
import Pegsmith.Plan.Fit
import Pegsmith.Regex.Basic
import Pegsmith.Regex.CharSet
import Pegsmith.Regex.Program
import Pegsmith.Regex.Reader
import Pegsmith.Sample.Basic
import Pegsmith.Sample.Calculator
import Pegsmith.Sample.GameRecord
import Pegsmith.Sample.Items
import Pegsmith.Sample.Levels
import Pegsmith.Sample.SyntaxTree
import Pegsmith.Sample.Table
import Pegsmith.Source.ExprReader
import Pegsmith.Source.Grammar
import Pegsmith.Source.HostType
import Pegsmith.Source.ItemReader
import Pegsmith.Source.PatternReader
import Pegsmith.Source.Reader
import Pegsmith.Source.Tree
import Pegsmith.Source.TypeReader
import Pegsmith.Text.Blank
import Pegsmith.Text.Category
import Pegsmith.Text.CodeTable
import Pegsmith.Text.Folding
import Pegsmith.Text.Identifier
import Pegsmith.Text.Letters
import Pegsmith.Text.Offset
import Pegsmith.Text.Property
import Pegsmith.Text.Quoted
import Pegsmith.Text.Scan
import Pegsmith.Text.Script
import Pegsmith.Toml.Document
import Pegsmith.Toml.Scalar
import Pegsmith.Toml.Schema
import Pegsmith.Toml.Text
import Pegsmith.Toml.Value
import Pegsmith.Types.Catalog
import Pegsmith.Types.Demand
import Pegsmith.Proofs.Plan.Derivation
import Pegsmith.Proofs.Plan.Search
import Pegsmith.Proofs.Plan.Outline
import Pegsmith.Proofs.Plan.Typing
import Pegsmith.Proofs.Plan.Soundness
import Pegsmith.Proofs.Grammar.Descent
import Pegsmith.Proofs.Parsing.Advance
import Pegsmith.Proofs.Parsing.Follows
import Pegsmith.Proofs.Parsing.Memoized
import Pegsmith.Proofs.Parsing.Regular
import Pegsmith.Proofs.Sample.Languages
import Pegsmith.Proofs.Code.Balance
import Pegsmith.Proofs.Pattern.Derivation
import Pegsmith.Proofs.Pattern.Lexemes
import Pegsmith.Proofs.Pattern.Reading
import Pegsmith.Proofs.Pattern.Printing
import Pegsmith.Proofs.Types.Bases
import Pegsmith.Proofs.Plan.Leaves
import Pegsmith.Proofs.Grammar.Firsts
import Pegsmith.Proofs.Grammar.Productions
import Pegsmith.Proofs.Grammar.Lowering
import Pegsmith.Proofs.Generation
import Pegsmith.Proofs.Generation.Isolation
import Pegsmith.Proofs.Code.Name
import Pegsmith.Proofs.Generation.Members
import Pegsmith.Proofs.Command.FileTree
import Pegsmith.Proofs.Command.Runs
import Pegsmith.Proofs.Command.Writing
import Pegsmith.Proofs.Grammar.Spelling
import Pegsmith.Proofs.Code.Spelling
import Pegsmith.Proofs.Generation.Spelling
import Pegsmith.Proofs.Parsing.Tiling
import Pegsmith.Proofs.Parsing.Shift
import Pegsmith.Proofs.Parsing.Derivation
import Pegsmith.Proofs.Sample.Places
import Pegsmith.Proofs.Sample.Trees
import Pegsmith.Proofs.Sample.Arithmetic
import Pegsmith.Proofs.Sample.Lexemes
import Pegsmith.Proofs.Parsing.Giving
import Pegsmith.Proofs.Sample.Expressions
import Pegsmith.Proofs.Sample.Evaluation
import Pegsmith.Proofs.Code.Outputs
import Pegsmith.Proofs.Code.Drawing
import Pegsmith.Proofs.Code.Lines
import Pegsmith.Proofs.Code.Binding
import Pegsmith.Proofs.Code.Capture
import Pegsmith.Proofs.Code.Nesting
import Pegsmith.Proofs.Types.Views
import Pegsmith.Proofs.Types.Joins
import Pegsmith.Proofs.Plan.Width
import Pegsmith.Proofs.Plan.Brackets
import Pegsmith.Proofs.Grammar.Constructors
import Pegsmith.Proofs.Grammar.Endless
import Pegsmith.Proofs.Grammar.LeftRecursion
import Pegsmith.Proofs.Types.Descent
import Pegsmith.Proofs.Source.TypeRoundTrip
import Pegsmith.Proofs.Plan.Narrowing
import Pegsmith.Proofs.Sample.Counting
import Pegsmith.Proofs.Sample.Tables
import Pegsmith.Proofs.Sample.Games
import Pegsmith.Proofs.Grammar.Entries
import Pegsmith.Proofs.Grammar.Accounting
import Pegsmith.Proofs.Pattern.Characters
import Pegsmith.Proofs.Parsing.Halting
import Pegsmith.Proofs.Pattern.Errors
import Pegsmith.Proofs.Sample.Orders
import Pegsmith.Proofs.Types.Chains
import Pegsmith.Proofs.Code.Openings
import Pegsmith.Proofs.Parsing.Moves
import Pegsmith.Proofs.Source.Denotation
import Pegsmith.Proofs.Code.Table
import Pegsmith.Proofs.Code.Readback
