import Wireform.Backend.Layout
import Wireform.Backend.MatlabFiles
import Wireform.Backend.PythonClass
import Wireform.Backend.PythonModule
import Wireform.Backend.PythonNames
import Wireform.Backend.PythonPrelude
import Wireform.CommandLine
import Wireform.Decimal.Binary64
import Wireform.Decimal.Fraction
import Wireform.Document.Atom
import Wireform.Document.Calendar
import Wireform.Document.Content
import Wireform.Document.Fault
import Wireform.Document.Lexer
import Wireform.Document.Place
import Wireform.Document.Reader
import Wireform.Document.ScalarText
import Wireform.Document.Tag
import Wireform.Document.Yaml
import Wireform.FileSystem
import Wireform.FileTree.Access
import Wireform.FileTree.Basic
import Wireform.Generator.Basic
import Wireform.Generator.Run
import Wireform.Generator.Tree
import Wireform.HashWord
import Wireform.Main
import Wireform.Options
import Wireform.Pairs
import Wireform.Plan.Codec
import Wireform.Plan.Size
import Wireform.Plan.Type
import Wireform.Primitive
import Wireform.Proofs.Backend.ClassBody
import Wireform.Proofs.Backend.CodecAgreement
import Wireform.Proofs.Backend.Constructors
import Wireform.Proofs.Backend.DecodedLengths
import Wireform.Proofs.Backend.Emission
import Wireform.Proofs.Backend.EmissionFaults
import Wireform.Proofs.Backend.Fields
import Wireform.Proofs.Backend.FramedWords
import Wireform.Proofs.Backend.Legible
import Wireform.Proofs.Backend.LengthOrder
import Wireform.Proofs.Backend.MatlabBlocks
import Wireform.Proofs.Backend.MatlabFunctions
import Wireform.Proofs.Backend.MatlabLengths
import Wireform.Proofs.Backend.MatlabNames
import Wireform.Proofs.Backend.MatlabNesting
import Wireform.Proofs.Backend.MatlabSkeleton
import Wireform.Proofs.Backend.MatlabStems
import Wireform.Proofs.Backend.ModuleNames
import Wireform.Proofs.Backend.Outline
import Wireform.Proofs.Backend.PythonClasses
import Wireform.Proofs.Backend.PythonLengths
import Wireform.Proofs.Backend.PythonMethods
import Wireform.Proofs.Backend.PythonModules
import Wireform.Proofs.Backend.PythonNesting
import Wireform.Proofs.Backend.PythonScope
import Wireform.Proofs.Backend.PythonSkeleton
import Wireform.Proofs.Backend.PythonSuites
import Wireform.Proofs.Backend.PythonText
import Wireform.Proofs.Backend.PythonWords
import Wireform.Proofs.Backend.Reading
import Wireform.Proofs.Backend.Shadowing
import Wireform.Proofs.Backend.Writers
import Wireform.Proofs.CommandLine.Spelling
import Wireform.Proofs.CommandLine.Switches
import Wireform.Proofs.FileSystem.Directories
import Wireform.Proofs.FileSystem.Expected
import Wireform.Proofs.FileSystem.View
import Wireform.Proofs.FileTree.Following
import Wireform.Proofs.FileTree.Lawful
import Wireform.Proofs.FileTree.PathNames
import Wireform.Proofs.Generator.Courses
import Wireform.Proofs.Generator.Laziness
import Wireform.Proofs.Generator.OutputNames
import Wireform.Proofs.Generator.Rejection
import Wireform.Proofs.Generator.Reports
import Wireform.Proofs.Generator.Restriction
import Wireform.Proofs.Generator.Stages
import Wireform.Proofs.Generator.Upshots
import Wireform.Proofs.Outcome
import Wireform.Proofs.Plan.Build
import Wireform.Proofs.Plan.LengthGuard
import Wireform.Proofs.Plan.LoopNest
import Wireform.Proofs.Plan.RenderedHash
import Wireform.Proofs.Plan.SizeAgreement
import Wireform.Proofs.Registry.Coherence
import Wireform.Proofs.Schema.FileOrder
import Wireform.Proofs.Schema.Mixing
import Wireform.Proofs.Schema.Renaming
import Wireform.Proofs.Schema.Sensitivity
import Wireform.Proofs.Schema.Signature
import Wireform.Proofs.Schema.StructuralHash
import Wireform.Proofs.Schema.Validity
import Wireform.Proofs.Schema.Walk
import Wireform.Proofs.Schema.WellFormed
import Wireform.Proofs.Source.Acceptance
import Wireform.Proofs.Source.FaultLines
import Wireform.Proofs.Source.Grammar
import Wireform.Proofs.Source.Joining
import Wireform.Proofs.Source.Lexemes
import Wireform.Proofs.Source.Moves
import Wireform.Proofs.Source.Names
import Wireform.Proofs.Source.Pieces
import Wireform.Proofs.Source.Printing
import Wireform.Proofs.Source.Scanning
import Wireform.Proofs.Source.Steps
import Wireform.Proofs.Text.Classes
import Wireform.Proofs.Text.Identifiers
import Wireform.Proofs.Text.Numerals
import Wireform.Proofs.Text.Runs
import Wireform.Registry
import Wireform.Schema.BaseHash
import Wireform.Schema.Basic
import Wireform.Schema.Fingerprint
import Wireform.Schema.Validation
import Wireform.Source.Lexer
import Wireform.Source.Parser
import Wireform.Source.Token
import Wireform.Text.Digit
import Wireform.Text.Identifier
import Wireform.Text.Letter
import Wireform.Text.Numeral
import Wireform.Text.Printable
import Wireform.Text.Quoted
