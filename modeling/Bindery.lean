import Bindery.Boundary
import Bindery.CommandLine
import Bindery.Decimal.Double
import Bindery.Decimal.Notation
import Bindery.Decimal.Reading
import Bindery.Decimal.Shortest
import Bindery.Description
import Bindery.Disk.Basic
import Bindery.Disk.Tree
import Bindery.Disk.View
import Bindery.Disk.World
import Bindery.ErrorTable
import Bindery.Event
import Bindery.Idl.Body
import Bindery.Idl.Comment
import Bindery.Idl.Document
import Bindery.Idl.Reader
import Bindery.Idl.Reading
import Bindery.Idl.Statement
import Bindery.Job.Basic
import Bindery.Job.Delivery
import Bindery.Job.Layout
import Bindery.Job.Run
import Bindery.Layer.Export
import Bindery.Layer.Glue
import Bindery.Layer.Header
import Bindery.Layer.JavaSupport
import Bindery.Layer.JavaValue
import Bindery.Layer.JavaWrapper
import Bindery.Layer.Results
import Bindery.Layer.Safe
import Bindery.Layer.Setting
import Bindery.Layer.SwiftSupport
import Bindery.Layer.SwiftWrapper
import Bindery.Main
import Bindery.Markup.Binary
import Bindery.Markup.Cursor
import Bindery.Markup.Meaning
import Bindery.Markup.Merging
import Bindery.Markup.Node
import Bindery.Markup.Numeral
import Bindery.Markup.Reading
import Bindery.Markup.Scalar
import Bindery.Markup.Schema
import Bindery.Markup.Timestamp
import Bindery.Markup.Token
import Bindery.Model.Basic
import Bindery.Model.Check
import Bindery.Model.Fault
import Bindery.Model.Field
import Bindery.Model.Functions
import Bindery.Model.Types
import Bindery.Moment
import Bindery.Naming.Reserved
import Bindery.Naming.Spelling
import Bindery.Naming.Symbol
import Bindery.Naming.WordCase
import Bindery.Options
import Bindery.Path
import Bindery.Program
import Bindery.Proofs.Boundary.Agreement
import Bindery.Proofs.Boundary.Arguments
import Bindery.Proofs.Boundary.Bindings
import Bindery.Proofs.Boundary.BoundNames
import Bindery.Proofs.Boundary.Capture
import Bindery.Proofs.Boundary.CheckedExceptions
import Bindery.Proofs.Boundary.CoreScopes
import Bindery.Proofs.Boundary.Crossing
import Bindery.Proofs.Boundary.Declarations
import Bindery.Proofs.Boundary.ExportMeasures
import Bindery.Proofs.Boundary.Filling
import Bindery.Proofs.Boundary.GlueScope
import Bindery.Proofs.Boundary.HandedOut
import Bindery.Proofs.Boundary.Imports
import Bindery.Proofs.Boundary.JavaFronts
import Bindery.Proofs.Boundary.JavaModules
import Bindery.Proofs.Boundary.JavaSide
import Bindery.Proofs.Boundary.JavaUnits
import Bindery.Proofs.Boundary.Lengths
import Bindery.Proofs.Boundary.LengthsAgree
import Bindery.Proofs.Boundary.LibraryPaths
import Bindery.Proofs.Boundary.Linking
import Bindery.Proofs.Boundary.NeatFiles
import Bindery.Proofs.Boundary.PassedLengths
import Bindery.Proofs.Boundary.Shim
import Bindery.Proofs.Boundary.TypeNames
import Bindery.Proofs.Boundary.VariantNumbers
import Bindery.Proofs.Boundary.WordLengths
import Bindery.Proofs.Boundary.WrapperMeasures
import Bindery.Proofs.Boundary.WrapperScopes
import Bindery.Proofs.Codes.Agreement
import Bindery.Proofs.Codes.Constants
import Bindery.Proofs.Codes.Dispatch
import Bindery.Proofs.Codes.Exceptions
import Bindery.Proofs.Codes.Usable
import Bindery.Proofs.Disk.Below
import Bindery.Proofs.Disk.Clear
import Bindery.Proofs.Disk.Effects
import Bindery.Proofs.Disk.Leading
import Bindery.Proofs.Disk.Making
import Bindery.Proofs.Disk.Steps
import Bindery.Proofs.Disk.Touching
import Bindery.Proofs.Disk.Way
import Bindery.Proofs.Idl.Acceptance
import Bindery.Proofs.Idl.ApiText
import Bindery.Proofs.Idl.Bodies
import Bindery.Proofs.Idl.Comments
import Bindery.Proofs.Idl.FaultLines
import Bindery.Proofs.Idl.Grammar
import Bindery.Proofs.Idl.OptionText
import Bindery.Proofs.Idl.Passes
import Bindery.Proofs.Idl.Printing
import Bindery.Proofs.Idl.Readers
import Bindery.Proofs.Job.AnyDisk
import Bindery.Proofs.Job.BreakingOff
import Bindery.Proofs.Job.Checking
import Bindery.Proofs.Job.Confinement
import Bindery.Proofs.Job.Course
import Bindery.Proofs.Job.Custom
import Bindery.Proofs.Job.Delivering
import Bindery.Proofs.Job.Failure
import Bindery.Proofs.Job.LetThrough
import Bindery.Proofs.Job.Loading
import Bindery.Proofs.Job.Passing
import Bindery.Proofs.Job.Phases
import Bindery.Proofs.Job.Reporting
import Bindery.Proofs.Job.Sessions
import Bindery.Proofs.Job.Staging
import Bindery.Proofs.Job.Success
import Bindery.Proofs.Job.Swapping
import Bindery.Proofs.Job.TargetRun
import Bindery.Proofs.Job.Together
import Bindery.Proofs.Job.Undoing
import Bindery.Proofs.Job.Unhindered
import Bindery.Proofs.Job.Whereabouts
import Bindery.Proofs.Model.Acceptance
import Bindery.Proofs.Model.FirstFault
import Bindery.Proofs.Model.FunctionChecks
import Bindery.Proofs.Model.Homes
import Bindery.Proofs.Model.InTurn
import Bindery.Proofs.Model.TypeChecks
import Bindery.Proofs.Model.Unwritten
import Bindery.Proofs.Model.Valid
import Bindery.Proofs.Naming.Distinct
import Bindery.Proofs.Naming.Symbols
import Bindery.Proofs.Options.Confined
import Bindery.Proofs.Options.Valid
import Bindery.Proofs.Outcome
import Bindery.Proofs.Source.Binding
import Bindery.Proofs.Source.Calling
import Bindery.Proofs.Source.Collect
import Bindery.Proofs.Source.Deciding
import Bindery.Proofs.Source.Declared
import Bindery.Proofs.Source.Defined
import Bindery.Proofs.Source.Handing
import Bindery.Proofs.Source.Heading
import Bindery.Proofs.Source.JavaString
import Bindery.Proofs.Source.Measured
import Bindery.Proofs.Source.Neat
import Bindery.Proofs.Source.Passing
import Bindery.Proofs.Source.Raising
import Bindery.Proofs.Source.Reading
import Bindery.Proofs.Source.Tidy
import Bindery.Proofs.Target.Emission
import Bindery.Proofs.Target.Files
import Bindery.Proofs.Target.Generation
import Bindery.Proofs.Target.Growing
import Bindery.Proofs.Target.LetterCase
import Bindery.Proofs.Target.Paths
import Bindery.Proofs.Target.Selection
import Bindery.Proofs.Target.Standing
import Bindery.Proofs.Text.Boundaries
import Bindery.Proofs.Text.Cutting
import Bindery.Proofs.Text.Sorting
import Bindery.Proofs.Text.WordCase
import Bindery.Proofs.Text.Words
import Bindery.Source.Line
import Bindery.Target
import Bindery.Text.Blank
import Bindery.Text.Cased
import Bindery.Text.CodePoint
import Bindery.Text.Digit
import Bindery.Text.LetterCase
import Bindery.Text.Lines
import Bindery.Text.Order
import Bindery.Text.Printable
import Bindery.Text.Quoted
import Bindery.Text.Ranges
import Bindery.Text.WordChar
import Bindery.Value.Basic
import Bindery.Value.Display
