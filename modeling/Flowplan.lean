import Flowplan.Action.Definition
import Flowplan.Action.Registry
import Flowplan.Command.Arguments
import Flowplan.Command.Option
import Flowplan.Command.Run
import Flowplan.Command.Usage
import Flowplan.Compile
import Flowplan.Console.Grid
import Flowplan.Console.Markup
import Flowplan.Console.Style
import Flowplan.Console.Wrap
import Flowplan.Context
import Flowplan.Decimal.Arithmetic
import Flowplan.Decimal.Binary64
import Flowplan.Decimal.Notation
import Flowplan.Decimal.Shortest
import Flowplan.Digest.NamedId
import Flowplan.Digest.Sha1
import Flowplan.Example
import Flowplan.Format.Directive
import Flowplan.Format.Fill
import Flowplan.Format.Number
import Flowplan.Hosts
import Flowplan.Json.Basic
import Flowplan.Json.Display
import Flowplan.Json.Encoding
import Flowplan.Json.Kind
import Flowplan.Json.Printer
import Flowplan.Json.Reader
import Flowplan.Json.Writer
import Flowplan.Layout.Amount
import Flowplan.Layout.Graph
import Flowplan.Layout.Levels
import Flowplan.Layout.Options
import Flowplan.Layout.Placement
import Flowplan.Layout.Review
import Flowplan.Locator
import Flowplan.Log.Entry
import Flowplan.Log.Level
import Flowplan.Log.Loggers
import Flowplan.Main
import Flowplan.Plan.Basic
import Flowplan.Plan.Document
import Flowplan.Plan.Parse
import Flowplan.Plan.Read
import Flowplan.Plan.Walk
import Flowplan.Plan.Wire
import Flowplan.Record.Fault
import Flowplan.Record.Number
import Flowplan.Record.Slot
import Flowplan.Rules.Check
import Flowplan.Rules.Finding
import Flowplan.Rules.Summary
import Flowplan.Rules.Validation
import Flowplan.Schema.Basic
import Flowplan.Schema.Cache
import Flowplan.Schema.Check
import Flowplan.Schema.Equality
import Flowplan.Schema.Keyword
import Flowplan.Schema.Message
import Flowplan.Settings.Basic
import Flowplan.Settings.EnvFile
import Flowplan.Settings.Load
import Flowplan.Table
import Flowplan.Template
import Flowplan.Text.Basic
import Flowplan.Text.Encoding
import Flowplan.Text.Quoted
import Flowplan.Text.Similar
import Flowplan.Unicode.Blank
import Flowplan.Unicode.Case
import Flowplan.Unicode.CaseTable
import Flowplan.Unicode.Compatibility
import Flowplan.Unicode.Digit
import Flowplan.Unicode.Printable
import Flowplan.Unicode.RangeTable
import Flowplan.Unicode.Width
import Flowplan.Url.Address
import Flowplan.Url.Basic
import Flowplan.Url.Redaction
import Flowplan.Workflow.Build
import Flowplan.Workflow.Flatten
import Flowplan.Workflow.Node
import Flowplan.Workflow.Obstacle
import Flowplan.Proofs.BuildRun
import Flowplan.Proofs.NodeNumbers
import Flowplan.Proofs.ExceptLaws
import Flowplan.Proofs.NodeOrder
import Flowplan.Proofs.BuiltNodes
import Flowplan.Proofs.LayoutPlaces
import Flowplan.Proofs.Connections
import Flowplan.Proofs.CompiledNodes
import Flowplan.Proofs.FlattenOrder
import Flowplan.Proofs.DocumentPath
import Flowplan.Proofs.PlanSites
import Flowplan.Proofs.CheckedLaws
import Flowplan.Proofs.InspectionRun
import Flowplan.Proofs.ReadPlan
import Flowplan.Proofs.RuleFindings
import Flowplan.Proofs.FindingPlaces
import Flowplan.Proofs.SiteRefusals
import Flowplan.Proofs.FlattenRefusal
import Flowplan.Proofs.CompileAgreement
import Flowplan.Proofs.ReadComplaints
import Flowplan.Proofs.PlanGrammar
import Flowplan.Proofs.SchemaKeywords
import Flowplan.Proofs.DocumentRecognition
import Flowplan.Proofs.PlanRecognition
import Flowplan.Proofs.StepRecognition
import Flowplan.Proofs.GrammarRead
import Flowplan.Proofs.PlanAcceptance
import Flowplan.Proofs.ReaderDigits
import Flowplan.Proofs.DocumentAnswer
import Flowplan.Proofs.AcceptedPlan
import Flowplan.Proofs.SettingsBounds
import Flowplan.Proofs.AcceptedWorkflow
import Flowplan.Proofs.WorkflowSafety
import Flowplan.Proofs.EntryPoint
import Flowplan.Proofs.WiredOutputs
import Flowplan.Proofs.DependencyGraph
import Flowplan.Proofs.LevelSearch
import Flowplan.Proofs.LayoutColumns
import Flowplan.Proofs.LayoutFallback
import Flowplan.Proofs.LayoutRow
import Flowplan.Proofs.CompiledRow
import Flowplan.Proofs.AcceptedDenotation
import Flowplan.Proofs.FiniteNumbers
import Flowplan.Proofs.PlanDump
import Flowplan.Proofs.ParsedDump
import Flowplan.Proofs.DecimalRounding
import Flowplan.Proofs.NumberReading
import Flowplan.Proofs.NumberText
import Flowplan.Proofs.PrintedString
import Flowplan.Proofs.PrintedValue
import Flowplan.Proofs.SortedValue
import Flowplan.Proofs.CanonicalValue
import Flowplan.Proofs.WireReading
import Flowplan.Proofs.CanonicalText
import Flowplan.Proofs.CallTrace
import Flowplan.Proofs.EncodedText
import Flowplan.Proofs.InputForms
import Flowplan.Proofs.MarkupTags
import Flowplan.Proofs.CommandArguments
import Flowplan.Proofs.CommandOutcome
import Flowplan.Proofs.PlanFlaws
import Flowplan.Proofs.SchemaReports
import Flowplan.Proofs.FlawReports
import Flowplan.Proofs.FlawPlaces
import Flowplan.Proofs.FlawPositions
import Flowplan.Proofs.ReportedFlaws
import Flowplan.Proofs.LevelGrowth
import Flowplan.Proofs.LongestPaths
import Flowplan.Proofs.LayoutPositions
import Flowplan.Proofs.NodeAreas
import Flowplan.Proofs.ColumnGeometry
import Flowplan.Proofs.CompileFailure
import Flowplan.Proofs.LayoutRearrangement
import Flowplan.Proofs.TextParts
import Flowplan.Proofs.TemplatePlaceholders
import Flowplan.Proofs.UrlHost
import Flowplan.Proofs.LowerCase
import Flowplan.Proofs.HostLabels
import Flowplan.Proofs.RequestBody
import Flowplan.Proofs.UrlDestination
import Flowplan.Proofs.InvalidUrls
import Flowplan.Proofs.HiddenUrls
import Flowplan.Proofs.RegisteredActions
import Flowplan.Proofs.ActionIsolation
import Flowplan.Proofs.ReorderedRules
import Flowplan.Proofs.ReorderedOutcome
import Flowplan.Proofs.ReorderedSchema
import Flowplan.Proofs.SharedSchemas
import Flowplan.Proofs.StepPlaces
import Flowplan.Proofs.WalkOrder
import Flowplan.Proofs.LocatorReading
import Flowplan.Proofs.DeclaredNames
import Flowplan.Proofs.ReportedPlaces
