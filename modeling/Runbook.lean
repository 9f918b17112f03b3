import Runbook.Clock
import Runbook.CommandLine.Options
import Runbook.CommandLine.Run
import Runbook.Condition.Datum
import Runbook.Condition.Eval
import Runbook.Condition.Expr
import Runbook.Condition.ExprReader
import Runbook.Condition.Functions
import Runbook.Condition.Library
import Runbook.Condition.Operator
import Runbook.Condition.Quotes
import Runbook.Condition.Token
import Runbook.Copy.Client
import Runbook.Copy.Message
import Runbook.Copy.Sender
import Runbook.Copy.Waiting
import Runbook.Decimal.Double
import Runbook.Decimal.Layout
import Runbook.Decimal.Reading
import Runbook.Decimal.Shortest
import Runbook.Error
import Runbook.Main
import Runbook.Output
import Runbook.Process
import Runbook.Remote.Connection
import Runbook.Remote.Script
import Runbook.Run.Context
import Runbook.Run.Engine
import Runbook.Run.Local
import Runbook.Run.Nesting
import Runbook.Run.Remote
import Runbook.Run.Retry
import Runbook.Scenario
import Runbook.Shell.Format
import Runbook.Shell.Run
import Runbook.Shell.Syntax
import Runbook.Shell.Utility
import Runbook.Shell.Word
import Runbook.Step.Basic
import Runbook.Step.Record
import Runbook.Step.Registry
import Runbook.Storage.Basic
import Runbook.Storage.Disk
import Runbook.Storage.Error
import Runbook.Storage.Memory
import Runbook.Template.Action.Basic
import Runbook.Template.Action.Scope
import Runbook.Template.Basic
import Runbook.Template.ExprReader
import Runbook.Template.Filter
import Runbook.Template.Interpolate
import Runbook.Template.Lookup
import Runbook.Template.Reader
import Runbook.Template.Render
import Runbook.Text.Blank
import Runbook.Text.Case
import Runbook.Text.CaseTable
import Runbook.Text.Quoted
import Runbook.Text.Unprintable
import Runbook.Text.Utf8
import Runbook.Value.Basic
import Runbook.Value.Reader
import Runbook.Value.Text
import Runbook.Version
import Runbook.World
import Runbook.Yaml.Node
import Runbook.Yaml.Reader
import Runbook.Yaml.Scalar
import Runbook.Yaml.Scan
import Runbook.Yaml.Token
import Runbook.Proofs.Run.Errors
import Runbook.Proofs.Copy.Outcome
import Runbook.Proofs.Run.Blame
import Runbook.Proofs.Template.Arithmetic
import Runbook.Proofs.Template.Comparison
import Runbook.Proofs.Template.Connective
import Runbook.Proofs.Template.Grouping
import Runbook.Proofs.Template.Actions
import Runbook.Proofs.Template.Plain
import Runbook.Proofs.Template.References
import Runbook.Proofs.Text.Encoding
import Runbook.Proofs.Copy.Delivery
import Runbook.Proofs.Run.Attempts
import Runbook.Proofs.Run.Footprint
import Runbook.Proofs.Run.Loops
import Runbook.Proofs.Run.Inclusions
import Runbook.Proofs.Run.Sessions
import Runbook.Proofs.Value.Order
import Runbook.Proofs.Remote.CommandLines
import Runbook.Proofs.Run.Redaction
import Runbook.Proofs.Run.Endings
import Runbook.Proofs.Run.Documents
import Runbook.Proofs.Run.Flags
import Runbook.Proofs.Template.Blocks
import Runbook.Proofs.Template.Pipelines
import Runbook.Proofs.Template.Dependence
import Runbook.Proofs.Template.LeadingDots
import Runbook.Proofs.Condition.Quotation
import Runbook.Proofs.Condition.Places
import Runbook.Proofs.Condition.Vocabulary
import Runbook.Proofs.Condition.Words
import Runbook.Proofs.Condition.Boundaries
import Runbook.Proofs.Condition.Written
import Runbook.Proofs.Condition.Relevance
import Runbook.Proofs.Copy.Announcement
import Runbook.Proofs.Remote.Deadlines
import Runbook.Proofs.Storage.Routes
import Runbook.Proofs.Template.Shown
import Runbook.Proofs.Template.Slots
import Runbook.Proofs.Text.Replacement
import Runbook.Proofs.Template.Brackets
import Runbook.Proofs.Template.Keys
import Runbook.Proofs.Text.Cutting
import Runbook.Proofs.Version.Spelling
import Runbook.Proofs.Version.Precedence
import Runbook.Proofs.Remote.Capture
import Runbook.Proofs.Template.Comments
import Runbook.Proofs.Template.Carried
import Runbook.Proofs.Copy.Responses
import Runbook.Proofs.CommandLine.Variables
