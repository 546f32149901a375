import DependencyAudit.Main
import DependencyAudit.Proofs.Results
import DependencyAudit.Proofs.Diff.LongestRun
import DependencyAudit.Proofs.Diff.Script
import DependencyAudit.Proofs.Diff.SharedRun
import DependencyAudit.Proofs.Diff.Deletion
import DependencyAudit.Proofs.Diff.Application
import DependencyAudit.Proofs.Diff.Reading
import DependencyAudit.Proofs.Declaration.Place
import DependencyAudit.Proofs.Declaration.Grammar
import DependencyAudit.Proofs.Evidence.Token
import DependencyAudit.Proofs.Report.Marks
import DependencyAudit.Proofs.Report.SecondAudit
import DependencyAudit.Proofs.Report.Page
import DependencyAudit.Proofs.Verdict.Sound
import DependencyAudit.Proofs.Evidence.Tree
import DependencyAudit.Proofs.Declaration.Kind
import DependencyAudit.Proofs.Declaration.Provenance
import DependencyAudit.Proofs.Declaration.Quotes
import DependencyAudit.Proofs.Text.Newlines
import DependencyAudit.Proofs.Declaration.LineNumber
import DependencyAudit.Proofs.Evidence.Listing
import DependencyAudit.Proofs.Verdict.Dependence
import DependencyAudit.Proofs.Command.PrintedPatch
import DependencyAudit.Proofs.Command.Basis
import DependencyAudit.Proofs.Command.Request
import DependencyAudit.Proofs.Command.Explain
import DependencyAudit.Proofs.Command.Verbosity
import DependencyAudit.Proofs.Settings.WellFormed
import DependencyAudit.Proofs.Command.Frame
import DependencyAudit.Proofs.Command.Evidence
import DependencyAudit.Proofs.Command.PlainTable
import DependencyAudit.Proofs.Document.Overlay
import DependencyAudit.Proofs.Evidence.Additive
import DependencyAudit.Proofs.Evidence.Document
import DependencyAudit.Proofs.Evidence.Formats
import DependencyAudit.Proofs.Evidence.Conflict
import DependencyAudit.Proofs.Command.Script
import DependencyAudit.Proofs.Verdict.Cascade
import DependencyAudit.Proofs.Verdict.Sizes
import DependencyAudit.Proofs.Verdict.Names
import DependencyAudit.Proofs.Command.Start
import DependencyAudit.Proofs.Command.Lookup
import DependencyAudit.Proofs.Report.Edits
import DependencyAudit.Proofs.Report.Totals
import DependencyAudit.Proofs.Report.Narrowed
import DependencyAudit.Proofs.Command.ConsoleTable
import DependencyAudit.Proofs.Command.Standard
