import TemplateScanner.Main
import TemplateScanner.Recorded
import TemplateScanner.Session
import TemplateScanner.Proofs.Scannable
import TemplateScanner.Proofs.IndexCursor
import TemplateScanner.Proofs.Offsets
import TemplateScanner.Proofs.Contract
import TemplateScanner.Proofs.Attempts
import TemplateScanner.Proofs.Operation
import TemplateScanner.Proofs.Refinement
import TemplateScanner.Proofs.Orderly
import TemplateScanner.Proofs.Boundary
import TemplateScanner.Proofs.Turn
import TemplateScanner.Proofs.Tiling
import TemplateScanner.Proofs.Reach
import TemplateScanner.Proofs.CommentGrammar
import TemplateScanner.Proofs.Pieces
import TemplateScanner.Proofs.StreamShape
import TemplateScanner.Proofs.Lookahead
import TemplateScanner.Proofs.Unread
import TemplateScanner.Proofs.Rescan
import TemplateScanner.Proofs.Appended
import TemplateScanner.Proofs.ArgumentGrammar
import TemplateScanner.Proofs.ArgumentList
import TemplateScanner.Proofs.LineStarts
import TemplateScanner.Proofs.Faultless
import TemplateScanner.Proofs.Account
import TemplateScanner.Proofs.Lifecycle
import TemplateScanner.Proofs.FirstOccurrence
import TemplateScanner.Proofs.ReadOn
import TemplateScanner.Proofs.CommentEnd
import TemplateScanner.Proofs.Commits
import TemplateScanner.Proofs.ArgumentEnd
import TemplateScanner.Proofs.AsciiOffsets
import TemplateScanner.Proofs.ContentEnd
import TemplateScanner.Proofs.LineCounts
import TemplateScanner.Proofs.LineOrder
import TemplateScanner.Proofs.SpanText
import TemplateScanner.Proofs.LabelGrammar
import TemplateScanner.Proofs.Unquoted
import TemplateScanner.Proofs.ReportLines
import TemplateScanner.Proofs.Defects
import TemplateScanner.Proofs.FirstLine
import TemplateScanner.Proofs.CommandArguments
import TemplateScanner.Proofs.Notices
import TemplateScanner.Proofs.Runs
import TemplateScanner.Proofs.Scans
import TemplateScanner.Proofs.LogLines
import TemplateScanner.Proofs.ConsoleLines
import TemplateScanner.Proofs.TraceLines
import TemplateScanner.Proofs.TrailingCommits
import TemplateScanner.Proofs.CallHistory
import TemplateScanner.Proofs.Discipline
