import ReplayLog.Cli.Arguments
import ReplayLog.Cli.Run
import ReplayLog.Cli.World
import ReplayLog.Conversion.Run
import ReplayLog.Dialect.AccessLog
import ReplayLog.Dialect.AuditEvent
import ReplayLog.Dialect.Basic
import ReplayLog.Dialect.NodeLog
import ReplayLog.Dialect.ServiceExport
import ReplayLog.Entry.Extract
import ReplayLog.Entry.Fault
import ReplayLog.Entry.Feed
import ReplayLog.Entry.Segmenter
import ReplayLog.Json.Number
import ReplayLog.Json.Printer
import ReplayLog.Json.Reader
import ReplayLog.Json.Token
import ReplayLog.Json.Value
import ReplayLog.Main
import ReplayLog.Numeric.Binary64
import ReplayLog.Numeric.Decimal
import ReplayLog.Numeric.Integer
import ReplayLog.Numeric.Shortest
import ReplayLog.Proofs.AccessLogRoundTrip
import ReplayLog.Proofs.AgreeingRuns
import ReplayLog.Proofs.AppendedLines
import ReplayLog.Proofs.AuditedStatements
import ReplayLog.Proofs.BinaryRounding
import ReplayLog.Proofs.BoundaryStamps
import ReplayLog.Proofs.CalendarDays
import ReplayLog.Proofs.CommandLines
import ReplayLog.Proofs.CommandRuns
import ReplayLog.Proofs.ConcatenatedSources
import ReplayLog.Proofs.DecimalPrinting
import ReplayLog.Proofs.DecimalSeconds
import ReplayLog.Proofs.EmittedRecords
import ReplayLog.Proofs.EntryLimits
import ReplayLog.Proofs.EntryParts
import ReplayLog.Proofs.ExportAgreement
import ReplayLog.Proofs.ExportedStamps
import ReplayLog.Proofs.FirstMatch
import ReplayLog.Proofs.GrowingSource
import ReplayLog.Proofs.JsonRoundTrip
import ReplayLog.Proofs.LineCut
import ReplayLog.Proofs.LoggedStatements
import ReplayLog.Proofs.LossyReading
import ReplayLog.Proofs.NodeLogRoundTrip
import ReplayLog.Proofs.NodeStatements
import ReplayLog.Proofs.OffsetNotation
import ReplayLog.Proofs.ParameterBlock
import ReplayLog.Proofs.PatternCut
import ReplayLog.Proofs.PhysicalLines
import ReplayLog.Proofs.PreambleCount
import ReplayLog.Proofs.PrintedParts
import ReplayLog.Proofs.QuotedAgreement
import ReplayLog.Proofs.QuotedFields
import ReplayLog.Proofs.ReadingFaults
import ReplayLog.Proofs.RecordLines
import ReplayLog.Proofs.ReportedStops
import ReplayLog.Proofs.RoundedThousandths
import ReplayLog.Proofs.RowLines
import ReplayLog.Proofs.RunAccount
import ReplayLog.Proofs.RunCounts
import ReplayLog.Proofs.SegmenterCalls
import ReplayLog.Proofs.SettledOutcomes
import ReplayLog.Proofs.SieveDrain
import ReplayLog.Proofs.SkippedEntries
import ReplayLog.Proofs.StampInstants
import ReplayLog.Proofs.StampParts
import ReplayLog.Proofs.StampPrinting
import ReplayLog.Proofs.StampReading
import ReplayLog.Proofs.StampedStatements
import ReplayLog.Proofs.StoredRecords
import ReplayLog.Proofs.TableRendering
import ReplayLog.Proofs.TableRoundTrip
import ReplayLog.Proofs.TrimmedLines
import ReplayLog.Proofs.Trimming
import ReplayLog.Proofs.Utf8RoundTrip
import ReplayLog.Proofs.WholeEntries
import ReplayLog.Proofs.WriterCalls
import ReplayLog.Record.Basic
import ReplayLog.Record.Layout
import ReplayLog.Record.Rejection
import ReplayLog.Sink.Writer
import ReplayLog.Source.Basic
import ReplayLog.Source.Lines
import ReplayLog.Table.Grammar
import ReplayLog.Table.LeadingSpace
import ReplayLog.Table.Row
import ReplayLog.Text.Basic
import ReplayLog.Text.Blank
import ReplayLog.Text.DecimalDigit
import ReplayLog.Text.Pattern
import ReplayLog.Text.Printable
import ReplayLog.Text.Quoted
import ReplayLog.Text.Terminal
import ReplayLog.Text.Utf8
import ReplayLog.Time.Calendar
import ReplayLog.Time.Offset
import ReplayLog.Time.Stamp
import ReplayLog.Time.Zone
import ReplayLog.Time.ZoneRule
import ReplayLog.Proofs.RequiredFraction
import ReplayLog.Proofs.SieveCalls
import ReplayLog.Proofs.DeliveredSources
