import KernelTables.Text.Quoted
import KernelTables.Report.Run
import KernelTables.Config
import KernelTables.Main
import KernelTables.Text.Utf8.RoundTrip
import KernelTables.Text.Numeral.RoundTrip
import KernelTables.Proofs.Text.Utf8
import KernelTables.Proofs.Memory
import KernelTables.Proofs.Field
import KernelTables.Proofs.Line
import KernelTables.Proofs.Stream
import KernelTables.Proofs.Report.Effect
import KernelTables.Proofs.Report.FileHistory
import KernelTables.Proofs.Symbol.Grammar
import KernelTables.Proofs.Symbol.Reader
import KernelTables.Proofs.Symbol.Kind
import KernelTables.Proofs.Symbol.Boundary
import KernelTables.Proofs.Record
import KernelTables.Proofs.Record.Columns
import KernelTables.Proofs.Text.Words
import KernelTables.Proofs.Text.Separator
import KernelTables.Proofs.Report.Symbol
import KernelTables.Proofs.Proc.Status
import KernelTables.Proofs.Report.Task
import KernelTables.Proofs.Proc.LastLine
import KernelTables.Proofs.Proc.Anonymous
import KernelTables.Proofs.Report.FullSink
import KernelTables.Proofs.Report.TaskHistory
import KernelTables.Proofs.Report.Identity
import KernelTables.Proofs.FileSystem
import KernelTables.Proofs.Report.File
import KernelTables.Proofs.Proc.Listing
import KernelTables.Proofs.Report.Census
import KernelTables.Proofs.Report.Separation
import KernelTables.Proofs.Report.Session
import KernelTables.Proofs.Symbol.Iterator
import KernelTables.Proofs.Symbol.Splitting
import KernelTables.Proofs.Report.Hidden
import KernelTables.Proofs.Report.SymbolHistory
import KernelTables.Proofs.Report.Capacity
import KernelTables.Proofs.Report.Counters
import KernelTables.Proofs.Report.Addition
import KernelTables.Proofs.Report.Tally
import KernelTables.Proofs.Symbol.RoundTrip
import KernelTables.Proofs.Output
import KernelTables.Proofs.StandsStill
import KernelTables.Proofs.Report.Delivery
import KernelTables.Proofs.CommandLine
import KernelTables.Proofs.Program
