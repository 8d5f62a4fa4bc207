import SoftNic.Bench.Basic
import SoftNic.Bench.Endpoint
import SoftNic.Bench.Hardware
import SoftNic.Bench.Interface
import SoftNic.Bench.Request
import SoftNic.Bench.Transfer
import SoftNic.Bench.Wire
import SoftNic.ConfigError
import SoftNic.Counters
import SoftNic.Dissection.Field
import SoftNic.Dissection.Header
import SoftNic.Dissection.Summary
import SoftNic.Document.Integer
import SoftNic.Document.Quoted
import SoftNic.Document.Reading
import SoftNic.Document.Statement
import SoftNic.Document.Tree
import SoftNic.Event
import SoftNic.Fault
import SoftNic.Frame
import SoftNic.Gate
import SoftNic.Link
import SoftNic.MacAddress
import SoftNic.Parts
import SoftNic.Proofs.AddressText
import SoftNic.Proofs.Admission
import SoftNic.Proofs.Books
import SoftNic.Proofs.BoundedQueue
import SoftNic.Proofs.Bridge
import SoftNic.Proofs.Budgets
import SoftNic.Proofs.CallTrace
import SoftNic.Proofs.Closing
import SoftNic.Proofs.Crossing
import SoftNic.Proofs.Delivery
import SoftNic.Proofs.Denotation
import SoftNic.Proofs.Drainable
import SoftNic.Proofs.EndpointLoop
import SoftNic.Proofs.FalseAlarms
import SoftNic.Proofs.FirstBadLine
import SoftNic.Proofs.Footprint
import SoftNic.Proofs.FrameConservation
import SoftNic.Proofs.FrameEncoding
import SoftNic.Proofs.FrameGrowth
import SoftNic.Proofs.HeaderFields
import SoftNic.Proofs.HeaderSearch
import SoftNic.Proofs.HookOwner
import SoftNic.Proofs.Increments
import SoftNic.Proofs.InsideFrame
import SoftNic.Proofs.IntegerGrammar
import SoftNic.Proofs.InterfaceLimits
import SoftNic.Proofs.Interrupts
import SoftNic.Proofs.KeptParts
import SoftNic.Proofs.Layers
import SoftNic.Proofs.Layout
import SoftNic.Proofs.LinkTokens
import SoftNic.Proofs.Opening
import SoftNic.Proofs.OtherVersion
import SoftNic.Proofs.Ownership
import SoftNic.Proofs.PassLoop
import SoftNic.Proofs.Printing
import SoftNic.Proofs.PrivateSignal
import SoftNic.Proofs.Programs
import SoftNic.Proofs.QuotedKeys
import SoftNic.Proofs.ReadingFault
import SoftNic.Proofs.ReceiveWakeup
import SoftNic.Proofs.RequestInStep
import SoftNic.Proofs.RequestLedger
import SoftNic.Proofs.RoundTrip
import SoftNic.Proofs.RunLoop
import SoftNic.Proofs.SettingsEntries
import SoftNic.Proofs.Spelling
import SoftNic.Proofs.StaleRequest
import SoftNic.Proofs.SummaryForm
import SoftNic.Proofs.Traffic
import SoftNic.Proofs.Transfers
import SoftNic.Proofs.TransmitWakeup
import SoftNic.Proofs.TreeShape
import SoftNic.Proofs.Twins
import SoftNic.Proofs.TwoSides
import SoftNic.Proofs.UsableAddress
import SoftNic.Refusal
import SoftNic.Ring
import SoftNic.Ring.Holds
import SoftNic.Ring.Row
import SoftNic.ScriptedLink
import SoftNic.Session.Action
import SoftNic.Session.Basic
import SoftNic.Session.Command
import SoftNic.Session.Report
import SoftNic.Session.Run
import SoftNic.Settings
import SoftNic.Severity
import SoftNic.Signal
import SoftNic.Store
import SoftNic.Text.Blank
import SoftNic.Text.Hex
import SoftNic.Text.Lines
