import ChainDecode.Main
import ChainDecode.Abi.Entry
import ChainDecode.Json.Time
import ChainDecode.Proofs.Abi.Precedence
import ChainDecode.Proofs.Bytes
import ChainDecode.Proofs.Carbon.AddressRecovery
import ChainDecode.Proofs.Carbon.ArgumentParts
import ChainDecode.Proofs.Carbon.ArgumentRoundTrip
import ChainDecode.Proofs.Carbon.BareMessage
import ChainDecode.Proofs.Carbon.Bounds
import ChainDecode.Proofs.Carbon.CallWarning
import ChainDecode.Proofs.Carbon.Containment
import ChainDecode.Proofs.Carbon.Delimiting
import ChainDecode.Proofs.Carbon.Envelope
import ChainDecode.Proofs.Carbon.Wire
import ChainDecode.Proofs.Delimiting
import ChainDecode.Proofs.Event.Content
import ChainDecode.Proofs.Event.Kinds
import ChainDecode.Proofs.Event.Reporting
import ChainDecode.Proofs.Event.RoundTrip
import ChainDecode.Proofs.Number.Numeral
import ChainDecode.Proofs.Outcome.Delimiting
import ChainDecode.Proofs.Outcome.Dispatch
import ChainDecode.Proofs.Outcome.Totality
import ChainDecode.Proofs.Reading
import ChainDecode.Proofs.Rom.Causes
import ChainDecode.Proofs.Rom.RoundTrip
import ChainDecode.Proofs.Text.Visible
import ChainDecode.Proofs.Vm.Assembly
import ChainDecode.Proofs.Vm.CallHistory
import ChainDecode.Proofs.Vm.Calls
import ChainDecode.Proofs.Vm.Coverage
import ChainDecode.Proofs.Vm.Framed
import ChainDecode.Proofs.Vm.Limits
import ChainDecode.Proofs.Vm.Replay
import ChainDecode.Proofs.Vm.RoundTrip
import ChainDecode.Proofs.Vm.Wire
import ChainDecode.Proofs.Carbon.Nesting
import ChainDecode.Proofs.Vm.Independence
import ChainDecode.Proofs.Vm.Provenance
import ChainDecode.Proofs.Carbon.LookAhead
import ChainDecode.Proofs.Carbon.Growth
import ChainDecode.Proofs.Carbon.CallViews
import ChainDecode.Proofs.DepthLimits
import ChainDecode.Proofs.Outcome.Attempts
import ChainDecode.Proofs.CanonicalAddress
import ChainDecode.Proofs.Rom.Selection
import ChainDecode.Proofs.CursorInvariant
import ChainDecode.Proofs.Outcome.NodeAnswers
import ChainDecode.Proofs.AddressConversion
import ChainDecode.Proofs.Carbon.BaseTypes
import ChainDecode.Proofs.Carbon.DynamicRoundTrip
import ChainDecode.Proofs.Carbon.ArgumentPrefix
import ChainDecode.Proofs.Carbon.CutTail
import ChainDecode.Proofs.Rom.Crown
import ChainDecode.Proofs.Rom.CreationTime
import ChainDecode.Proofs.Rom.LateTimes
import ChainDecode.Proofs.FailedReads
import ChainDecode.Proofs.Abi.Appending
import ChainDecode.Proofs.Abi.Repetition
import ChainDecode.Proofs.Abi.Building
import ChainDecode.Proofs.Abi.FileFaults
import ChainDecode.Proofs.Event.Hints
import ChainDecode.Proofs.Text.Hexadecimal
