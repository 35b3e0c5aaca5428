import AirTrace.Clock
import AirTrace.Coding.Table
import AirTrace.Crc.ShiftRegister
import AirTrace.Crc.Word
import AirTrace.Frame.OnAir
import AirTrace.Main
import AirTrace.Octets.Number
import AirTrace.Pipeline
import AirTrace.Program
import AirTrace.Time.Exact
import AirTrace.Whitening.ShiftRegister
import AirTrace.Whitening.Table
import AirTrace.Proofs.Accounts
import AirTrace.Proofs.Bounds
import AirTrace.Proofs.Captures
import AirTrace.Proofs.Confirmation
import AirTrace.Proofs.Convolution
import AirTrace.Proofs.Correction
import AirTrace.Proofs.Decoding
import AirTrace.Proofs.Detection
import AirTrace.Proofs.Effects
import AirTrace.Proofs.Extended
import AirTrace.Proofs.Fields
import AirTrace.Proofs.Firmware
import AirTrace.Proofs.Following
import AirTrace.Proofs.Framing
import AirTrace.Proofs.Grammar
import AirTrace.Proofs.Lateness
import AirTrace.Proofs.Links
import AirTrace.Proofs.Lossless
import AirTrace.Proofs.Merging
import AirTrace.Proofs.Messages
import AirTrace.Proofs.OnAir
import AirTrace.Proofs.Parts
import AirTrace.Proofs.Pattern
import AirTrace.Proofs.Pipeline
import AirTrace.Proofs.Redecoding
import AirTrace.Proofs.Reflection
import AirTrace.Proofs.Replays
import AirTrace.Proofs.Residue
import AirTrace.Proofs.Rewriting
import AirTrace.Proofs.Sequence
import AirTrace.Proofs.Symbols
import AirTrace.Proofs.Tables
import AirTrace.Proofs.Taps
import AirTrace.Proofs.TimeShift
import AirTrace.Proofs.TrueTime
import AirTrace.Proofs.Truncation
import AirTrace.Proofs.Verdicts
import AirTrace.Proofs.Whitening
import AirTrace.Proofs.Windows
