import LiquidityBook.Uint
import LiquidityBook.Digits
import LiquidityBook.Decimal.Basic
import LiquidityBook.Decimal.Reader
import LiquidityBook.Binary64.Text
import LiquidityBook.BinId
import LiquidityBook.Registry
import LiquidityBook.Amount
import LiquidityBook.Price
import LiquidityBook.Distribution
import LiquidityBook.Spread
import LiquidityBook.Allocation
import LiquidityBook.Json.Writer
import LiquidityBook.Json.Reader
import LiquidityBook.Json.Schema
import LiquidityBook.Json.Plain
import LiquidityBook.Contract.Transaction
import LiquidityBook.Wire.Plan
import LiquidityBook.Wire.Message
import LiquidityBook.Contract.Factory
import LiquidityBook.Session.Run
import LiquidityBook.Settings.Load
import LiquidityBook.Settings.Text
import LiquidityBook.Wire.Settings
import LiquidityBook.Settings.Schema
import LiquidityBook.Command.Invocation
import LiquidityBook.Main
import LiquidityBook.Proofs.Session.History
import LiquidityBook.Proofs.Session.SingleFlight
import LiquidityBook.Proofs.Session.Cache
import LiquidityBook.Proofs.Session.Disconnect
import LiquidityBook.Proofs.Session.Submission
import LiquidityBook.Proofs.Session.Provenance
import LiquidityBook.Proofs.Session.Ending
import LiquidityBook.Proofs.Session.Quiet
import LiquidityBook.Proofs.Session.Waiting
import LiquidityBook.Proofs.Session.Ledger
import LiquidityBook.Proofs.Session.Eviction
import LiquidityBook.Proofs.Session.Retention
import LiquidityBook.Proofs.Numbering
import LiquidityBook.Proofs.Wire.RoundTrip
import LiquidityBook.Proofs.Session.Failure
import LiquidityBook.Proofs.Session.Growth
import LiquidityBook.Proofs.Session.Part
import LiquidityBook.Proofs.Session.Isolation
import LiquidityBook.Proofs.Decimal.Value
import LiquidityBook.Proofs.Distribution.Normalize
import LiquidityBook.Proofs.Distribution.Scale
import LiquidityBook.Proofs.Amount.Grammar
import LiquidityBook.Proofs.Amount.RoundTrip
import LiquidityBook.Proofs.Amount.Truncation
import LiquidityBook.Proofs.Requirement
import LiquidityBook.Proofs.Allocation.Slippage
import LiquidityBook.Proofs.Allocation.Side
import LiquidityBook.Proofs.Allocation.Compiled
import LiquidityBook.Proofs.Allocation.Conservation
import LiquidityBook.Proofs.Allocation.Verdict
import LiquidityBook.Proofs.Allocation.Floors
import LiquidityBook.Proofs.Allocation.Resubmission
import LiquidityBook.Proofs.Allocation.Withdrawal
import LiquidityBook.Proofs.Json.Text
import LiquidityBook.Proofs.Amount.Canonical
import LiquidityBook.Proofs.Amount.Precision
import LiquidityBook.Proofs.Decimal.Quotient
import LiquidityBook.Proofs.Spread.Symmetric
import LiquidityBook.Proofs.Spread.Acceptance
import LiquidityBook.Proofs.Decimal.Places
import LiquidityBook.Proofs.Distribution.RoundTrip
import LiquidityBook.Proofs.Registry.Listing
import LiquidityBook.Proofs.Registry.Resolution
import LiquidityBook.Proofs.Binary64.Order
import LiquidityBook.Proofs.Price.Location
import LiquidityBook.Proofs.Contract.Locality
import LiquidityBook.Proofs.Session.Contact
import LiquidityBook.Proofs.Session.Veil
import LiquidityBook.Proofs.Session.Secrecy
import LiquidityBook.Proofs.Command.Outcome
import LiquidityBook.Proofs.Command.Position
import LiquidityBook.Proofs.Command.Default
import LiquidityBook.Proofs.Allocation.Correction
import LiquidityBook.Proofs.BinId.Arithmetic
import LiquidityBook.Proofs.Settings.Layering
