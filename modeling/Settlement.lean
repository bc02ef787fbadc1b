import Settlement.Batch.Basic
import Settlement.Batch.Chunk
import Settlement.Batch.Cost
import Settlement.Batch.Group
import Settlement.Batch.Priority
import Settlement.Batch.Report
import Settlement.Batch.Scatter
import Settlement.Batch.Scripted
import Settlement.Batch.Settler
import Settlement.Call
import Settlement.Claim.Commit
import Settlement.Claim.Encoding
import Settlement.Claim.Registry
import Settlement.Claim.Tree
import Settlement.Commitment
import Settlement.Era
import Settlement.Error
import Settlement.Fee
import Settlement.Fund
import Settlement.Governance.Halt
import Settlement.Governance.Roles
import Settlement.Hash.Sha256
import Settlement.Hash.Sha512
import Settlement.Identity
import Settlement.Ledger.Claim
import Settlement.Ledger.Payout
import Settlement.Ledger.Period
import Settlement.Ledger.Request
import Settlement.Ledger.State
import Settlement.Number.Bytes
import Settlement.Number.Decimal.Basic
import Settlement.Number.Decimal.Quotient
import Settlement.Number.Decimal.Text
import Settlement.Number.Double.Basic
import Settlement.Number.Double.Text
import Settlement.Number.Newton
import Settlement.Number.Rounding
import Settlement.Number.SquareRoot
import Settlement.Number.Word
import Settlement.Operation
import Settlement.Policy
import Settlement.Proofs.Batch.Alignment
import Settlement.Proofs.Batch.Chunking
import Settlement.Proofs.Batch.Classification
import Settlement.Proofs.Batch.Content
import Settlement.Proofs.Batch.Cost
import Settlement.Proofs.Batch.Log
import Settlement.Proofs.Batch.Pointwise
import Settlement.Proofs.Batch.Ranking
import Settlement.Proofs.Batch.Reassembly
import Settlement.Proofs.Batch.Results
import Settlement.Proofs.Batch.Settler
import Settlement.Proofs.Batch.Window
import Settlement.Proofs.Bytes
import Settlement.Proofs.ChunkSize
import Settlement.Proofs.Claim.Completeness
import Settlement.Proofs.Claim.Encoding
import Settlement.Proofs.Claim.Marks
import Settlement.Proofs.Claim.Membership
import Settlement.Proofs.Commitment
import Settlement.Proofs.Decimal.ExactPower
import Settlement.Proofs.Decimal.Fit
import Settlement.Proofs.Decimal.Power
import Settlement.Proofs.Decimal.Product
import Settlement.Proofs.Decimal.Quotient
import Settlement.Proofs.Decimal.Rounded
import Settlement.Proofs.Decimal.Value
import Settlement.Proofs.Digest
import Settlement.Proofs.Era.Call
import Settlement.Proofs.Era.Chronicle
import Settlement.Proofs.Fee
import Settlement.Proofs.Finite
import Settlement.Proofs.Fund.Change
import Settlement.Proofs.Fund.Loss
import Settlement.Proofs.Fund.Operation
import Settlement.Proofs.Gate
import Settlement.Proofs.Governance
import Settlement.Proofs.Hashed
import Settlement.Proofs.Ledger.Admission
import Settlement.Proofs.Ledger.Atomicity
import Settlement.Proofs.Ledger.Backing
import Settlement.Proofs.Ledger.Checks
import Settlement.Proofs.Ledger.ClaimTime
import Settlement.Proofs.Ledger.Conservation
import Settlement.Proofs.Ledger.Control
import Settlement.Proofs.Ledger.Dispute
import Settlement.Proofs.Ledger.Effect
import Settlement.Proofs.Ledger.Event
import Settlement.Proofs.Ledger.Finality
import Settlement.Proofs.Ledger.Frozen
import Settlement.Proofs.Ledger.Halt
import Settlement.Proofs.Ledger.History
import Settlement.Proofs.Ledger.Isolation
import Settlement.Proofs.Ledger.Lifecycle
import Settlement.Proofs.Ledger.LossBound
import Settlement.Proofs.Ledger.Moved
import Settlement.Proofs.Ledger.OneByOne
import Settlement.Proofs.Ledger.PaidOnce
import Settlement.Proofs.Ledger.Payout
import Settlement.Proofs.Ledger.Posting
import Settlement.Proofs.Ledger.Pricing
import Settlement.Proofs.Ledger.Recorder
import Settlement.Proofs.Ledger.Recovery
import Settlement.Proofs.Ledger.Remainder
import Settlement.Proofs.Ledger.Remaining
import Settlement.Proofs.Ledger.Reveal
import Settlement.Proofs.Ledger.Revocation
import Settlement.Proofs.Ledger.Roles
import Settlement.Proofs.Ledger.Settle
import Settlement.Proofs.Ledger.Share
import Settlement.Proofs.Ledger.Slippage
import Settlement.Proofs.Ledger.Solvency
import Settlement.Proofs.Ledger.Splitting
import Settlement.Proofs.Ledger.StrikeReset
import Settlement.Proofs.Ledger.Succession
import Settlement.Proofs.Ledger.Timing
import Settlement.Proofs.Ledger.Total
import Settlement.Proofs.Ledger.Waiting
import Settlement.Proofs.Relay.Arrival
import Settlement.Proofs.Relay.Averages
import Settlement.Proofs.Relay.Books
import Settlement.Proofs.Relay.Counting
import Settlement.Proofs.Relay.Flush
import Settlement.Proofs.Relay.Precedence
import Settlement.Proofs.Relay.Queue
import Settlement.Proofs.Relay.Requeue
import Settlement.Proofs.Relay.Resend
import Settlement.Proofs.Relay.Run
import Settlement.Proofs.Relay.Selection
import Settlement.Proofs.Relay.Seniority
import Settlement.Proofs.Relay.Turn
import Settlement.Proofs.Result
import Settlement.Proofs.Rounding
import Settlement.Proofs.SquareRoot
import Settlement.Proofs.Table
import Settlement.Proofs.Time
import Settlement.Proofs.Token.Contract
import Settlement.Proofs.Token.Free
import Settlement.Proofs.Token.Pool
import Settlement.Proofs.Token.Supply
import Settlement.Proofs.Word
import Settlement.Record.Basic
import Settlement.Record.Ledger
import Settlement.Record.Policy
import Settlement.Record.Relay
import Settlement.Record.Value
import Settlement.Relay.Basic
import Settlement.Relay.Metrics
import Settlement.Relay.Queue
import Settlement.Relay.Selection
import Settlement.Signature.Ed25519
import Settlement.Table
import Settlement.Text.Blank
import Settlement.Text.Json.Basic
import Settlement.Text.Json.Reader
import Settlement.Text.Json.Token
import Settlement.Text.Numeral
import Settlement.Text.Uuid
import Settlement.Time.Basic
import Settlement.Time.Calendar
import Settlement.Time.Text
import Settlement.Token.Basic
import Settlement.Token.Faulty
import Settlement.Token.Pool
