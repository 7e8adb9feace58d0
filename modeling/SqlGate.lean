import SqlGate.Context.Watch
import SqlGate.Main
import SqlGate.Proofs.Config.Redaction
import SqlGate.Proofs.Config.Target
import SqlGate.Proofs.Context.History
import SqlGate.Proofs.Execution.Replacements
import SqlGate.Proofs.Gateway.Fairness
import SqlGate.Proofs.Guardrail.Acceptance
import SqlGate.Proofs.Guardrail.Turns
import SqlGate.Proofs.Native.Clocks
import SqlGate.Proofs.Native.Intervals
import SqlGate.Proofs.Native.Leaves
import SqlGate.Proofs.Pipeline.Disclosure
import SqlGate.Proofs.Pipeline.Explanations
import SqlGate.Proofs.Pipeline.Independence
import SqlGate.Proofs.Pipeline.Startup
import SqlGate.Proofs.Pipeline.Timeouts
import SqlGate.Proofs.Pipeline.Transparency
import SqlGate.Proofs.Pipeline.Truncation
import SqlGate.Proofs.Pipeline.Waiting
import SqlGate.Proofs.Policy.ReadOnly
import SqlGate.Proofs.Policy.Resetting
import SqlGate.Proofs.Postgres.Elements
import SqlGate.Proofs.QueryResult.Columns
import SqlGate.Proofs.Session.Malformed
import SqlGate.Proofs.Session.Withdrawal
import SqlGate.Proofs.Tool.Arguments
import SqlGate.Proofs.Wire.Documents
import SqlGate.Proofs.Wire.Exact
import SqlGate.Proofs.Wire.Extent
import SqlGate.Proofs.Wire.Framing
import SqlGate.Proofs.Wire.Instants
import SqlGate.Proofs.Wire.Ranges
import SqlGate.Proofs.Wire.TimesOfDay
import SqlGate.Proofs.Wire.Unchecked
