import VaultCovenant.Main
import VaultCovenant.Proofs.Sequencing
import VaultCovenant.Proofs.Taproot.Opening
import VaultCovenant.Proofs.Taproot.Assembly
import VaultCovenant.Proofs.Transaction.Witnesses
import VaultCovenant.Proofs.Vault.Output
import VaultCovenant.Proofs.Text.Abbreviation
import VaultCovenant.Proofs.Batch.Build
import VaultCovenant.Proofs.Trigger.Layout
import VaultCovenant.Proofs.Trigger.Build
import VaultCovenant.Proofs.Session
import VaultCovenant.Proofs.Withdrawal
import VaultCovenant.Proofs.FirstSeen
import VaultCovenant.Proofs.Recovery.Sources
import VaultCovenant.Proofs.Recovery.Outputs
import VaultCovenant.Proofs.Recovery.Build
import VaultCovenant.Proofs.Spending
import VaultCovenant.Proofs.Signing
import VaultCovenant.Proofs.Batch.Compatibility
import VaultCovenant.Proofs.Recovery.Sweep
import VaultCovenant.Proofs.Hash.Collision
import VaultCovenant.Proofs.Hash.Numerals
import VaultCovenant.Proofs.Curve.Numerals
import VaultCovenant.Proofs.Transaction.Reading
import VaultCovenant.Proofs.Transaction.Template
import VaultCovenant.Proofs.Script.Instruction
import VaultCovenant.Proofs.Leaves
import VaultCovenant.Proofs.Withdrawal.Commitment
import VaultCovenant.Proofs.Binding
import VaultCovenant.Proofs.Batch.Balance
import VaultCovenant.Proofs.Trigger.Conservation
import VaultCovenant.Proofs.Script.Minimal
import VaultCovenant.Proofs.Recovery.Triggered
import VaultCovenant.Proofs.Recovery.Check
import VaultCovenant.Proofs.Plan
import VaultCovenant.Proofs.Plan.Report
import VaultCovenant.Proofs.Recovery.Shared
import VaultCovenant.Proofs.Script.Reading
import VaultCovenant.Proofs.Script.Machine
import VaultCovenant.Proofs.Execution
import VaultCovenant.Proofs.Faults.Batch
import VaultCovenant.Proofs.Faults.Trigger
import VaultCovenant.Proofs.Faults.Recovery
import VaultCovenant.Proofs.Faults
import VaultCovenant.Proofs.Lifecycle
import VaultCovenant.Proofs.Scenario.History
import VaultCovenant.Proofs.Scenario.Orderly
import VaultCovenant.Proofs.Trigger.Positions
import VaultCovenant.Proofs.Refusals
import VaultCovenant.Proofs.Scenario.Evidence
import VaultCovenant.Proofs.Scenario.Watch
import VaultCovenant.Proofs.Scenario.Rules
import VaultCovenant.Proofs.Scenario.Locking
import VaultCovenant.Proofs.Scenario.Courses
import VaultCovenant.Proofs.Scenario.Reports
import VaultCovenant.Proofs.Recovery.Several
import VaultCovenant.Proofs.Scenario.OutputKeys
import VaultCovenant.Proofs.Scenario.Delivery
import VaultCovenant.Proofs.Scenario.Builders
import VaultCovenant.Proofs.Scenario.Completion
import VaultCovenant.Proofs.Scenario.Blame
import VaultCovenant.Proofs.Scenario.Obliging
import VaultCovenant.Proofs.Scenario.FullRun
import VaultCovenant.Proofs.Isolation.Batch
import VaultCovenant.Proofs.Isolation.Spending
import VaultCovenant.Proofs.Isolation.Recovery
import VaultCovenant.Proofs.Batch.Outcome
import VaultCovenant.Proofs.Recovery.Outcome
import VaultCovenant.Proofs.Paying.Trigger
import VaultCovenant.Proofs.Paying.Recovery
import VaultCovenant.Proofs.SpendsOnce
import VaultCovenant.Proofs.Recovery.Reordering
import VaultCovenant.Proofs.Script.Pushing
import VaultCovenant.Proofs.Withdrawal.Timelock
import VaultCovenant.Proofs.Amount.Shares
import VaultCovenant.Proofs.Scenario.Targets
import VaultCovenant.Proofs.Scenario.Classification
import VaultCovenant.Proofs.Trigger.Outcome
import VaultCovenant.Proofs.Taproot.Depths
import VaultCovenant.Proofs.Room
