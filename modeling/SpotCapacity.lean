import SpotCapacity.Main
import SpotCapacity.Metrics.Sample
import SpotCapacity.Plan
import SpotCapacity.Proofs.NodeMap.Schedule
import SpotCapacity.Proofs.Plan.Lineage
import SpotCapacity.Proofs.Monitor
import SpotCapacity.Proofs.Plan.Board
import SpotCapacity.Proofs.RateLimit
import SpotCapacity.Proofs.Metrics.Withdrawal
import SpotCapacity.Proofs.Monitor.Ending
import SpotCapacity.Proofs.Oblivious
import SpotCapacity.Proofs.NodeMap.Exclusion
import SpotCapacity.Proofs.Metrics.Replacement
import SpotCapacity.Proofs.Text.Integer
import SpotCapacity.Proofs.Settings.Reading
import SpotCapacity.Proofs.Settings.Loading
import SpotCapacity.Proofs.Admission
import SpotCapacity.Proofs.Settings.History
import SpotCapacity.Proofs.NodeMap.Failure
import SpotCapacity.Proofs.Plan.Addition
import SpotCapacity.Proofs.Metrics.Scrape
import SpotCapacity.Proofs.NodeMap.Threshold
import SpotCapacity.Proofs.Snapshot
import SpotCapacity.Proofs.Number.Decimal
import SpotCapacity.Proofs.Quantity
import SpotCapacity.Proofs.Overcount
import SpotCapacity.Proofs.Outage
import SpotCapacity.Proofs.Startup
