import GridBuchi.Session.Run
import GridBuchi.Proofs.History
import GridBuchi.Proofs.Runs
import GridBuchi.Proofs.Evaluators
import GridBuchi.Proofs.Renaming
import GridBuchi.Proofs.Attempts
import GridBuchi.Proofs.Carriers
import GridBuchi.Proofs.Walk
import GridBuchi.Proofs.FirstGuard
import GridBuchi.Proofs.TrustedLayout
import GridBuchi.Proofs.Literals
import GridBuchi.Proofs.Sessions
import GridBuchi.Proofs.Atomicity
import GridBuchi.Proofs.Tables
import GridBuchi.Proofs.Breaches
import GridBuchi.Proofs.Tracing
import GridBuchi.Proofs.Extension
import GridBuchi.Proofs.Pairs
import GridBuchi.Proofs.Box
import GridBuchi.Proofs.Verdict
import GridBuchi.Proofs.Successors
import GridBuchi.Proofs.Delivery
import GridBuchi.Proofs.Rewriting
import GridBuchi.Proofs.Rendering
import GridBuchi.Proofs.Handles
import GridBuchi.Proofs.Format
import GridBuchi.Proofs.Arming
import GridBuchi.Proofs.Copies
