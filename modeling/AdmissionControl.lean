import AdmissionControl.Resolution
import AdmissionControl.Clock
import AdmissionControl.Fault
import AdmissionControl.Notice
import AdmissionControl.Timed
import AdmissionControl.Contract.Emission
import AdmissionControl.Engine
import AdmissionControl.Geometric
import AdmissionControl.Shaper
import AdmissionControl.Throttle
import AdmissionControl.Throttle.Action
import AdmissionControl.Throttle.Offer
import AdmissionControl.Throttle.Clocked
import AdmissionControl.Throttle.Traffic
import AdmissionControl.Throttle.Blueprint
import AdmissionControl.Throttle.Part
import AdmissionControl.Throttle.Request
import AdmissionControl.Throttle.Session
import AdmissionControl.Registry
import AdmissionControl.Registry.Session
import AdmissionControl.Proofs.Resolution.Rounding
import AdmissionControl.Proofs.Resolution.RoundTrips
import AdmissionControl.Proofs.Resolution.MachineWords
import AdmissionControl.Proofs.Engine.VirtualScheduler
import AdmissionControl.Proofs.Throttle.Conjunction
import AdmissionControl.Proofs.Throttle.Delays
import AdmissionControl.Proofs.Throttle.Built
import AdmissionControl.Proofs.Throttle.RateConformance
import AdmissionControl.Proofs.Throttle.Patience
import AdmissionControl.Proofs.Throttle.Dominance
import AdmissionControl.Proofs.Registry.ContractEnforcement
import AdmissionControl.Proofs.Registry.RetryHint
import AdmissionControl.Proofs.Registry.Eviction
import AdmissionControl.Proofs.Registry.FreshStart
import AdmissionControl.Proofs.Registry.Independence
import AdmissionControl.Proofs.Throttle.Burst
import AdmissionControl.Proofs.Throttle.ClockedReset
import AdmissionControl.Proofs.Throttle.PowersOfTwo
import AdmissionControl.Proofs.Throttle.Alarms
import AdmissionControl.Proofs.Throttle.Glances
import AdmissionControl.Proofs.Registry.Declined
import AdmissionControl.Proofs.Throttle.Requests
import AdmissionControl.Proofs.Throttle.Invariants
import AdmissionControl.Proofs.Throttle.Drained
import AdmissionControl.Proofs.Registry.DrainedKeys
import AdmissionControl.Proofs.Contract.Emissions
import AdmissionControl.Proofs.Contract.Faults
import AdmissionControl.Proofs.Engine.SplitEmission
import AdmissionControl.Proofs.Throttle.Nesting
import AdmissionControl.Proofs.Throttle.Overflow
import AdmissionControl.Proofs.Throttle.Expected
import AdmissionControl.Proofs.Throttle.Capacity
import AdmissionControl.Proofs.Throttle.PeakContract
import AdmissionControl.Proofs.Throttle.Rescaling
import AdmissionControl.Proofs.Throttle.Resolving
import AdmissionControl.Proofs.Registry.ClockFailure
