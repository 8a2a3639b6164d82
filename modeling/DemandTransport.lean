import DemandTransport.Scalar
import DemandTransport.Decimal.Shortest
import DemandTransport.Decimal.Fixed
import DemandTransport.Clock
import DemandTransport.Ident
import DemandTransport.Geo
import DemandTransport.Random
import DemandTransport.Text.Json.Reader
import DemandTransport.Network.Draft
import DemandTransport.Network.LeastTime
import DemandTransport.Text.Quoted
import DemandTransport.Text.Table
import DemandTransport.Energy.Profile
import DemandTransport.Energy.ChargerTable
import DemandTransport.Schedule.InPlace
import DemandTransport.Demand.Registry
import DemandTransport.Demand.Generate
import DemandTransport.Demand.RequestTable
import DemandTransport.Fleet.FleetTable
import DemandTransport.Dispatch.Config
import DemandTransport.Dispatch.Report
import DemandTransport.Dispatch.Projection
import DemandTransport.Dispatch.Insertion
import DemandTransport.Dispatch.Candidates
import DemandTransport.Dispatch.Cycle
import DemandTransport.Dispatch.Charging
import DemandTransport.InputError
import DemandTransport.Execution.Step
import DemandTransport.Simulation.Settings
import DemandTransport.Simulation.Run
import DemandTransport.Taxi.Service
import DemandTransport.Main
import DemandTransport.Text.Json.Writer
import DemandTransport.Proofs.Action
import DemandTransport.Proofs.Schedule.Histories
import DemandTransport.Proofs.Dispatch.Footprint
import DemandTransport.Proofs.Dispatch.Appending
import DemandTransport.Proofs.Dispatch.Retraction
import DemandTransport.Proofs.Dispatch.Commitment
import DemandTransport.Proofs.Dispatch.Writing
import DemandTransport.Proofs.Dispatch.Feasibility
import DemandTransport.Proofs.Dispatch.Reclaiming
import DemandTransport.Proofs.Demand.Lifecycle
import DemandTransport.Proofs.Simulation.Progress
import DemandTransport.Proofs.Simulation.Charging
import DemandTransport.Proofs.Simulation.Feasibility
import DemandTransport.Proofs.Simulation.Punctuality
import DemandTransport.Proofs.Network.LeastTime
import DemandTransport.Proofs.Demand.Histories
import DemandTransport.Proofs.Dispatch.Succession
import DemandTransport.Proofs.Dispatch.Accounting
import DemandTransport.Proofs.Dispatch.Queueing
import DemandTransport.Proofs.Dispatch.Fairness
import DemandTransport.Proofs.Simulation.Precedence
import DemandTransport.Proofs.Schedule.Permanence
import DemandTransport.Proofs.Simulation.Withdrawal
import DemandTransport.Proofs.Execution.Telling
import DemandTransport.Proofs.Execution.Replanning
import DemandTransport.Proofs.Execution.Independence
import DemandTransport.Proofs.Simulation.Delivery
import DemandTransport.Proofs.Demand.Tally
import DemandTransport.Proofs.Dispatch.Report
import DemandTransport.Proofs.Simulation.Counters
import DemandTransport.Proofs.Simulation.Conservation
import DemandTransport.Proofs.Simulation.EnergyBalance
import DemandTransport.Proofs.Dispatch.Choice
import DemandTransport.Proofs.Dispatch.Earliest
import DemandTransport.Proofs.Execution.Settling
import DemandTransport.Proofs.Execution.Tracking
import DemandTransport.Proofs.Dispatch.Planning
import DemandTransport.Proofs.Dispatch.Undoing
import DemandTransport.Proofs.Dispatch.Foresight
import DemandTransport.Proofs.Energy.Inversion
import DemandTransport.Proofs.Energy.Headway
import DemandTransport.Proofs.Dispatch.Targets
import DemandTransport.Proofs.Energy.Denominators
import DemandTransport.Proofs.Energy.Clipping
import DemandTransport.Proofs.Schedule.Instants
import DemandTransport.Proofs.Dispatch.Saturation
import DemandTransport.Proofs.Simulation.Refusals
import DemandTransport.Proofs.Demand.Boarding
import DemandTransport.Proofs.Demand.Ending
import DemandTransport.Proofs.Network.Drafting
import DemandTransport.Proofs.Simulation.Pace
import DemandTransport.Proofs.Dispatch.Parking
import DemandTransport.Schedule.InPlace
