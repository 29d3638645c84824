import ContainerNet.Main
import ContainerNet.Proofs.Address.Text
import ContainerNet.Proofs.Address.Text6
import ContainerNet.Proofs.Bandwidth.Grammar
import ContainerNet.Proofs.Bandwidth.RoundTrip
import ContainerNet.Proofs.Configurator.ControlPlane
import ContainerNet.Proofs.Configurator.FilterSurvival
import ContainerNet.Proofs.Configurator.Forgetting
import ContainerNet.Proofs.Configurator.History
import ContainerNet.Proofs.Configurator.KernelHandle
import ContainerNet.Proofs.Configurator.Objections
import ContainerNet.Proofs.Configurator.Outstanding
import ContainerNet.Proofs.Configurator.Reapplying
import ContainerNet.Proofs.Configurator.Reconciliation
import ContainerNet.Proofs.Configurator.Recovery
import ContainerNet.Proofs.Configurator.Steps
import ContainerNet.Proofs.Configurator.Uplink
import ContainerNet.Proofs.Json.Canonical
import ContainerNet.Proofs.Json.Fields
import ContainerNet.Proofs.Json.Nesting
import ContainerNet.Proofs.Json.Reading
import ContainerNet.Proofs.Json.Records
import ContainerNet.Proofs.Json.Tokens
import ContainerNet.Proofs.Plugin.Chains
import ContainerNet.Proofs.Plugin.Codec
import ContainerNet.Proofs.Plugin.Ipam
import ContainerNet.Proofs.Plugin.Stdin
import ContainerNet.Proofs.Retry.Attempts
import ContainerNet.Proofs.Retry.Cancellation
import ContainerNet.Proofs.Retry.Deadline
import ContainerNet.Proofs.Route.ControlPlane
import ContainerNet.Proofs.Route.Filters
import ContainerNet.Proofs.Route.FirstMatch
import ContainerNet.Proofs.Route.PolicyMeaning
import ContainerNet.Proofs.Sidecar.Handles
import ContainerNet.Proofs.Sidecar.Independence
import ContainerNet.Proofs.Sidecar.Labels
import ContainerNet.Proofs.Sidecar.Lifetimes
import ContainerNet.Proofs.Sidecar.Order
import ContainerNet.Proofs.Sidecar.Progress
import ContainerNet.Proofs.Sidecar.Receipts
import ContainerNet.Proofs.Sidecar.Refusals
import ContainerNet.Proofs.Sidecar.Serving
import ContainerNet.Proofs.Sidecar.Staffs
import ContainerNet.Proofs.Sidecar.Succession
import ContainerNet.Proofs.Sidecar.Tasks
import ContainerNet.Proofs.Sidecar.Turns
import ContainerNet.Proofs.Sidecar.Validity
import ContainerNet.Proofs.Text.Blank
import ContainerNet.Proofs.Text.Utf8
import ContainerNet.Proofs.TrafficControl.Emulation
import ContainerNet.Proofs.TrafficControl.Numbering
import ContainerNet.Proofs.TrafficControl.Shaping
import ContainerNet.Proofs.Wire.Arrangement
import ContainerNet.Proofs.Wire.Config
import ContainerNet.Proofs.Wire.Event
import ContainerNet.Proofs.Wire.Identifier
import ContainerNet.Retry.Timeline
import ContainerNet.Sidecar.Crew
import ContainerNet.Simulation.Programs
