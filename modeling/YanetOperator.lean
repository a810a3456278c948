import YanetOperator.Prog
import YanetOperator.Text
import YanetOperator.Check
import YanetOperator.StrMap
import YanetOperator.Kube
import YanetOperator.Api.Types
import YanetOperator.Api.Validation
import YanetOperator.Api.YanetConfigWebhook
import YanetOperator.Api.YanetWebhook
import YanetOperator.Helpers.Resolve
import YanetOperator.Manifests.Builder
import YanetOperator.Manifests.Listeners
import YanetOperator.Manifests.Service
import YanetOperator.Manifests.PodChecks
import YanetOperator.Manifests.Identity
import YanetOperator.Manifests.Render
import YanetOperator.Controller.Interface
import YanetOperator.Controller.Status
import YanetOperator.Controller.Apply
import YanetOperator.Controller.Prune
import YanetOperator.Controller.Placement
import YanetOperator.Controller.Exclusive
import YanetOperator.Controller.Preflight
import YanetOperator.Controller.YanetReconciler
import YanetOperator.Controller.SharedServices
import YanetOperator.Lemmas.Shape
import YanetOperator.Lemmas.PodChecks
import YanetOperator.Lemmas.Identity
import YanetOperator.Lemmas.Names
import YanetOperator.Lemmas.Render
import YanetOperator.Lemmas.Resolve
import YanetOperator.Theorems.Rendering
import YanetOperator.Lemmas.Admission
import YanetOperator.Lemmas.Ports
import YanetOperator.Lemmas.Services
import YanetOperator.Theorems.Routing
import YanetOperator.Lemmas.Preflight
import YanetOperator.Theorems.DeploymentNames
import YanetOperator.Cluster.Store
import YanetOperator.Lemmas.SharedRun
import YanetOperator.Theorems.SharedServices
import YanetOperator.Theorems.ListingOrder
import YanetOperator.Registry
import YanetOperator.Lemmas.SharedPlan
import YanetOperator.Lemmas.Trace
import YanetOperator.Lemmas.PassTrace
import YanetOperator.Controller.Throttle
import YanetOperator.Theorems.UpdateWindow
import YanetOperator.Lemmas.Metadata
import YanetOperator.Theorems.ManagedMetadata
import YanetOperator.Lemmas.Conditions
import YanetOperator.Theorems.StatusAtRest
import YanetOperator.Lemmas.Run
import YanetOperator.Lemmas.Exclusive
import YanetOperator.Theorems.NodeOwnership
import YanetOperator.Cluster.Recording
import YanetOperator.Cluster.Server
import YanetOperator.Theorems.Convergence
import YanetOperator.Lemmas.Composition
import YanetOperator.Theorems.SidecarComposition
import YanetOperator.Lemmas.Resolvable
import YanetOperator.Theorems.Admission
import YanetOperator.Theorems.SharedPrune
import YanetOperator.Lemmas.Plan
import YanetOperator.Lemmas.Frame
import YanetOperator.Theorems.PlanCompleteness
import YanetOperator.Lemmas.ReportOnly
import YanetOperator.Lemmas.Ready
import YanetOperator.Lemmas.Overrides
import YanetOperator.Theorems.DataplaneNetworks
import YanetOperator.Theorems.Hugepages
import YanetOperator.Theorems.NativeSidecars
import YanetOperator.Theorems.PodPorts
import YanetOperator.Theorems.SharedServiceUpdate
import YanetOperator.Lemmas.Passes
import YanetOperator.Theorems.InstallationOverrides
import YanetOperator.Theorems.Draining
import YanetOperator.Theorems.RuntimeEndpoints
import YanetOperator.Lemmas.Unpatched
import YanetOperator.Theorems.InlineConfigs
import YanetOperator.Theorems.SidecarPatches
import YanetOperator.Lemmas.Accepted
import YanetOperator.Lemmas.FreeComponents
import YanetOperator.Theorems.PatchFree
import YanetOperator.Lemmas.Applying
import YanetOperator.Lemmas.Modes
import YanetOperator.Theorems.ReportOnlyMode
import YanetOperator.Lemmas.SharedTrace
import YanetOperator.Cluster.World
import YanetOperator.Lemmas.Ownership
import YanetOperator.Lemmas.Planned
import YanetOperator.Theorems.OwnershipSafety
import YanetOperator.Cluster.Manager
import YanetOperator.Lemmas.Running
import YanetOperator.Theorems.GlobalStop
import YanetOperator.Cluster.Fleet
import YanetOperator.Lemmas.Tenancy
import YanetOperator.Theorems.NodeExclusivity
import YanetOperator.Cluster.Rollout
import YanetOperator.Lemmas.Rollout
import YanetOperator.Theorems.ConfigMapSafety
import YanetOperator.Cluster.Supply
import YanetOperator.Lemmas.Supply
import YanetOperator.Theorems.PlacementSafety
import YanetOperator.Settle
import YanetOperator.Lemmas.Realize
import YanetOperator.Lemmas.Converging
import YanetOperator.Lemmas.Sweep
import YanetOperator.Lemmas.Resting
import YanetOperator.Theorems.PassConvergence
