import Fabric.Main
import Fabric.Config.Schema
import Fabric.Device.Delay
import Fabric.Device.Edit
import Fabric.Device.Pack
import Fabric.Device.PinDefault
import Fabric.Device.Placement
import Fabric.Digest
import Fabric.Report.Device
import Fabric.Serial.Diagnostic
import Fabric.Serial.Handle
import Fabric.Serial.Netlist
import Fabric.Proofs.Adjacency
import Fabric.Proofs.AppliedPlan
import Fabric.Proofs.Commutation
import Fabric.Proofs.Connections
import Fabric.Proofs.ControlSets
import Fabric.Proofs.CreatedNames
import Fabric.Proofs.DataLineRoutes
import Fabric.Proofs.DeviceNames
import Fabric.Proofs.FlopControl
import Fabric.Proofs.FreshWires
import Fabric.Proofs.InputPlan
import Fabric.Proofs.NameText
import Fabric.Proofs.NetCount
import Fabric.Proofs.Packing
import Fabric.Proofs.PackagePins
import Fabric.Proofs.PlacementRun
import Fabric.Proofs.PlanCompleteness
import Fabric.Proofs.PortNodes
import Fabric.Proofs.PreRoute
import Fabric.Proofs.Removal
import Fabric.Proofs.RepeatedPreparation
import Fabric.Proofs.ReplacedPorts
import Fabric.Proofs.Reservations
import Fabric.Proofs.SettledPins
import Fabric.Proofs.SiteRun
import Fabric.Proofs.TrackReach
