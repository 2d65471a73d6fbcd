import MiniWorld.Lib.Json
import MiniWorld.Lib.Effect
import MiniWorld.Lib.Format
import MiniWorld.Connections.Pair
import MiniWorld.Connections.Conservation
import MiniWorld.Simulation.Retry
import MiniWorld.Simulation.StoredKeys
import MiniWorld.Shell.Serializer
import MiniWorld.Shell.Failures
import MiniWorld.Shell.Order
import MiniWorld.Shell.Scripts
import MiniWorld.Bridged.Names
import MiniWorld.Bridged.Ebtables
import MiniWorld.Bridged.FilterTable
import MiniWorld.Bridged.SingleServer
import MiniWorld.Bridged.LockedOut
import MiniWorld.Bridged.Tunnels
import MiniWorld.Lib.Transition
import MiniWorld.Distributed.Lockstep
import MiniWorld.Distributed.Registration
import MiniWorld.Distributed.Subscriber
import MiniWorld.Distributed.Abort
import MiniWorld.Simulation.InitialQuality
import MiniWorld.Simulation.PartialMatrices
import MiniWorld.Bridged.TapOrder
import MiniWorld.Bridged.Queueing
import MiniWorld.Bridged.Numbers
import MiniWorld.Bridged.Shaping
import MiniWorld.Distributed.Balance
import MiniWorld.Network.LinkQualityModels
import MiniWorld.Provisioning.SameSubnet
import MiniWorld.Provisioning.P2P
import MiniWorld.Provisioning.Checks
import MiniWorld.Simulation.Lifecycle
import MiniWorld.Simulation.EventList
import MiniWorld.Distributed.Refinement
import MiniWorld.Provisioning.Subnets
import MiniWorld.Connections.QualityMatrix
import MiniWorld.Bridged.Handles
import MiniWorld.Lib.Reread
import MiniWorld.Bridged.DeviceNames
import MiniWorld.Lib.Utf8
import MiniWorld.Distributed.Messages
import MiniWorld.Events.EventSystem
import MiniWorld.Events.Queries
import MiniWorld.Events.Updates
import MiniWorld.Shell.LogWriter
import MiniWorld.Repl.Socket
import MiniWorld.Repl.CommandRunner
import MiniWorld.Repl.CheckedExecution
import MiniWorld.Lib.Shlex
import MiniWorld.Lib.PosixPath
import MiniWorld.Emulation.Overlay
import MiniWorld.Connections.JSONEncoder
import MiniWorld.Lib.JsonText
import MiniWorld.Config.Comments
import MiniWorld.Config.CustomizableAttrs
import MiniWorld.Spatial.CoreConfigFileParser
import MiniWorld.Spatial.CoreConfigNodes
import MiniWorld.Spatial.Schedule
import MiniWorld.Spatial.MovementPattern
import MiniWorld.Spatial.MoveOnBigStreets
import MiniWorld.Bridged.TunnelIds
import MiniWorld.Network.MacAddresses
import MiniWorld.Bridged.HubLinks
import MiniWorld.Util.DictUtil
import MiniWorld.Spatial.ArmaNodes
import MiniWorld.Script.TemplateEngine
import MiniWorld.Bridged.KernelLinks
import MiniWorld.Bridged.LinkAddresses
import MiniWorld.Distributed.Simulations
import MiniWorld.Simulation.LinkCalls
import MiniWorld.Bridged.ShapedLinks
