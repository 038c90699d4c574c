import WirelessBridge.Lib.Run
import WirelessBridge.Lib.Interleaving
import WirelessBridge.Lib.AttemptBudget
import WirelessBridge.Lib.Exhaustion
import WirelessBridge.Lib.Fifo
import WirelessBridge.Lib.KeyedMap
import WirelessBridge.Lib.OrderedMap
import WirelessBridge.Lib.Performed
import WirelessBridge.Lib.BrokenLoop
import WirelessBridge.Lib.Text
import WirelessBridge.Lib.PropertyTree
import WirelessBridge.Lib.Numeral
import WirelessBridge.Lib.TreeFormat
import WirelessBridge.Lib.Observation
import WirelessBridge.Lib.Cascade
import WirelessBridge.Lib.LockOrder
import WirelessBridge.Components.Component
import WirelessBridge.Components.Manager
import WirelessBridge.Components.Resolution
import WirelessBridge.Components.Registration
import WirelessBridge.Components.FailedCall
import WirelessBridge.Components.Teardown
import WirelessBridge.System.Interfaces
import WirelessBridge.System.ConnMan
import WirelessBridge.System.Reconnect
import WirelessBridge.System.Isolation
import WirelessBridge.System.Exhaustion
import WirelessBridge.System.Executor
import WirelessBridge.System.StopCyclic
import WirelessBridge.System.CyclicIds
import WirelessBridge.System.CyclicRate
import WirelessBridge.System.Overlap
import WirelessBridge.System.FinalHaven
import WirelessBridge.System.Exit
import WirelessBridge.System.Outage
import WirelessBridge.System.WorkerPool
import WirelessBridge.System.Shutdown
import WirelessBridge.Events.Listener
import WirelessBridge.Events.Spared
import WirelessBridge.Mqtt.Connection
import WirelessBridge.Mqtt.Subscription
import WirelessBridge.Bridge.DeviceConfig
import WirelessBridge.Bridge.Router
import WirelessBridge.Bridge.Routing
import WirelessBridge.Bridge.State
import WirelessBridge.Bridge.Watchdog
import WirelessBridge.Bridge.Step
import WirelessBridge.Bridge.Announcement
import WirelessBridge.Bridge.Exhaustion
import WirelessBridge.Bridge.Timing
import WirelessBridge.Bridge.Subscript
import WirelessBridge.Bridge.Unreadable
import WirelessBridge.Bridge.Payload
import WirelessBridge.Bridge.Codec
import WirelessBridge.Bridge.ConfigValues
import WirelessBridge.Bridge.ConfigFormat
import WirelessBridge.Bridge.Locality
import WirelessBridge.Bridge.Race
import WirelessBridge.Bridge.Serialise
import WirelessBridge.Bridge.Delivery
import WirelessBridge.Bridge.Lifetime
import WirelessBridge.Bridge.Destruction
import WirelessBridge.Bridge.Feedback
import WirelessBridge.Bridge.Projection
import WirelessBridge.Bridge.Threads
import WirelessBridge.Bridge.Pipeline
import WirelessBridge.Bridge.Relaying
import WirelessBridge.Launcher.Wiring
import WirelessBridge.Launcher.FirstConnect
import WirelessBridge.Launcher.Locking
import WirelessBridge.Launcher.Containment
