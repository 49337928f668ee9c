import NetFT.Client.Delivery
import NetFT.Client.Timeout
import NetFT.Client.Reordering
import NetFT.Plugin.Activation
import NetFT.Client.WorkerSafety
import NetFT.Wire
import NetFT.Client.Survival
import NetFT.Client.Storm
import NetFT.Plugin.Invalidate
import NetFT.Plugin.Diagnostics
import NetFT.Client.Conservation
import NetFT.Client.Revision
import NetFT.Client.FirstSample
import NetFT.Client.Rollback
import NetFT.Client.FailStop
import NetFT.XmlAccepts
import NetFT.Client.LateLow
import NetFT.Plugin.Names
import NetFT.Ros.EventWindow
import NetFT.Client.FaultReport
import NetFT.Client.Backoff
import NetFT.CheckMain
import NetFT.Client.RateWindow
import NetFT.Client.CommandStream
import NetFT.Client.LostWakeup
import NetFT.Client.Rebaseline
import NetFT.Discovery
import NetFT.Ros.StatusText
import NetFT.Client.Deadlock
import NetFT.Client.SocketUse
import NetFT.Client.Counters
import NetFT.Client.Refinement
import NetFT.Plugin.Teardown
import NetFT.Library.Decimal
import NetFT.SensorPage
import NetFT.CheckReport
import NetFT.SensorDiscovery
import NetFT.Descriptors
import NetFT.Client.DeferredDestroyer
import NetFT.Ros.AdapterConfig
import NetFT.Plugin.Parameters
import NetFT.CheckOptions
