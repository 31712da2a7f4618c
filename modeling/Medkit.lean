import Medkit.Correlation.ActiveClusters
import Medkit.Correlation.Cascade
import Medkit.Correlation.HandedMembers
import Medkit.Correlation.Representatives
import Medkit.Correlation.SymptomDelays
import Medkit.FaultManager.AuditTamper
import Medkit.FaultManager.DebounceBounds
import Medkit.FaultManager.DebounceInvariant
import Medkit.FaultManager.EntityRosbags
import Medkit.FaultManager.EntityThresholds
import Medkit.FaultManager.NodeMuting
import Medkit.FaultManager.RosbagCapture
import Medkit.FaultManager.RosbagQuota
import Medkit.FaultManager.SnapshotCapture
import Medkit.FaultManager.SnapshotRetention
import Medkit.Gateway.AppLinking
import Medkit.Gateway.AssetInventory
import Medkit.Gateway.AuthManager
import Medkit.Gateway.AuthModels
import Medkit.Gateway.BulkDataStore
import Medkit.Gateway.ChangeTriggers
import Medkit.Gateway.DependencyCycles
import Medkit.Gateway.DocumentChecks
import Medkit.Gateway.EntityCache
import Medkit.Gateway.FanOutTargets
import Medkit.Gateway.GoalStatus
import Medkit.Gateway.LockLifecycle
import Medkit.Gateway.LogManager
import Medkit.Gateway.OperationIds
import Medkit.Gateway.OrphanSuppression
import Medkit.Gateway.PathGlob
import Medkit.Gateway.PeerForests
import Medkit.Gateway.PeerNames
import Medkit.Gateway.PeerRetention
import Medkit.Gateway.PeerRouting
import Medkit.Gateway.ResourceNotifier
import Medkit.Gateway.SseStream
import Medkit.Gateway.UpdateRegistration
import Medkit.GraphWatchdog.DepartureCoverage
import Medkit.GraphWatchdog.LifecycleContent
import Medkit.GraphWatchdog.LifecycleDescriptions
import Medkit.GraphWatchdog.LivenessRuns
import Medkit.GraphWatchdog.OrphanPolicy
import Medkit.GraphWatchdog.ParamDriftPolicy
import Medkit.Introspection.BeaconValidator
import Medkit.Introspection.CgroupReader
import Medkit.Introspection.ParamBeacon
import Medkit.Opcua.ActiveStates
import Medkit.Opcua.AddressSpaceBrowser
import Medkit.Opcua.AlarmEvents
import Medkit.Opcua.NodeIds
import Medkit.Opcua.PendingReports
import Medkit.Serialization.JsonSerializer
