import UniBus.Core.JettyClosing
import UniBus.DataPlane.AtMostOnce
import UniBus.Managed.Exclusion
import UniBus.Managed.Usage
import UniBus.Managed.Visibility
import UniBus.DataPlane.Layout
import UniBus.Transport.Credits
import UniBus.Control.PeerChanges
import UniBus.DataPlane.RequestCleanup
import UniBus.DataPlane.DeadSessions
import UniBus.DataPlane.AnsweredRequests
import UniBus.Managed.Acquisition
import UniBus.Managed.Guards
import UniBus.Control.ConcurrentDeregistration
import UniBus.Control.Convergence
import UniBus.DataPlane.Completions
import UniBus.Managed.HomeRegions
import UniBus.Managed.SharedCopies
import UniBus.Kv.Slots
import UniBus.DataPlane.Revocation
import UniBus.Managed.Bounds
import UniBus.DataPlane.Disconnection
import UniBus.DataPlane.FrameLengths
import UniBus.Transport.Congestion
import UniBus.Transport.AckCounters
import UniBus.Transport.AckContents
import UniBus.Core.Npu
import UniBus.Transport.ResponseLru
import UniBus.Managed.PoolEviction
import UniBus.Managed.PoolAllocation
import UniBus.Control.Resolution
import UniBus.Core.DrainTimeout
import UniBus.DataPlane.References
import UniBus.DataPlane.PathMtu
import UniBus.Core.AddrText
import UniBus.Managed.Selection
import UniBus.Core.DefaultJetty
import UniBus.Control.ReadLoop
