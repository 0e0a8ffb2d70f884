import SharedStateAsync.Lib.KeyedMap
import SharedStateAsync.Lib.Machine
import SharedStateAsync.Lib.TopCopy
import SharedStateAsync.Lib.Coroutine
import SharedStateAsync.Lib.ByteOrder
import SharedStateAsync.Basic
import SharedStateAsync.Store.Merge
import SharedStateAsync.Store.OwnEntry
import SharedStateAsync.Gossip.Network
import SharedStateAsync.Gossip.Join
import SharedStateAsync.Gossip.Insert
import SharedStateAsync.Config.Reload
import SharedStateAsync.Config.Race
import SharedStateAsync.Io.Process
import SharedStateAsync.Io.Socket
import SharedStateAsync.Io.Command
import SharedStateAsync.Io.Transfer
import SharedStateAsync.Io.Table
import SharedStateAsync.Io.CommandSafety
import SharedStateAsync.Wire.Message
import SharedStateAsync.Wire.Frame
import SharedStateAsync.Wire.Receive
import SharedStateAsync.Wire.Transfer
import SharedStateAsync.Session.Handlers
import SharedStateAsync.Session.Phases
import SharedStateAsync.Session.Survival
import SharedStateAsync.Session.Hooks
import SharedStateAsync.Session.Agreement
import SharedStateAsync.Daemon.BleachLoop
import SharedStateAsync.Wire.Handshake
import SharedStateAsync.Gossip.Expiry
import SharedStateAsync.Gossip.Provenance
import SharedStateAsync.Session.Repeat
import SharedStateAsync.Lib.MapWeight
import SharedStateAsync.Session.FrameLimit
import SharedStateAsync.Session.ClientHooks
import SharedStateAsync.Session.OwnType
import SharedStateAsync.Config.Registrations
import SharedStateAsync.Lib.Pool
import SharedStateAsync.Daemon.Jobs
import SharedStateAsync.Daemon.Configured
import SharedStateAsync.Daemon.Reference
import SharedStateAsync.Lib.Json
import SharedStateAsync.Store.Changes
import SharedStateAsync.Lib.Signed64
import SharedStateAsync.Store.Overflow
import SharedStateAsync.Daemon.PeerLoop
import SharedStateAsync.Config.Register
import SharedStateAsync.Lib.Dict
import SharedStateAsync.SpecSuite.Model
import SharedStateAsync.SpecSuite.Refinement
import SharedStateAsync.SpecSuite.Network
import SharedStateAsync.SpecSuite.Versions
import SharedStateAsync.SpecSuite.Reboots
import SharedStateAsync.Daemon.HookSystem
import SharedStateAsync.Daemon.HookWaits
import SharedStateAsync.Daemon.HookDeadlock
import SharedStateAsync.Store.Ageing
import SharedStateAsync.Session.Collect
import SharedStateAsync.Config.FirstRegistration
import SharedStateAsync.Lib.Window
import SharedStateAsync.Session.Statistics
import SharedStateAsync.Wire.Bandwidth
import SharedStateAsync.SpecSuite.OwnData
import SharedStateAsync.SpecSuite.Recovery
import SharedStateAsync.Io.Pending
import SharedStateAsync.Io.Termination
import SharedStateAsync.Io.StreamLoops
import SharedStateAsync.Io.EventLoop
import SharedStateAsync.Lib.KernelPool
import SharedStateAsync.Io.Lifetime
import SharedStateAsync.Lib.Guard
import SharedStateAsync.Daemon.Snapshots
import SharedStateAsync.Gossip.Daemons
import SharedStateAsync.SpecSuite.Join
import SharedStateAsync.Lib.HalfDuplex
import SharedStateAsync.Lib.SmallStep
import SharedStateAsync.Session.Turns
import SharedStateAsync.Session.Duplex
import SharedStateAsync.Session.Completion
import SharedStateAsync.Io.Task
import SharedStateAsync.Lib.Family
import SharedStateAsync.Session.StatLock
import SharedStateAsync.Daemon.CommandLine
import SharedStateAsync.SpecSuite.OwnAgeing
