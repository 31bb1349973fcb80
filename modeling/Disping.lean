import Disping.Transition.Runs
import Disping.Arithmetic.BitPolynomial
import Disping.Arithmetic.ShiftRegister
import Disping.Arithmetic.BitSets
import Disping.Arithmetic.DecayingAverage
import Disping.Arithmetic.DiscountedSum
import Disping.Arithmetic.EndAroundCarry
import Disping.Arithmetic.PopulationVariance
import Disping.Arithmetic.SortedHead
import Disping.Hive.LetterCase
import Disping.Hive.KeyNames
import Disping.Hive.Overlay
import Disping.Hive.Registry
import Disping.Hive.Writing
import Disping.Hive.Deleting
import Disping.Text.Expression
import Disping.Text.Pattern
import Disping.Text.KeyValues
import Disping.Text.Integers
import Disping.Text.Matching
import Disping.Text.PairEditing
import Disping.Text.NamedSearch
import Disping.Text.Segments
import Disping.Text.PairSegments
import Disping.Text.PlainPattern
import Disping.Text.Counters
import Disping.Text.CounterEdits
import Disping.Text.SetSegments
import Disping.Text.SegmentEdits
import Disping.Text.Entries
import Disping.Text.Turns
import Disping.Text.Marks
import Disping.Text.SegmentMarks
import Disping.Machine.State
import Disping.Machine.Memory
import Disping.Machine.Instruction
import Disping.Machine.Rules
import Disping.Machine.CarryChain
import Disping.Machine.Convention
import Disping.Machine.Extensions
import Disping.Machine.CrcInstruction
import Disping.Assembly.ChecksumListing
import Disping.Assembly.MemoryListing
import Disping.Assembly.NumericListing
import Disping.Assembly.CalleeSaved
import Disping.Assembly.ChecksumValue
import Disping.Assembly.ChecksumRuns
import Disping.Assembly.WideBlocks
import Disping.Assembly.ChecksumAgreement
import Disping.Assembly.Crc32Runs
import Disping.Assembly.MemzeroRuns
import Disping.Assembly.MemzeroEffect
import Disping.Assembly.Dispatch
import Disping.Assembly.SupportedRuns
import Disping.Assembly.MemcpyRuns
import Disping.Assembly.MemcpyEffect
import Disping.Assembly.PingStats
import Disping.Assembly.Rfc1071
import Disping.Assembly.ReceiverCheck
import Disping.Assembly.ScalarChecksum
import Disping.Telemetry.ScalarPass
import Disping.Telemetry.PingMonitor
import Disping.Telemetry.StopRequest
import Disping.Telemetry.Sparkline
import Disping.Relay.ForwardLoop
import Disping.Relay.ForwardLatency
import Disping.Relay.Lifecycle
import Disping.Relay.Network
import Disping.Host.World
import Disping.Relay.MenuPorts
import Disping.Host.RegistryUtil
import Disping.Host.Console
import Disping.Host.Effects
import Disping.Host.StringValues
import Disping.Host.Ensures
import Disping.Tweaks.Settings
import Disping.Tweaks.AdapterOptimizer
import Disping.Tweaks.Attempts
import Disping.Tweaks.NetworkOptimizer
import Disping.Tweaks.Footing
import Disping.Tweaks.QoSOptimizer
import Disping.Tweaks.SystemLatencyOptimizer
import Disping.Tweaks.Tables
import Disping.Tweaks.NetworkReport
import Disping.Rollback.BackupManager
import Disping.Rollback.Restore
import Disping.Rollback.Leftovers
import Disping.Rollback.PolicyCycle
import Disping.Rollback.Script
import Disping.Rollback.Snapshot
import Disping.Rollback.BackupText
import Disping.Shield.VpnGuard
import Disping.Shield.WorkingSets
import Disping.Links.MtuDiscovery
import Disping.Links.ActiveAdapters
import Disping.Links.DnsOptimizer
import Disping.Links.FastestDns
import Disping.Links.MtuOptimizer
import Disping.Links.CommandQuoting
import Disping.Links.DnsQuery
import Disping.Links.Protection
import Disping.Timer.Resolution
import Disping.Timer.Balance
import Disping.Timer.Sessions
import Disping.Healing.LoginUsers
import Disping.Healing.BlockEdits
import Disping.Healing.SettledBlock
import Disping.Healing.AccountTree
import Disping.Healing.EditedTokens
import Disping.Healing.MarkedFile
import Disping.Healing.AccountRepair
import Disping.Healing.LastLogin
import Disping.Healing.AccountMatch
import Disping.Healing.RepeatedRepair
import Disping.Healing.FileWriting
import Disping.Healing.LocalState
import Disping.Healing.PlatformHealer
import Disping.Hardware.GamingAffinity
import Disping.Hardware.CoreTopology
import Disping.Assembly.CrcDetection
import Disping.Assembly.ChecksumLaws
import Disping.Timer.Daemon
import Disping.Program.Footprint
import Disping.Program.Sessions
import Disping.Program.Status
import Disping.Program.GamingProfile
import Disping.Telemetry.MultipleTargets
import Disping.Telemetry.SharedRequest
import Disping.Program.Comparison
import Disping.Program.Menu
import Disping.Program.RegistryStore
import Disping.Shield.GameBoost
import Disping.Hardware.DetectedProfile
import Disping.Assembly.SpinWait
import Disping.Program.CommandLine
import Disping.Program.Surroundings
import Disping.Shield.ScanReport
import Disping.Relay.StopReturns
import Disping.Healing.HealingFootprint
import Disping.Healing.HealedFiles
import Disping.Healing.HealingSettles
