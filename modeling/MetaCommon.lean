import MetaCommon.Kcs.Driver
import MetaCommon.Kcs.Reaction
import MetaCommon.Kcs.Request
import MetaCommon.Kcs.FfujCommands
import MetaCommon.Kcs.Transaction
import MetaCommon.Kcs.Response
import MetaCommon.Kcs.ReadPhase
import MetaCommon.Kcs.SecurityMode
import MetaCommon.Kcs.Status
import MetaCommon.Mdrv2.Directory
import MetaCommon.Mdrv2.Lock
import MetaCommon.Mdrv2.Commands
import MetaCommon.Mdrv2.LockTable
import MetaCommon.Mdrv2.DataStart
import MetaCommon.Mdrv2.LockStep
import MetaCommon.Mdrv2.Timer
import MetaCommon.Mdrv2.Exclusion
import MetaCommon.Mdrv2.Handles
import MetaCommon.Mdrv2.Atomicity
import MetaCommon.Mdrv2.Storage
import MetaCommon.Mdrv2.Transfer
import MetaCommon.Lib.NodeMap
import MetaCommon.Tpmi.Cache
import MetaCommon.Tpmi.Interface
import MetaCommon.Tpmi.Records
import MetaCommon.Tpmi.Currency
import MetaCommon.Tpmi.Completions
import MetaCommon.Gic.Dispatch
import MetaCommon.Gic.EndOfInterrupt
import MetaCommon.PeciI3c.Handles
import MetaCommon.PeciI3c.Table
import MetaCommon.Lib.Statements
import MetaCommon.SlotIpmb.Request
import MetaCommon.SlotIpmb.Outstanding
import MetaCommon.LanOem.Hostname
import MetaCommon.LanOem.RoundTrip
import MetaCommon.SecurePasswd.Stores
import MetaCommon.DbusAdc.Daemon
import MetaCommon.SecurePasswd.Agreement
import MetaCommon.DbusAdc.NullEntries
import MetaCommon.AstTimer.Independence
import MetaCommon.DbusAdc.StartOrder
import MetaCommon.CpuSensor.UdevEvents
import MetaCommon.CpuSensor.Polling
import MetaCommon.NodeManager.ByMember
import MetaCommon.NodeManager.Layout
import MetaCommon.NodeManager.PatchErrors
import MetaCommon.PfrImage.Outcomes
import MetaCommon.AdcSensor.AllOrders
import MetaCommon.Kafka.Stored
import MetaCommon.Kcs.WritePhase
import MetaCommon.Mdrv2.DataLength
import MetaCommon.Tpmi.WakeOnPeci
import MetaCommon.PeciI3c.OpenedFor
import MetaCommon.UpdateService.Reservation
import MetaCommon.Network.Privileges
import MetaCommon.SoftwareManager.Attempts
import MetaCommon.Espi.Settled
import MetaCommon.EventService.Linked
import MetaCommon.EventService.Ownership
import MetaCommon.Led.Uclass
import MetaCommon.Led.Period
import MetaCommon.Tpmi.Stoi
import MetaCommon.Tpmi.DecodePath
import MetaCommon.DbusAdc.CpuPresence
import MetaCommon.Lib.Fallible
import MetaCommon.Sst.Registers
import MetaCommon.Sst.CoreLists
import MetaCommon.Sst.SetAllInstances
import MetaCommon.LanOem.Transfers
import MetaCommon.CpuSensor.Thresholds
import MetaCommon.CpuSensor.Discovery
import MetaCommon.PfrImage.PldmPackage
import MetaCommon.DbusAdc.ChangeRounds
import MetaCommon.DbusAdc.ChangeReplies
import MetaCommon.DbusAdc.ChangeTracking
import MetaCommon.Lib.RegisterFields
import MetaCommon.Pwm.Aspeed
import MetaCommon.Pwm.Approximation
import MetaCommon.Lib.Words
import MetaCommon.Bootargs.Update
import MetaCommon.IoApp.Access
import MetaCommon.IoApp.Bounds
import MetaCommon.IoApp.Main
import MetaCommon.IoApp.Options
import MetaCommon.Lib.JsonTree
import MetaCommon.Kafka.Representation
import MetaCommon.NodeManager.PatchPlaces
import MetaCommon.NodeManager.Policies
import MetaCommon.NodeManager.PolicyUpdates
import MetaCommon.Lib.Regex
import MetaCommon.NodeManager.ObjectPaths
import MetaCommon.BiosConfig.Settings
import MetaCommon.BiosConfig.Requests
import MetaCommon.PidControl.BuildSensors
import MetaCommon.Lib.Control
import MetaCommon.PeciPcie.BusMap
import MetaCommon.Sdbusplus.Filename
import MetaCommon.Lib.FileTree
import MetaCommon.PreinitMounts.Restore
import MetaCommon.BiosXml.Literals
import MetaCommon.BiosXml.Depex
import MetaCommon.BiosXml.Lists
import MetaCommon.RedfishSessions.Handlers
import MetaCommon.RedfishSessions.Agreement
import MetaCommon.Telemetry.Parameters
import MetaCommon.Telemetry.ReportPut
import MetaCommon.EventService.Copies
import MetaCommon.EventService.Suspension
import MetaCommon.ChassisSensors.Patching
import MetaCommon.ThermalSubsystem.Fans
import MetaCommon.ThermalSubsystem.Members
import MetaCommon.ThermalSubsystem.Agreement
import MetaCommon.ThermalSubsystem.Redundancy
import MetaCommon.Fips.SecurityPolicy
import MetaCommon.DbusSensors.ZeroFilter
import MetaCommon.DbusSensors.AlarmMessages
import MetaCommon.NodeManager.ThrottlingStatus
import MetaCommon.Telemetry.ReportMetrics
import MetaCommon.Lib.Numerals
import MetaCommon.LpcCmds.Main
import MetaCommon.Lib.Extents
import MetaCommon.FlashImage.Layout
import MetaCommon.Lib.Forest
import MetaCommon.Fit.FullCheck
import MetaCommon.Fit.Format
import MetaCommon.Boot.Supervision
import MetaCommon.Boot.CommandLine
import MetaCommon.Lib.Shared
import MetaCommon.VirtualMedia.Completion
import MetaCommon.NodeManager.PolicyView
import MetaCommon.NodeManager.Ownership
import MetaCommon.Telemetry.Cups
import MetaCommon.Kcs.Session
import MetaCommon.Lib.Handles
import MetaCommon.OnDemand.MeterState
import MetaCommon.OnDemand.Measurements
import MetaCommon.OnDemand.Answers
import MetaCommon.FullFitimage.Assemble
import MetaCommon.FullFitimage.Tree
import MetaCommon.FullFitimage.Bootable
import MetaCommon.FullFitimage.Checked
import MetaCommon.Lib.Segments
import MetaCommon.LicenseService.Service
import MetaCommon.LicenseService.Published
import MetaCommon.LicenseService.Posting
import MetaCommon.LicenseService.Links
