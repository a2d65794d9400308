import ChuwiMinibook.Machine
import ChuwiMinibook.ReleaseStack
import ChuwiMinibook.StdSort
import ChuwiMinibook.StdString
import ChuwiMinibook.Pid
import ChuwiMinibook.Cdev
import ChuwiMinibook.CdevArbitration
import ChuwiMinibook.TripPoint
import ChuwiMinibook.Zone
import ChuwiMinibook.CdevBank
import ChuwiMinibook.ZoneChecks
import ChuwiMinibook.Engine
import ChuwiMinibook.ForcedReset
import ChuwiMinibook.Gddv
import ChuwiMinibook.AdaptiveEngine
import ChuwiMinibook.FallbackPolicy
import ChuwiMinibook.PolicyZones
import ChuwiMinibook.DanglingLimits
import ChuwiMinibook.EcZones
import ChuwiMinibook.EcPolicy
import ChuwiMinibook.RaplCdev
import ChuwiMinibook.PowerLimits
import ChuwiMinibook.EngineThread
import ChuwiMinibook.EngineMessages
import ChuwiMinibook.CycleChecks
import ChuwiMinibook.SteadyCycle
import ChuwiMinibook.PollOrder
import ChuwiMinibook.ByteScan
import ChuwiMinibook.ByteRuns
import ChuwiMinibook.GddvTables
import ChuwiMinibook.GddvParser
import ChuwiMinibook.SlotForms
import ChuwiMinibook.GddvLoops
import ChuwiMinibook.GddvReads
import ChuwiMinibook.GddvLayout
import ChuwiMinibook.GddvBounds
import ChuwiMinibook.GddvTermination
import ChuwiMinibook.GddvEncoding
import ChuwiMinibook.ConditionTables
import ChuwiMinibook.PsvtGenerator
import ChuwiMinibook.PsvtRoundTrip
import ChuwiMinibook.VaultTree
import ChuwiMinibook.VaultRuns
import ChuwiMinibook.PollingRate
import ChuwiMinibook.SensorIdentity
import ChuwiMinibook.ThermalControl
import ChuwiMinibook.ConditionWalk
import ChuwiMinibook.TimedConditions
import ChuwiMinibook.TargetInForce
import ChuwiMinibook.PolicyExceptions
import ChuwiMinibook.XorLinear
import ChuwiMinibook.VaultNames
import ChuwiMinibook.Streak
import ChuwiMinibook.Descriptors
import ChuwiMinibook.MainLoop
import ChuwiMinibook.Mxc6655
import ChuwiMinibook.DeviceParts
import ChuwiMinibook.TabletMode
import ChuwiMinibook.LandscapeLock
import ChuwiMinibook.PollTimer
import ChuwiMinibook.I2cDescriptors
import ChuwiMinibook.SensorProxy
import ChuwiMinibook.ProxyParts
import ChuwiMinibook.ClientTables
import ChuwiMinibook.ProxyPolling
import ChuwiMinibook.ClaimReplies
import ChuwiMinibook.SignalRouting
import ChuwiMinibook.SensorRemoval
import ChuwiMinibook.PolledDrivers
import ChuwiMinibook.PromptReadings
import ChuwiMinibook.FlatMemory
import ChuwiMinibook.I2ec
import ChuwiMinibook.CdevActions
import ChuwiMinibook.TargetArbitration
import ChuwiMinibook.ShadowState
import ChuwiMinibook.ExponentialController
import ChuwiMinibook.RaplWrites
import ChuwiMinibook.RaplRange
import ChuwiMinibook.PidHistory
import ChuwiMinibook.PidRange
import ChuwiMinibook.ItmtWindow
import ChuwiMinibook.ByteImage
import ChuwiMinibook.Vbt
import ChuwiMinibook.VbtParse
import ChuwiMinibook.VbtPatches
import ChuwiMinibook.VbtBounds
import ChuwiMinibook.VbtFrame
import ChuwiMinibook.CriticalTrips
import ChuwiMinibook.SequentialTrips
import ChuwiMinibook.ZoneTrips
import ChuwiMinibook.HighestTrip
import ChuwiMinibook.PollingTrips
import ChuwiMinibook.ZoneUpdate
import ChuwiMinibook.PollingStart
import ChuwiMinibook.SysfsZone
import ChuwiMinibook.KernelTrips
import ChuwiMinibook.MatchedTargets
import ChuwiMinibook.PsvtConsolidation
import ChuwiMinibook.EmptySets
import ChuwiMinibook.PolicyReturns
import ChuwiMinibook.RecordLoops
import ChuwiMinibook.ApctSlots
import ChuwiMinibook.ApctBoundaries
import ChuwiMinibook.ScanWrites
import ChuwiMinibook.VaultWrites
import ChuwiMinibook.RefusedVaults
import ChuwiMinibook.FailedDecompression
import ChuwiMinibook.PpccTables
import ChuwiMinibook.Replacement
import ChuwiMinibook.CustomConditions
import ChuwiMinibook.WrappedCounter
import ChuwiMinibook.RaplPowerMeter
import ChuwiMinibook.RaplEnergy
import ChuwiMinibook.RaplSlope
import ChuwiMinibook.VirtualSensor
import ChuwiMinibook.VirtualPeriod
import ChuwiMinibook.Backlight
import ChuwiMinibook.Variance
import ChuwiMinibook.OrientFilter
import ChuwiMinibook.OrientAccumulator
import ChuwiMinibook.MovingAverage
import ChuwiMinibook.EmaBounds
import ChuwiMinibook.HotplugAssert
import ChuwiMinibook.BlockStream
import ChuwiMinibook.VbtChecksum
import ChuwiMinibook.VbtOptions
import ChuwiMinibook.VbtStored
import ChuwiMinibook.KbdBacklight
import ChuwiMinibook.KbdNotifications
import ChuwiMinibook.KbdAlwaysOn
import ChuwiMinibook.I2cFixup
import ChuwiMinibook.GLibText
import ChuwiMinibook.Binary32
import ChuwiMinibook.Gmtr
import ChuwiMinibook.AlignedLayout
import ChuwiMinibook.PackedWords
import ChuwiMinibook.IioBuffer
import ChuwiMinibook.IioScan
import ChuwiMinibook.WordReads
import ChuwiMinibook.DptfGnvs
import ChuwiMinibook.GnvsFlags
import ChuwiMinibook.EndInsertion
import ChuwiMinibook.CpuFreq
import ChuwiMinibook.NameTrimming
import ChuwiMinibook.RingBuffer
import ChuwiMinibook.OrderStatistics
import ChuwiMinibook.OrientBuffers
import ChuwiMinibook.TripIds
import ChuwiMinibook.CodedBits
import ChuwiMinibook.RangeEncoding
import ChuwiMinibook.Lz77
import ChuwiMinibook.LzmaSymbols
import ChuwiMinibook.LzmaDummy
import ChuwiMinibook.LzmaBits
import ChuwiMinibook.LzmaDec
import ChuwiMinibook.LzmaPlain
import ChuwiMinibook.LzmaSteps
import ChuwiMinibook.LzmaRefinement
import ChuwiMinibook.LzmaLoops
import ChuwiMinibook.LzmaRounds
import ChuwiMinibook.LzmaCalls
import ChuwiMinibook.LzmaDecode
import ChuwiMinibook.LzmaEncoding
import ChuwiMinibook.PackedVaults
import ChuwiMinibook.LockedSections
import ChuwiMinibook.I2ecThreads
import ChuwiMinibook.KbdThreads
import ChuwiMinibook.SensorThreads
