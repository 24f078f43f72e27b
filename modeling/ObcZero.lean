import ObcZero.StatusCore
import ObcZero.StepSystem
import ObcZero.StoreSequence
import ObcZero.RegisterMachine
import ObcZero.LittleEndian
import ObcZero.BytePacking
import ObcZero.GreedyScan
import ObcZero.CriticalCore
import ObcZero.CriticalVote
import ObcZero.CriticalDamage
import ObcZero.ModeCore
import ObcZero.ModeRestart
import ObcZero.ModeVote
import ObcZero.CriticalPatterns
import ObcZero.QueueCore
import ObcZero.IngestCore
import ObcZero.UplinkCore
import ObcZero.FrameBytes
import ObcZero.CommandSteps
import ObcZero.ArmedExecution
import ObcZero.ArmedAcceptance
import ObcZero.AtMostOnce
import ObcZero.UplinkRoundTrip
import ObcZero.TelemetryCore
import ObcZero.TelemetryPacking
import ObcZero.CommandCounters
import ObcZero.FrameSearchCore
import ObcZero.FrameSearch
import ObcZero.StreamRecovery
import ObcZero.AbandonedFrames
import ObcZero.SequenceCheck
import ObcZero.DegradedReport
import ObcZero.FaultCore
import ObcZero.TrapHandler
import ObcZero.TrapEvidence
import ObcZero.RecoverCore
import ObcZero.SchedCore
import ObcZero.SchedSteps
import ObcZero.SchedRun
import ObcZero.SuspensionSlot
import ObcZero.SuspensionLog
import ObcZero.WatchdogFeed
import ObcZero.LadderAndMode
import ObcZero.TraceCheckCore
import ObcZero.TraceConformance
import ObcZero.BootCore
import ObcZero.TornWrites
import ObcZero.BootStreak
import ObcZero.QueueConservation
import ObcZero.DrainOrder
import ObcZero.QueueDrain
import ObcZero.FixedFraming
import ObcZero.IngestVerdict
import ObcZero.Refusals
import ObcZero.PollFraming
import ObcZero.GroundAccess
import ObcZero.CommandTiming
import ObcZero.CriticalTally
import ObcZero.CyclicPlan
import ObcZero.PlannedWindow
import ObcZero.PunctualWindow
import ObcZero.MtimeCore
import ObcZero.TimerEscalation
import ObcZero.QueueRule
import ObcZero.TieOrder
import ObcZero.LateCommands
import ObcZero.BootDeath
import ObcZero.FrameClock
import ObcZero.SensorCore
import ObcZero.SensorReport
import ObcZero.UartCore
import ObcZero.PortAllowance
import ObcZero.EndAroundCarry
import ObcZero.SumCheck
import ObcZero.TimerRead
import ObcZero.ChainedRegions
import ObcZero.LayoutAudit
import ObcZero.UplinkAudit
import ObcZero.QuotedScan
import ObcZero.TableText
import ObcZero.PrintedTable
import ObcZero.ScalarRead
import ObcZero.MemberReads
import ObcZero.TableReads
import ObcZero.TableLoad
import ObcZero.DispatchBooks
import ObcZero.LogCapacity
import ObcZero.TraceVerdict
import ObcZero.WindowVerdict
import ObcZero.DumpText
import ObcZero.DumpRead
import ObcZero.DumpVerdict
import ObcZero.StartCore
import ObcZero.StartRun
import ObcZero.StartTrap
import ObcZero.CampaignVerdict
import ObcZero.ClockCheck
import ObcZero.SensorBuilds
import ObcZero.SensorVerdict
import ObcZero.VehicleCore
import ObcZero.UplinkIsolation
