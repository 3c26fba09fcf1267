import EventRecorder.BufferedLive
import EventRecorder.Database
import EventRecorder.PreCrashWindow
import EventRecorder.Rearming
import EventRecorder.ErrorRecursion
import EventRecorder.Transactions
import EventRecorder.PreparedStatements
import EventRecorder.Frames
import EventRecorder.FrameSteps
import EventRecorder.FrameAuthentication
import EventRecorder.LineFraming
import EventRecorder.MailQueue
import EventRecorder.ThreadTable
import EventRecorder.Routing
import EventRecorder.Messages
import EventRecorder.SharedIndices
import EventRecorder.Answers
import EventRecorder.SafetyRestart
import EventRecorder.BrakeRuns
import EventRecorder.ValueRoundTrip
import EventRecorder.SilenceDetection
import EventRecorder.CrashBrackets
import EventRecorder.AssistanceRequest
import EventRecorder.GeneratedFrames
import EventRecorder.HashedRows
import EventRecorder.ReadBack
import EventRecorder.QueueLock
import EventRecorder.RecordedCrash
import EventRecorder.RunningStatistics
import EventRecorder.DetectorSymmetry
import EventRecorder.DecodedValues
import EventRecorder.PedalRuns
import EventRecorder.BrakeCount
import EventRecorder.FieldsApart
import EventRecorder.CpuUsage
import EventRecorder.LogServer
import EventRecorder.SplitData
import EventRecorder.DigestBuffer
import EventRecorder.KeepAlive
import EventRecorder.Columns
import EventRecorder.Replay
import EventRecorder.LevelShifts
import EventRecorder.SteadySamples
import EventRecorder.WarmUp
import EventRecorder.Shutdown
import EventRecorder.StartUp
import EventRecorder.Calls
import EventRecorder.RestartAccount
import EventRecorder.PlottedTable
