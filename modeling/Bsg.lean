import Bsg.Foundations.Run
import Bsg.Central.Rooms
import Bsg.Worker.Worker
import Bsg.Central.Transient
import Bsg.Central.ExactlyOnce
import Bsg.Central.StartAtomic
import Bsg.Central.CreateRoundTrace
import Bsg.Central.RoomSteps
import Bsg.Central.JoinAtomic
import Bsg.Central.Headed
import Bsg.Central.Populated
import Bsg.Central.ActiveRoom
import Bsg.Central.Seniority
import Bsg.Central.CurrentRound
import Bsg.Central.RoundDurations
import Bsg.Central.RoundLimit
import Bsg.Central.SharedConnection
import Bsg.Central.Deadline
import Bsg.Central.Enrolment
import Bsg.Central.RoundEnd
import Bsg.Central.StartRace
import Bsg.Central.Correlation
import Bsg.Central.Wedge
import Bsg.Central.Handoff
import Bsg.Central.Station
import Bsg.Worker.Delivery
import Bsg.Central.Tally
import Bsg.Central.Continuation
import Bsg.Central.Counting
import Bsg.Central.Agreement
import Bsg.Extension.RoundClock
import Bsg.Extension.Touched
import Bsg.Extension.RoundOver
import Bsg.Extension.Typing
import Bsg.Extension.Stages
import Bsg.Central.RoomRelease
import Bsg.Central.Legal
import Bsg.Central.Ranking
import Bsg.Rtc.Filter
import Bsg.Rtc.History
import Bsg.Rtc.Audience
import Bsg.Rtc.Blocking
import Bsg.Rtc.Linear
import Bsg.Rtc.Profanity
import Bsg.Central.Generating
import Bsg.Central.PickedOrder
import Bsg.Central.SizedRounds
import Bsg.Central.NextProblem
import Bsg.Central.RoomDeletion
import Bsg.Central.TagFilter
import Bsg.Central.Seeding
import Bsg.Central.Statistics
import Bsg.Central.Users
import Bsg.Central.ErrorMeaning
import Bsg.Central.RateLimiter
import Bsg.Central.DistributedLimits
import Bsg.Server.Refunds
import Bsg.Server.PerEndpoint
import Bsg.Central.StatsRebuild
import Bsg.Central.CompanyCsv
import Bsg.Central.CompanySeeding
import Bsg.Extension.LiveCount
import Bsg.Extension.CountCache
import Bsg.Worker.Submit
import Bsg.Central.Lifecycle
import Bsg.Central.Integrity
import Bsg.Central.RoomCodes
import Bsg.Central.StartUp
import Bsg.Central.StatCache
import Bsg.Extension.Reconnect
import Bsg.Extension.Navigation
import Bsg.Rtc.Hearing
import Bsg.Extension.Socket
import Bsg.Extension.ChatPanel
