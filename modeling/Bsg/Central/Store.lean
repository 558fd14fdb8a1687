import Bsg.Foundations.Call
import Bsg.Foundations.SortedSet
import Bsg.Central.Models
import Bsg.Central.Queue
import Bsg.Rtc.ChatManager

/-!
# The state of central-service

What central-service reads and changes: the SQL database, the Redis cache with its queues, the task
scheduler, and the connection to rtc-service, of which the requests delivered so far are kept. A
service function is a `Service`, a call over this `World` with the errors of the code.

What a call cannot know beforehand stands in its environment `Env`: which operation fails, how
rtc-service answers, the time, the order in which a query without an ORDER BY returns its rows, and
the keys that the sequences hand out. A failing operation has no effect of its own.
-/

namespace Bsg.Central

open Bsg.Foundations

/-! ## Errors -/

/-- `BSGError` -/
structure BSGError where
  statusCode : ℕ
  message : String
  deriving DecidableEq, Repr

/-- An error of the code: a `BSGError` by value or by pointer, or the error of a library. Only a
pointer matches a target of type `*BSGError` in `errors.As`. -/
inductive GoError where
  | value (e : BSGError)
  | pointer (e : BSGError)
  | other (text : String)
  deriving DecidableEq, Repr

/-- The error of a failing database or Redis operation. -/
def GoError.io : GoError := .other "connection error"

/-! ## State -/

/-- The SQL database. -/
structure DB where
  users : Table User
  problems : Table Problem
  companyTags : List ProblemCompanyTag
  rooms : List Room
  rounds : Table Round
  /-- The join table `round_problems`: round and problem. -/
  roundProblems : List (ℕ × ℕ)
  participants : Table RoundParticipant
  roundSubmissions : Table RoundSubmission
  submissions : Table Submission
  leaderboards : Table Leaderboard

/-- The Redis cache. -/
structure Redis where
  /-- `<room>_joinTimestamp`: the members of a room by the time they joined. -/
  joinTimestamp : RoomID → SortedSet AuthID ℤ
  /-- `user:<user>:active_room` -/
  activeRoom : AuthID → Option RoomID
  /-- `<room>_mostRecentRound` -/
  mostRecentRound : RoomID → Option ℕ
  /-- `<round>_leaderboard`: the compressed scores of a round. -/
  leaderboard : ℕ → SortedSet AuthID ℕ
  /-- The queue to the worker. -/
  ingress : RedisQueue
  /-- The queue from the worker. -/
  egress : RedisQueue

/-- A task scheduled to end a round; it holds the round as it was loaded when it was started. -/
structure EndTask where
  roundID : ℕ
  roomID : RoomID
  /-- When the task is due, in nanoseconds of Unix time. -/
  due : ℤ
  deriving DecidableEq, Repr

/-- The state that central-service works on. -/
structure World where
  db : DB
  redis : Redis
  /-- End tasks that wait in the scheduler of rounds. -/
  tasks : List EndTask
  /-- Rooms with an expiry task in the scheduler of rooms. -/
  expiryTasks : List RoomID
  /-- The requests delivered to rtc-service, in order. -/
  sent : List Rtc.Request

/-- A database without rows. -/
def DB.empty : DB :=
  ⟨.empty, .empty, [], [], .empty, [], .empty, .empty, .empty, .empty⟩

/-- A cache without keys. -/
def Redis.empty : Redis :=
  ⟨fun _ => .empty, fun _ => none, fun _ => none, fun _ => .empty, .empty, .empty⟩

/-- The state in which central-service is set up. -/
def World.empty : World := ⟨.empty, .empty, [], [], []⟩

/-- A function of central-service. -/
abbrev Service (α : Type) := Call World GoError α

/-! ## Environment -/

/-- The operations of the room and round services that can fail. Those in a loop carry the index of
its round. -/
inductive Op where
  | findRoom
  | zaddJoin
  | setActiveRoom
  | zremJoin
  | delActiveRoom
  | zrangeJoin
  | zrangeAdmin
  | updateAdmin
  | findUser
  | zrangeDelete
  | delJoin
  | delMember (i : ℕ)
  | delLeaderboard (i : ℕ)
  | deleteRoundSubmissions (i : ℕ)
  | deleteParticipants (i : ℕ)
  | deleteRoundProblems (i : ℕ)
  | deleteRound (i : ℕ)
  | deleteRoom
  | countRounds
  | insertRound
  | beginProblems
  | findProblems (k : ℕ)
  | commitProblems
  | appendProblems
  | setMostRecentRound
  | appendRound
  | findProblemSet
  | updateRoundStatus
  | beginParticipants
  | createParticipant (i : ℕ)
  | zaddLeaderboard (i : ℕ)
  | commitParticipants
  | scheduleRoundEnd
  | findRound
  | findProblem
  | findParticipant
  | countAccepted
  | createSubmission
  | appendToRound
  | appendToParticipant
  | publish
  | countProblems
  | updateSolved
  | findNextProblems
  | updateDuration
  | getMostRecentRound
  | getActiveRoom
  | zrangeLeaderboard
  | findSolved
  deriving DecidableEq, Repr

/-- How a request to rtc-service ends: answered with `ok`, answered with an error, not answered in
time, or not even written to the connection. -/
inductive RtcReply where
  | ok
  | refused
  | timeout
  | unwritten
  deriving DecidableEq, Repr

/-- The requests to rtc-service within one call; those in a loop carry the index of its round. -/
inductive RtcCall where
  | joinRoom
  | leaveRoom
  | adminChange
  | roundStart
  | roundEnd
  | joinRound (i : ℕ)
  | newSubmission
  | nextProblem
  | roomExpired
  deriving DecidableEq, Repr

/-- The environment of a call. -/
structure Env where
  /-- The operations that fail. -/
  fails : Op → Bool
  /-- The answers of rtc-service. -/
  reply : RtcCall → RtcReply
  /-- The time of the call, in Unix seconds. -/
  now : ℤ
  /-- The nanoseconds from the time of a start to the call of the scheduler that ends the round. -/
  scheduleDelay : ℕ
  /-- `uuid.Parse` -/
  uuid : UUIDParser
  /-- The order in which the rounds of a room are loaded. -/
  rounds : Arrangement Round
  /-- The order in which the problems of a round, or problems by id, are loaded. -/
  problems : Arrangement Problem
  /-- The order in which the problems of a round are loaded once more, for the next problem. -/
  nextProblems : Arrangement Problem
  /-- The order that `RANDOM()` gives the `k`-th query for problems. -/
  random : ℕ → Arrangement Problem
  /-- The order in which users are found. -/
  users : Arrangement User
  /-- The order in which participants are found. -/
  participants : Arrangement RoundParticipant
  roundHint : ℕ
  /-- The key for the `i`-th participant of a call. -/
  participantHint : ℕ → ℕ
  roundSubmissionHint : ℕ
  submissionHint : ℕ
  /-- A letter in lower case, as `strings.ToLower` has it. -/
  goLower : Char → Char
  /-- A letter in lower case, as `LOWER` has it. -/
  sqlLower : Char → Char

/-- An environment in which nothing fails, with rows in the order of their insertion. -/
def Env.faultless (now : ℤ) : Env where
  fails _ := false
  reply _ := .ok
  now := now
  scheduleDelay := 0
  uuid := .standard
  rounds := .inserted Round
  problems := .inserted Problem
  nextProblems := .inserted Problem
  random _ := .inserted Problem
  users := .inserted User
  participants := .inserted RoundParticipant
  roundHint := 0
  participantHint _ := 0
  roundSubmissionHint := 0
  submissionHint := 0
  goLower := Char.toLower
  sqlLower := Char.toLower

/-! ## Operations -/

/-- Changes the database. -/
def writeDB (f : DB → DB) : Service Unit := .write fun w => { w with db := f w.db }

/-- Changes the cache. -/
def writeRedis (f : Redis → Redis) : Service Unit := .write fun w => { w with redis := f w.redis }

/-- A rollback undoes what a transaction did to the database; the cache and the other services
keep what they were told. -/
def rollback (s s' : World) : World := { s' with db := s.db }

/-- `sendMessage`: sends a request to rtc-service and waits for the answer. -/
def sendMessage (reply : RtcReply) (req : Rtc.Request) : Service Unit :=
  match reply with
  | .ok => .write fun w => { w with sent := w.sent ++ [req] }
  | .refused => do
    Call.write fun w => { w with sent := w.sent ++ [req] }
    Call.fail (.value ⟨500, "rtc-service refused the request"⟩)
  | .timeout => do
    Call.write fun w => { w with sent := w.sent ++ [req] }
    Call.fail (.value ⟨504, "Timeout waiting for RTC response"⟩)
  | .unwritten => .fail (.other "write error")

/-- An error that is only logged. -/
def logged (x : Service Unit) : Service Unit := do
  let _ ← x.attempt
  pure ()

/-- The requests that reach rtc-service when one is sent. -/
def delivered (reply : RtcReply) (req : Rtc.Request) : List Rtc.Request :=
  if reply = .unwritten then [] else [req]

/-- The state after rtc-service was told something. -/
def World.tell (w : World) (rs : List Rtc.Request) : World := { w with sent := w.sent ++ rs }

/-- Telling nothing changes nothing. -/
@[simp] theorem World.tell_nil (w : World) : w.tell [] = w := by
  unfold World.tell
  rw [List.append_nil]

/-- Requests are sent in their order. -/
theorem World.tell_tell (w : World) (rs rs' : List Rtc.Request) :
    (w.tell rs).tell rs' = w.tell (rs ++ rs') := by
  unfold World.tell
  rw [List.append_assoc]

/-- Sending a request delivers it, if at all, whatever the answer is. -/
theorem sendMessage_run (reply : RtcReply) (req : Rtc.Request) (w : World) :
    ∃ o, (sendMessage reply req).run w = (o, w.tell (delivered reply req)) ∧ o ≠ .panic ∧
      (o = .ok () ↔ reply = .ok) := by
  cases reply with
  | ok => exact ⟨_, rfl, by simp, by simp⟩
  | refused => exact ⟨_, rfl, by simp, by simp⟩
  | timeout => exact ⟨_, rfl, by simp, by simp⟩
  | unwritten =>
    refine ⟨.err (.other "write error"), ?_, by simp, by simp⟩
    rw [delivered, if_pos rfl, World.tell_nil]
    rfl

/-- Telling rtc-service does not panic. -/
theorem calm_sendMessage (reply : RtcReply) (req : Rtc.Request) :
    Call.Calm (sendMessage reply req) := by
  intro w
  obtain ⟨o, hrun, hcalm, -⟩ := sendMessage_run reply req w
  rw [hrun]
  exact hcalm

/-- What is only logged goes where it goes. -/
theorem within_logged {R : World → World → Prop} (refl : ∀ w, R w w)
    (trans : ∀ w₁ w₂ w₃, R w₁ w₂ → R w₂ w₃ → R w₁ w₃) {x : Service Unit}
    (hx : Call.Within R x) : Call.Within R (logged x) :=
  Call.Within.bind trans hx.attempt fun _ => Call.Within.pure refl ()

/-- What is only logged returns when it does not panic. -/
theorem returns_logged {x : Service Unit} (hx : Call.Calm x) : Call.Returns (logged x) := by
  intro w
  have hraises : Call.Raises (fun _ => False) (logged x) :=
    Call.Raises.bind (Call.Raises.attempt x) fun _ => Call.Raises.pure ()
  have hcalm : Call.Calm (logged x) :=
    Call.Calm.bind (Call.Calm.attempt hx) fun _ => Call.Calm.pure ()
  exact hraises.returns (hcalm w)

/-- What is only logged leaves alone what it leaves alone. -/
theorem keeps_logged {γ : Type} {f : World → γ} {x : Service Unit} (hx : Call.Keeps f x) :
    Call.Keeps f (logged x) := Call.Keeps.bind hx.attempt fun _ => Call.Keeps.pure ()

/-- A request changes nothing but what rtc-service was told. -/
theorem keeps_sendMessage {γ : Type} {f : World → γ} (h : ∀ w rs, f (World.tell w rs) = f w)
    (reply : RtcReply) (req : Rtc.Request) : Call.Keeps f (sendMessage reply req) := by
  intro w
  obtain ⟨o, hrun, -, -⟩ := sendMessage_run reply req w
  rw [hrun]
  exact h w _

/-- What is only logged leaves the state that it leaves. -/
theorem logged_state (x : Service Unit) (w : World) : ((logged x).run w).2 = (x.run w).2 := by
  unfold logged
  rw [Call.run_bind, Call.run_attempt]
  rcases x.run w with ⟨_ | _ | _, w'⟩ <;> rfl

/-- A request that may fail is delivered, if at all, and the caller goes on. -/
theorem logged_sendMessage_run (reply : RtcReply) (req : Rtc.Request) (w : World) :
    (logged (sendMessage reply req)).run w = (.ok (), w.tell (delivered reply req)) := by
  obtain ⟨o, hrun, hcalm, -⟩ := sendMessage_run reply req w
  cases o with
  | ok _ => exact Call.attempt_ok hrun _
  | err _ => exact Call.attempt_err hrun _
  | panic => exact absurd rfl hcalm

/-- The problems of a round, as the association `ProblemSet` loads them. -/
def DB.problemSet (db : DB) (a : Arrangement Problem) (roundID : ℕ) : List Problem :=
  a.order (db.problems.rows.filter fun p => decide ((roundID, p.id) ∈ db.roundProblems))

/-- The rounds of a room, as the preload of `Rounds` loads them. -/
def DB.roundsOf (db : DB) (a : Arrangement Round) (roomID : RoomID) : List Round :=
  a.order (db.rounds.rows.filter fun r => decide (r.roomID = roomID))

end Bsg.Central
