import Bsg.Rtc.Response

/-!
# The panel of the extension

What the panel of a user does with the messages of rtc-service (`hooks/useChatSocket.ts`,
`hooks/useRoomEvents.ts`): a message of a known type becomes the `lastGameEvent` of the store, and
the effect on that event sets the round up or clears it. central-service is asked over HTTP when a
room is joined or loaded (`hooks/useRoomInit.ts`) and when the admin ends the round. Times are Unix
milliseconds on the clock of the panel.

A panel keeps the requests that it made to the background worker, and the problems to which it
moved the active tab. The effect follows each message before the next one is read.
-/

namespace Bsg.Extension

open Bsg.Foundations Bsg.Rtc

/-! ## Pages -/

/-- Whether a text occurs in another one. -/
def includes (text part : List Char) : Bool := text.tails.any fun rest => part.isPrefixOf rest

/-- The first problem name in the letters of a URL. -/
def findSlug : List Char → Option (List Char)
  | [] => none
  | c :: cs =>
    let page := "/problems/".toList
    let slug := ((c :: cs).drop page.length).takeWhile fun c => c ≠ '/' && c ≠ '?' && c ≠ '#'
    if page.isPrefixOf (c :: cs) && slug ≠ [] then some slug else findSlug cs

/-- `parseProblemSlug` -/
def parseProblemSlug (url : String) : Option String := (findSlug url.toList).map String.ofList

/-- `problemUrl` -/
def problemUrl (slug : String) : String := "https://leetcode.com/problems/" ++ slug ++ "/"

/-- `resolveResumeSlug`: the problem to go to, for a tab that shows no problem of the round. -/
def resolveResumeSlug (tabUrl : String) (problems : List String) : Option String :=
  match problems with
  | [] => none
  | first :: _ =>
    let currentSlug := parseProblemSlug tabUrl
    if currentSlug.any fun slug => problems.contains slug then none
    else if !includes tabUrl.toList "leetcode.com".toList then none
    else some first

/-! ## State -/

/-- The types of `GameEvent`. -/
inductive GameEventType where
  | roundStart
  | nextProblem
  | roundEnd
  | joinRound
  deriving DecidableEq, Repr

/-- `GameEvent` -/
structure GameEvent where
  type : GameEventType
  data : Data
  deriving DecidableEq, Repr

/-- A request to the background worker about the problems that were touched. -/
inductive WorkerRequest where
  | problemProgressReset (roundKey : String)
  | problemTouched (slug : String)
  deriving DecidableEq, Repr

/-- The panel of a user: its store, as far as it is about the round, and the active tab. -/
structure Panel where
  userId : GoText
  roomId : Option String
  isRoundStarted : Bool
  hasRoundEnded : Bool
  roundEndTime : Option ℤ
  lastGameEvent : Option GameEvent
  /-- The URL of the active tab. -/
  tab : Option String
  /-- What the background worker was asked for. -/
  requests : List WorkerRequest
  /-- The problems to which the tab was moved. -/
  moves : List String
  deriving DecidableEq, Repr

/-- The store says that the round of the room is over. -/
def Panel.SaysEnded (p : Panel) : Prop :=
  p.isRoundStarted = false ∧ p.hasRoundEnded = true ∧ p.roundEndTime = none

instance (p : Panel) : Decidable p.SaysEnded := inferInstanceAs (Decidable (_ ∧ _ ∧ _))

namespace Panel

/-- `navigateActiveTab` -/
def navigateActiveTab (p : Panel) (decide : String → Option String) : Panel :=
  match p.tab with
  | none => p
  | some url =>
    match decide url with
    | none => p
    | some targetSlug =>
      if url = "" ∨ targetSlug = "" ∨ parseProblemSlug url = some targetSlug then p
      else { p with tab := some (problemUrl targetSlug), moves := p.moves ++ [targetSlug] }

/-! ## The effect on a game event -/

/-- The object that a round event carries, if it has a start time. -/
structure RoundData where
  startTime : ℤ
  serverNow : ℤ
  duration : ℤ
  problems : List String
  deriving DecidableEq, Repr

/-- The data of a round event, when it is an object with a start time. -/
def roundData (data : Data) : Option RoundData :=
  let found : Option RoundData := match data with
    | .roundStart b => some ⟨b.startTime, b.serverNow, b.duration, b.problems⟩
    | .joinRound b => some ⟨b.startTime, b.serverNow, b.duration, b.problems⟩
    | _ => none
  found.filter fun d => d.startTime ≠ 0

/-- When the round ends, on the panel's clock. -/
def endTime (now : ℤ) : Option RoundData → ℤ
  | some d =>
    if d.serverNow ≠ 0 then
      let remainingUntilStart := (d.startTime - d.serverNow) * 1000
      now + remainingUntilStart + d.duration * 60 * 1000
    else d.startTime * 1000 + d.duration * 60 * 1000
  | none => now + 30 * 60 * 1000

/-- The key of a round, which tells the worker a new round from one that is sent again. -/
def roundKey (roomId : String) : Option RoundData → String
  | some d => roomId ++ "|" ++ toString d.startTime
  | none => roomId ++ "|legacy|round"

/-- `applyRoundData`: puts the user into the round. -/
def applyRoundData (p : Panel) (now : ℤ) (roomId : String) (data : Data) : Panel :=
  let d := roundData data
  let problems := (d.map RoundData.problems).getD []
  let p := { p with
    roundEndTime := some (endTime now d)
    isRoundStarted := true
    hasRoundEnded := false
    requests := p.requests ++ [.problemProgressReset (roundKey roomId d)] }
  if problems ≠ [] then p.navigateActiveTab fun url => resolveResumeSlug url problems else p

/-- A join event that puts this user into a round: his own, of a round that was in progress. -/
def ownJoin (userId : GoText) (data : Data) : Bool :=
  match data with
  | .joinRound b => b.userID = userId && b.roundStatus = .inProgress
  | _ => false

/-- The effect of `useRoomEvents` on the last game event. -/
def roomEvents (p : Panel) (now : ℤ) : Panel :=
  match p.lastGameEvent, p.roomId with
  | some event, some roomId =>
    match event.type with
    | .roundStart => p.applyRoundData now roomId event.data
    | .joinRound => if ownJoin p.userId event.data then p.applyRoundData now roomId event.data else p
    | .nextProblem =>
      match event.data with
      | .nextProblem nextProblem userHandle =>
        if p.userId ≠ [] ∧ userHandle = p.userId then p.navigateActiveTab fun _ => some nextProblem
        else p
      | _ => p
    | .roundEnd =>
      { p with
        roundEndTime := none
        isRoundStarted := false
        hasRoundEnded := true
        requests := p.requests ++ [.problemProgressReset (roomId ++ "|ended|" ++ toString now)] }
  | _, _ => p

/-! ## Messages -/

/-- The event that a message makes the last one, by its type; the other types are about the chat
and the participants. -/
def gameEvent (resp : Response) : Option GameEvent :=
  if resp.respStatus = .ok then
    let responseType := resp.respType.name
    let data := resp.respMessage.data
    if responseType = "round-start" then some ⟨.roundStart, data⟩
    else if responseType = "round-end" then some ⟨.roundEnd, data⟩
    else if responseType = "round-join" then some ⟨.joinRound, data⟩
    else if responseType = "next-problem" then some ⟨.nextProblem, data⟩
    else none
  else none

/-- `ws.onmessage`, and the effect that follows. -/
def onMessage (p : Panel) (now : ℤ) (resp : Response) : Panel :=
  match gameEvent resp with
  | none => p
  | some event => { p with lastGameEvent := some event }.roomEvents now

/-- The panel after a list of messages, each with the time at which it is read. -/
def onMessages (p : Panel) (messages : List (ℤ × Response)) : Panel :=
  messages.foldl (fun p m => p.onMessage m.1 m.2) p

/-- Without messages the panel stays as it is. -/
@[simp] theorem onMessages_nil (p : Panel) : p.onMessages [] = p := rfl

/-- The panel reads one message, and then the others. -/
@[simp] theorem onMessages_cons (p : Panel) (m : ℤ × Response) (ms : List (ℤ × Response)) :
    p.onMessages (m :: ms) = (p.onMessage m.1 m.2).onMessages ms := rfl

/-- The panel reads messages in their order. -/
theorem onMessages_append (p : Panel) (ms ms' : List (ℤ × Response)) :
    p.onMessages (ms ++ ms') = (p.onMessages ms).onMessages ms' := List.foldl_append

/-! ## What central-service says over HTTP -/

/-- The last round of a room, as `checkActiveRoom` loads it. -/
structure LoadedRound where
  status : String
  /-- When it was changed last, in Unix milliseconds. -/
  lastUpdated : ℤ
  duration : ℤ
  deriving DecidableEq, Repr

/-- `initRoom` -/
def initRoom (p : Panel) (roomId : String) : Panel :=
  { p with roomId := some roomId, isRoundStarted := false, hasRoundEnded := false,
           roundEndTime := none }

/-- `resetRoom` -/
def resetRoom (p : Panel) : Panel :=
  { p with roomId := none, isRoundStarted := false, hasRoundEnded := false, roundEndTime := none,
           lastGameEvent := none }

/-- `joinRoom` succeeds; the status of the room's last round comes along. -/
def joinedRoom (p : Panel) (roomId : String) (lastRoundStatus : Option String) : Panel :=
  { p.initRoom roomId with hasRoundEnded := lastRoundStatus = some "ended" }

/-- `checkActiveRoom` finds a room. -/
def loadedRoom (p : Panel) (now : ℤ) (roomId : String) (lastRound : Option LoadedRound) : Panel :=
  let p := p.initRoom roomId
  match lastRound with
  | none => p
  | some round =>
    let p := { p with hasRoundEnded := round.status = "ended" }
    if round.status = "started" then
      let endTime := round.lastUpdated + round.duration * 60 * 1000
      { p with isRoundStarted := true
               roundEndTime := if endTime > now then some endTime else p.roundEndTime }
    else { p with isRoundStarted := false, roundEndTime := none }

/-- `handleEndRound` is confirmed. -/
def endConfirmed (p : Panel) : Panel := { p with isRoundStarted := false, hasRoundEnded := true }

/-- Two seconds later. -/
def endSettled (p : Panel) : Panel := { p with roundEndTime := none }

/-! ## What a message leaves alone -/

/-- Moving the tab leaves all that the panel keeps. -/
@[simp] theorem navigateActiveTab_store (p : Panel) (decide : String → Option String) :
    (p.navigateActiveTab decide).isRoundStarted = p.isRoundStarted ∧
      (p.navigateActiveTab decide).hasRoundEnded = p.hasRoundEnded ∧
      (p.navigateActiveTab decide).roundEndTime = p.roundEndTime ∧
      (p.navigateActiveTab decide).userId = p.userId ∧
      (p.navigateActiveTab decide).roomId = p.roomId ∧
      (p.navigateActiveTab decide).requests = p.requests := by
  unfold navigateActiveTab
  split
  · exact ⟨rfl, rfl, rfl, rfl, rfl, rfl⟩
  · split
    · exact ⟨rfl, rfl, rfl, rfl, rfl, rfl⟩
    · split <;> exact ⟨rfl, rfl, rfl, rfl, rfl, rfl⟩

/-- Who is put into a round is in it until the end time, and the worker is told its key. -/
theorem applyRoundData_store (p : Panel) (now : ℤ) (roomId : String) (data : Data) :
    (p.applyRoundData now roomId data).isRoundStarted = true ∧
      (p.applyRoundData now roomId data).hasRoundEnded = false ∧
      (p.applyRoundData now roomId data).roundEndTime = some (endTime now (roundData data)) ∧
      (p.applyRoundData now roomId data).userId = p.userId ∧
      (p.applyRoundData now roomId data).roomId = p.roomId ∧
      (p.applyRoundData now roomId data).requests =
        p.requests ++ [.problemProgressReset (roundKey roomId (roundData data))] := by
  unfold applyRoundData
  dsimp only
  split
  · exact navigateActiveTab_store _ _
  · exact ⟨rfl, rfl, rfl, rfl, rfl, rfl⟩

end Panel

end Bsg.Extension
