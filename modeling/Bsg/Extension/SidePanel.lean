import Bsg.Extension.RoundOver

/-!
# The side panel

The panel with what belongs to it in the browser: what is kept in `chrome.storage.local` about the
round, and the calls of `navigateActiveTab`. Such a call waits for the active tab (`pending`),
decides from its URL, and then waits until the tab has moved (`moving`); other things happen
meanwhile. When nothing does, the panel is as if the tab had been moved at once (`settle_effect`).

A page of the panel that is loaded reads what is kept (`resume`): a round that was left while it ran
has the tab moved to one of its problems.
-/

namespace Bsg.Extension

open Bsg.Foundations Bsg.Rtc Panel

/-! ## What is kept -/

/-- What is kept in `chrome.storage.local` about the round. -/
structure Kept where
  lastGameEvent : Option GameEventType
  problems : List String
  roundEndTime : Option ℤ
  deriving DecidableEq, Repr

/-- The problems that a round event carries. -/
def roundProblems (data : Data) : List String := ((roundData data).map RoundData.problems).getD []

namespace Kept

/-- What `applyRoundData` keeps, and the event. -/
def applyRoundData (k : Kept) (now : ℤ) (type : GameEventType) (data : Data) : Kept where
  lastGameEvent := some type
  problems := if roundProblems data ≠ [] then roundProblems data else k.problems
  roundEndTime := some (endTime now (roundData data))

/-- What the effect on an event keeps. -/
def roomEvents (k : Kept) (now : ℤ) (userId : GoText) (event : GameEvent) : Kept :=
  match event.type with
  | .roundStart => k.applyRoundData now .roundStart event.data
  | .joinRound => if ownJoin userId event.data then k.applyRoundData now .joinRound event.data else k
  | .nextProblem => { k with lastGameEvent := some .nextProblem }
  | .roundEnd => ⟨some .roundEnd, [], none⟩

/-- What is kept after an answer of central-service. -/
def act (k : Kept) : PanelAction → Kept
  | .loadedRoom now _ (some round) =>
    let endTime := round.lastUpdated + round.duration * 60 * 1000
    if round.status = "started" ∧ endTime > now then { k with roundEndTime := some endTime } else k
  | .endSettled | .resetRoom => ⟨none, [], none⟩
  | .joinedRoom .. | .loadedRoom _ _ none | .endConfirmed => k

end Kept

/-! ## Calls -/

/-- A call of `navigateActiveTab`, by what it decides with: to go back to a problem of the round, or
on to the next one. -/
inductive Call where
  | resume (problems : List String)
  | lead (slug : String)
  deriving DecidableEq, Repr

namespace Call

/-- `decide` -/
def decide : Call → String → Option String
  | resume problems, tabUrl => resolveResumeSlug tabUrl problems
  | lead nextProblem, _ => some nextProblem

/-- Where a call moves a tab, if it does. -/
def target (call : Call) (tabUrl : String) : Option String :=
  (call.decide tabUrl).filter fun slug =>
    ¬ (tabUrl = "" ∨ slug = "" ∨ parseProblemSlug tabUrl = some slug)

end Call

/-- The call for a round with these problems. -/
def resuming (problems : List String) : Option Call :=
  if problems ≠ [] then some (.resume problems) else none

/-- The call that the effect on an event makes. -/
def GameEvent.call (userId : GoText) (event : GameEvent) : Option Call :=
  match event.type with
  | .roundStart => resuming (roundProblems event.data)
  | .joinRound =>
    if ownJoin userId event.data then resuming (roundProblems event.data) else none
  | .nextProblem =>
    match event.data with
    | .nextProblem nextProblem userHandle =>
      if userId ≠ [] ∧ userHandle = userId then some (.lead nextProblem) else none
    | _ => none
  | .roundEnd => none

/-! ## State -/

/-- The panel, what is kept, the type of the last event that this page of the panel has seen
(`LastGameRef`), the calls that wait for the tab, and the problems that the tab is on its way to. -/
structure SidePanel where
  panel : Panel
  kept : Kept
  lastGame : Option GameEventType
  pending : List Call
  moving : List String
  deriving DecidableEq, Repr

/-- What can happen to the side panel. -/
inductive SidePanelEvent where
  | message (now : ℤ) (resp : Response)
  /-- The effect on the last event is run again. -/
  | effect (now : ℤ)
  /-- The panel is loaded anew, with an empty store. -/
  | reloaded
  /-- The page of the room has read what is kept. -/
  | resumed (now : ℤ)
  /-- The `i`-th waiting call is told the active tab. -/
  | queried (i : ℕ)
  /-- The `i`-th waiting call fails. -/
  | failed (i : ℕ)
  /-- The `i`-th move is over; the tab that was moved may not be the active one any more, or not
  have moved at all. -/
  | arrived (i : ℕ) (active : Bool)
  /-- central-service has answered over HTTP. -/
  | central (action : PanelAction)
  /-- The user goes to a page, or to another tab. -/
  | shows (tab : Option String)
  deriving DecidableEq

namespace SidePanel

/-- The effect of `useRoomEvents` on the last game event; the tab is moved later. -/
def effect (b : SidePanel) (now : ℤ) : SidePanel :=
  match b.panel.lastGameEvent, b.panel.roomId with
  | some event, some _ =>
    { b with
      panel := { b.panel.roomEvents now with tab := b.panel.tab, moves := b.panel.moves }
      kept := b.kept.roomEvents now b.panel.userId event
      lastGame := some event.type
      pending := b.pending ++ (event.call b.panel.userId).toList }
  | _, _ => b

/-- `ws.onmessage`, and the effect that follows. -/
def onMessage (b : SidePanel) (now : ℤ) (resp : Response) : SidePanel :=
  match gameEvent resp with
  | none => b
  | some event => { b with panel := { b.panel with lastGameEvent := some event } }.effect now

/-- The effect on loading: the tab goes to a problem of a round that was left while it runs. -/
def resume (b : SidePanel) (now : ℤ) : SidePanel :=
  match b.panel.roomId, b.kept.lastGameEvent with
  | some _, some lastGameEvent =>
    if b.lastGame = some lastGameEvent then b
    else if lastGameEvent = .roundStart ∨ lastGameEvent = .joinRound then
      let shouldResume := b.kept.roundEndTime.any fun t => t ≠ 0 && t > now
      if !shouldResume || b.kept.problems = [] then b
      else { b with pending := b.pending ++ [.resume b.kept.problems] }
    else b
  | _, _ => b

/-- A call learns the URL of the active tab, and moves the tab if it must. -/
def query (b : SidePanel) (i : ℕ) : SidePanel :=
  match b.pending[i]? with
  | none => b
  | some call =>
    match b.panel.tab.bind call.target with
    | none => { b with pending := b.pending.eraseIdx i }
    | some slug =>
      { b with
        panel := { b.panel with moves := b.panel.moves ++ [slug] }
        pending := b.pending.eraseIdx i
        moving := b.moving ++ [slug] }

/-- A move is over. -/
def arrive (b : SidePanel) (i : ℕ) (active : Bool) : SidePanel :=
  match b.moving[i]? with
  | none => b
  | some slug =>
    { b with
      panel := { b.panel with tab := if active then some (problemUrl slug) else b.panel.tab }
      moving := b.moving.eraseIdx i }

/-- The side panel after an event. -/
def step (b : SidePanel) : SidePanelEvent → SidePanel
  | .message now resp => b.onMessage now resp
  | .effect now => b.effect now
  | .reloaded => { b with panel := b.panel.resetRoom, lastGame := none, pending := [] }
  | .resumed now => b.resume now
  | .queried i => b.query i
  | .failed i => { b with pending := b.pending.eraseIdx i }
  | .arrived i active => b.arrive i active
  | .central action => { b with panel := b.panel.act action, kept := b.kept.act action }
  | .shows tab => { b with panel := { b.panel with tab := tab } }

end SidePanel

/-! ## Messages -/

/-- A message that is no game event is read without an effect. -/
theorem onMessage_of_none {b : SidePanel} {resp : Response} (h : gameEvent resp = none) (now : ℤ) :
    b.onMessage now resp = b := by
  unfold SidePanel.onMessage
  rw [h]

/-- A game event is the last one, and then has its effect. -/
theorem onMessage_of_some {b : SidePanel} {resp : Response} {event : GameEvent}
    (h : gameEvent resp = some event) (now : ℤ) : b.onMessage now resp =
      { b with panel := { b.panel with lastGameEvent := some event } }.effect now := by
  unfold SidePanel.onMessage
  rw [h]

/-- What a message does to the store, it does to that of the panel whose tab moves at once. -/
theorem store_onMessage (b : SidePanel) (now : ℤ) (resp : Response) :
    (b.onMessage now resp).panel =
      { b.panel.onMessage now resp with tab := b.panel.tab, moves := b.panel.moves } := by
  unfold SidePanel.onMessage Panel.onMessage
  cases gameEvent resp with
  | none => rfl
  | some event =>
    unfold SidePanel.effect
    cases hroom : b.panel.roomId with
    | none => simp [hroom, Panel.roomEvents]
    | some roomId => simp only [hroom]

/-! ## A call that is not disturbed -/

/-- Going somewhere at once, as a call does. -/
theorem navigateActiveTab_call (p : Panel) (call : Call) :
    p.navigateActiveTab call.decide =
      match p.tab.bind call.target with
      | none => p
      | some slug => { p with tab := some (problemUrl slug), moves := p.moves ++ [slug] } := by
  unfold navigateActiveTab
  cases p.tab with
  | none => rfl
  | some url =>
    dsimp only
    rw [Option.bind_some, Call.target]
    cases call.decide url with
    | none => rfl
    | some slug =>
      dsimp only
      by_cases hstay : url = "" ∨ slug = "" ∨ parseProblemSlug url = some slug
      · rw [if_pos hstay, Option.filter_some, if_neg (by simpa [← or_iff_not_imp_left] using hstay)]
      · rw [if_neg hstay, Option.filter_some, if_pos (by simpa using hstay)]

/-- A panel with the tab of another one. -/
def Panel.keeping (q p : Panel) : Panel := { q with tab := p.tab, moves := p.moves }

/-- A call does nothing but to the tab. -/
theorem keeping_navigateActiveTab (q p : Panel) (decide : String → Option String) :
    (q.navigateActiveTab decide).keeping p = q.keeping p := by
  unfold navigateActiveTab
  split
  · rfl
  · split
    · rfl
    · split <;> rfl

/-- Putting the user into a round is writing it down, and the call for its problems. -/
theorem applyRoundData_call (p : Panel) (now : ℤ) (roomId : String) (data : Data) :
    p.applyRoundData now roomId data = (resuming (roundProblems data)).elim
      ((p.applyRoundData now roomId data).keeping p) fun call =>
        ((p.applyRoundData now roomId data).keeping p).navigateActiveTab call.decide := by
  let q : Panel := { p with
    roundEndTime := some (endTime now (roundData data))
    isRoundStarted := true
    hasRoundEnded := false
    requests := p.requests ++ [.problemProgressReset (roundKey roomId (roundData data))] }
  have happly : p.applyRoundData now roomId data = if roundProblems data ≠ [] then
      q.navigateActiveTab fun url => resolveResumeSlug url (roundProblems data) else q := rfl
  rw [happly]
  unfold resuming
  by_cases hproblems : roundProblems data ≠ []
  · rw [if_pos hproblems, if_pos hproblems, Option.elim_some, keeping_navigateActiveTab]
    rfl
  · rw [if_neg hproblems, if_neg hproblems, Option.elim_none]
    rfl

/-- The effect on an event is what it does to the store, and its call. -/
theorem roomEvents_call {p : Panel} {event : GameEvent} {roomId : String}
    (hlast : p.lastGameEvent = some event) (hroom : p.roomId = some roomId) (now : ℤ) :
    p.roomEvents now = (event.call p.userId).elim ((p.roomEvents now).keeping p) fun call =>
      ((p.roomEvents now).keeping p).navigateActiveTab call.decide := by
  obtain ⟨type, data⟩ := event
  unfold Panel.roomEvents GameEvent.call
  rw [hlast, hroom]
  cases type with
  | roundStart => exact applyRoundData_call p now roomId data
  | joinRound =>
    dsimp only
    split
    · exact applyRoundData_call p now roomId data
    · rfl
  | nextProblem =>
    cases data with
    | nextProblem nextProblem userHandle =>
      dsimp only
      split
      · rw [Option.elim_some, keeping_navigateActiveTab]
        rfl
      · rfl
    | _ => rfl
  | roundEnd => rfl

/-- When nothing else happens, the effect and its call leave the panel as if the tab had been moved
at once. -/
theorem settle_effect {b : SidePanel} (hpending : b.pending = []) (hmoving : b.moving = []) (now : ℤ) :
    (((b.effect now).query 0).arrive 0 true).panel = b.panel.roomEvents now := by
  unfold SidePanel.effect
  cases hlast : b.panel.lastGameEvent with
  | none => simp [SidePanel.query, SidePanel.arrive, hpending, hmoving, Panel.roomEvents, hlast]
  | some event =>
    cases hroom : b.panel.roomId with
    | none => simp [SidePanel.query, SidePanel.arrive, hpending, hmoving, Panel.roomEvents, hlast, hroom]
    | some roomId =>
      rw [roomEvents_call hlast hroom]
      dsimp only
      rw [hpending, List.nil_append]
      cases event.call b.panel.userId with
      | none => simp [SidePanel.query, SidePanel.arrive, hmoving, Panel.keeping]
      | some call =>
        rw [Option.elim_some, navigateActiveTab_call]
        unfold SidePanel.query
        rw [Option.toList_some, List.getElem?_cons_zero]
        dsimp only [Panel.keeping]
        cases b.panel.tab.bind call.target with
        | none => simp [SidePanel.arrive, hmoving]
        | some slug => simp [SidePanel.arrive, hmoving]

end Bsg.Extension
