import Bsg.Extension.ProblemPages
import Bsg.Extension.SidePanel

/-!
# Where the panel moves the tab

The panel moves the active tab when a round event puts the user into a round, when an accepted
submission leads him to the next problem, and when a page of the panel is loaded while a round is
kept in `chrome.storage.local`. Each of these can happen again: a room sends its history to every
connection, an effect is run again when its dependencies change, and moving the tab loads the panel
anew. All of them go through `navigateActiveTab`, which decides from the URL that the tab has.

So within a round the panel does not bounce a user who stays on the problems: it moves the tab only
when an effect is run on an event that leads him to the next problem, and once each time
(`moves_le`). Two such calls may both find the tab where it was, and then both move it.
-/

namespace Bsg.Extension

open Bsg.Foundations Bsg.Rtc Panel

/-! ## One round -/

section Round

variable (P : List String)

/-- The problems are those of the round, in any order. -/
def OfRound (problems : List String) : Prop := problems = [] ∨ ∀ slug, slug ∈ problems ↔ slug ∈ P

/-- What an event says about a round to a user, it says about this one. -/
def GameEvent.About (userId : GoText) (event : GameEvent) : Prop :=
  match event.type with
  | .roundStart => OfRound P (roundProblems event.data)
  | .joinRound => ownJoin userId event.data = true → OfRound P (roundProblems event.data)
  | .nextProblem => ∀ slug, event.data = .nextProblem slug userId → slug ∈ P
  | .roundEnd => True

/-- The event leads the user to the next problem. -/
def GameEvent.leads (userId : GoText) (event : GameEvent) : Bool :=
  match event.type, event.data with
  | .nextProblem, .nextProblem _ userHandle => userHandle = userId
  | _, _ => false

/-- A call goes to a problem of the round. -/
def Call.Within : Call → Prop
  | .resume problems => OfRound P problems
  | .lead slug => slug ∈ P

/-- A call leads the user to the next problem. -/
def Call.leads : Call → Bool
  | .resume _ => false
  | .lead _ => true

/-- The tab shows a problem of the round, or nothing of LeetCode at all. -/
def Settled (tab : Option String) : Prop :=
  ∀ url, tab = some url → includes url.toList "leetcode.com".toList = true →
    ∃ slug ∈ P, parseProblemSlug url = some slug

/-- The game events that the panel is told are about the round, and the user stays on its problems.
-/
def SidePanel.RoundOnly (b : SidePanel) : SidePanelEvent → Prop
  | .message _ resp => ∀ event, gameEvent resp = some event → event.About P b.panel.userId
  | .shows tab => Settled P tab
  | _ => True

/-- What the panel has of a round is of this one, and its tab is on one of the problems or goes
there. -/
structure SidePanel.Fits (b : SidePanel) : Prop where
  kept : OfRound P b.kept.problems
  last : ∀ event, b.panel.lastGameEvent = some event → event.About P b.panel.userId
  tab : Settled P b.panel.tab
  pending : ∀ call ∈ b.pending, call.Within P
  moving : ∀ slug ∈ b.moving, slug ∈ P

/-- One when an effect is run on an event that leads the user to the next problem. -/
def SidePanel.calls (b : SidePanel) : SidePanelEvent → ℕ
  | .message _ resp => if (gameEvent resp).any (GameEvent.leads b.panel.userId) then 1 else 0
  | .effect _ => if b.panel.lastGameEvent.any (GameEvent.leads b.panel.userId) then 1 else 0
  | _ => 0

/-- How often the panel has moved the tab, and how many calls may still lead the user on. -/
def SidePanel.weight (b : SidePanel) : ℕ := b.panel.moves.length + b.pending.countP Call.leads

/-! ## Calls -/

section Moves

variable {P}

/-- On a page of a problem of the round, the tab is settled. -/
theorem settled_problemUrl (hplain : ∀ slug ∈ P, PlainSlug slug) {slug : String} (hslug : slug ∈ P) :
    Settled P (some (problemUrl slug)) := by
  rintro url heq -
  obtain rfl := Option.some.inj heq
  exact ⟨slug, hslug, parseProblemSlug_problemUrl (hplain slug hslug)⟩

/-- A tab that is to be moved is not settled, and goes to a problem of the round. -/
theorem not_settled_of_resolve {problems : List String} (hround : OfRound P problems) {url target : String}
    (h : resolveResumeSlug url problems = some target) : ¬ Settled P (some url) ∧ target ∈ P := by
  unfold resolveResumeSlug at h
  cases problems with
  | nil => cases h
  | cons first rest =>
    dsimp only at h
    obtain hnil | hmem := hround
    · cases hnil
    split at h
    · cases h
    rename_i hother
    split at h
    · cases h
    rename_i hleetcode
    obtain rfl := Option.some.inj h
    refine ⟨fun hsettled => ?_, (hmem first).mp List.mem_cons_self⟩
    obtain ⟨slug, hslug, hparse⟩ := hsettled url rfl (by simpa using hleetcode)
    rw [hparse, Option.any_some] at hother
    exact hother (List.contains_iff_mem.mpr ((hmem slug).mpr hslug))

/-- On a settled tab, a call to go back to the round does nothing. -/
theorem target_resume_of_settled {problems : List String} (hround : OfRound P problems)
    {tab : Option String} (htab : Settled P tab) : tab.bind (Call.resume problems).target = none := by
  refine Option.eq_none_iff_forall_ne_some.mpr fun slug htarget => ?_
  obtain ⟨url, rfl, htarget⟩ := Option.bind_eq_some_iff.mp htarget
  exact (not_settled_of_resolve hround (Option.filter_eq_some_iff.mp htarget).1).1 htab

/-- The next problem is where a call that leads there moves a tab. -/
theorem eq_of_target_lead {slug target : String} {tab : Option String}
    (h : tab.bind (Call.lead slug).target = some target) : target = slug := by
  obtain ⟨url, -, htarget⟩ := Option.bind_eq_some_iff.mp h
  exact (Option.some.inj (Option.filter_eq_some_iff.mp htarget).1).symm

/-- The effect on an event about the round makes a call that goes to its problems. -/
theorem within_call {userId : GoText} {event : GameEvent} (habout : event.About P userId) {call : Call}
    (hcall : event.call userId = some call) : call.Within P := by
  -- A call that resumes goes to one of the problems that it was given.
  have hresuming : ∀ problems, OfRound P problems → resuming problems = some call → call.Within P := by
    intro problems hround hresuming
    unfold resuming at hresuming
    split_ifs at hresuming
    obtain rfl := Option.some.inj hresuming
    exact hround
  obtain ⟨type, data⟩ := event
  unfold GameEvent.call at hcall
  cases type with
  | roundStart => exact hresuming _ habout hcall
  | joinRound =>
    dsimp only at hcall
    split_ifs at hcall with hown
    exact hresuming _ (habout hown) hcall
  | nextProblem =>
    dsimp only at hcall
    split at hcall
    · split_ifs at hcall with huser
      obtain rfl := Option.some.inj hcall
      obtain ⟨-, rfl⟩ := huser
      exact habout _ rfl
    · cases hcall
  | roundEnd => cases hcall

/-- It leads the user on only if the event does. -/
theorem leads_call {userId : GoText} {event : GameEvent} {call : Call}
    (hcall : event.call userId = some call) (hleads : call.leads = true) :
    event.leads userId = true := by
  have hresuming : ∀ problems, resuming problems ≠ some call := by
    intro problems hresuming
    unfold resuming at hresuming
    split_ifs at hresuming
    obtain rfl := Option.some.inj hresuming
    cases hleads
  obtain ⟨type, data⟩ := event
  unfold GameEvent.call at hcall
  cases type with
  | roundStart => exact absurd hcall (hresuming _)
  | joinRound =>
    dsimp only at hcall
    split_ifs at hcall
    exact absurd hcall (hresuming _)
  | nextProblem =>
    dsimp only at hcall
    split at hcall
    · split_ifs at hcall with huser
      exact decide_eq_true huser.2
    · cases hcall
  | roundEnd => cases hcall

/-! ## Events -/

/-- What is kept stays of the round. -/
theorem ofRound_roomEvents {k : Kept} (hk : OfRound P k.problems) {userId : GoText}
    {event : GameEvent} (habout : event.About P userId) (now : ℤ) :
    OfRound P (k.roomEvents now userId event).problems := by
  have happly : ∀ type, OfRound P (roundProblems event.data) →
      OfRound P (k.applyRoundData now type event.data).problems := by
    intro type hdata
    unfold Kept.applyRoundData
    dsimp only
    split
    · exact hdata
    · exact hk
  obtain ⟨type, data⟩ := event
  cases type with
  | roundStart => exact happly .roundStart habout
  | joinRound =>
    unfold Kept.roomEvents
    dsimp only
    split
    · rename_i hown
      exact happly .joinRound (habout hown)
    · exact hk
  | nextProblem => exact hk
  | roundEnd => exact Or.inl rfl

/-- Whatever the panel keeps, the problems remain those of a round. -/
theorem ofRound_act {k : Kept} (hk : OfRound P k.problems) (action : PanelAction) :
    OfRound P (k.act action).problems := by
  cases action with
  | joinedRoom roomId lastRoundStatus => exact hk
  | loadedRoom now roomId lastRound =>
    cases lastRound with
    | none => exact hk
    | some round =>
      unfold Kept.act
      dsimp only
      split <;> exact hk
  | endConfirmed => exact hk
  | endSettled => exact Or.inl rfl
  | resetRoom => exact Or.inl rfl

/-- An answer of central-service leaves the tab and the user, and at most forgets the last event. -/
theorem act_store (p : Panel) (action : PanelAction) : (p.act action).tab = p.tab ∧
    (p.act action).moves = p.moves ∧ (p.act action).userId = p.userId ∧
      ∀ event, (p.act action).lastGameEvent = some event → p.lastGameEvent = some event := by
  cases action with
  | joinedRoom roomId lastRoundStatus => exact ⟨rfl, rfl, rfl, fun _ h => h⟩
  | loadedRoom now roomId lastRound =>
    unfold Panel.act Panel.loadedRoom
    dsimp only
    split
    · exact ⟨rfl, rfl, rfl, fun _ h => h⟩
    · split <;> exact ⟨rfl, rfl, rfl, fun _ h => h⟩
  | endConfirmed => exact ⟨rfl, rfl, rfl, fun _ h => h⟩
  | endSettled => exact ⟨rfl, rfl, rfl, fun _ h => h⟩
  | resetRoom => exact ⟨rfl, rfl, rfl, fun _ h => by cases h⟩

/-- Moving the tab leaves the last event. -/
@[simp] theorem lastGameEvent_navigateActiveTab (p : Panel) (decide : String → Option String) :
    (p.navigateActiveTab decide).lastGameEvent = p.lastGameEvent := by
  unfold navigateActiveTab
  split
  · rfl
  · split
    · rfl
    · split <;> rfl

/-- The effect leaves the event and the user. -/
theorem store_roomEvents (p : Panel) (now : ℤ) :
    (p.roomEvents now).lastGameEvent = p.lastGameEvent ∧ (p.roomEvents now).userId = p.userId := by
  -- The effect applies the data of a round or leads to the next problem; neither touches the event.
  have happly : ∀ (roomId : String) (data : Data),
      (p.applyRoundData now roomId data).lastGameEvent = p.lastGameEvent ∧
        (p.applyRoundData now roomId data).userId = p.userId := by
    intro roomId data
    refine ⟨?_, (applyRoundData_store p now roomId data).2.2.2.1⟩
    unfold Panel.applyRoundData
    dsimp only
    split
    · exact lastGameEvent_navigateActiveTab _ _
    · rfl
  have hlead : ∀ slug : String,
      (p.navigateActiveTab fun _ => some slug).lastGameEvent = p.lastGameEvent ∧
        (p.navigateActiveTab fun _ => some slug).userId = p.userId := fun slug =>
    ⟨lastGameEvent_navigateActiveTab p _, (navigateActiveTab_store p _).2.2.2.1⟩
  unfold Panel.roomEvents
  split
  · rename_i event roomId hlast hroom
    split
    · exact happly roomId event.data
    · split
      · exact happly roomId event.data
      · exact ⟨rfl, rfl⟩
    · split
      · split
        · exact hlead _
        · exact ⟨rfl, rfl⟩
      · exact ⟨rfl, rfl⟩
    · exact ⟨rfl, rfl⟩
  · exact ⟨rfl, rfl⟩

/-- An event that the panel is told is the last one. -/
theorem SidePanel.Fits.told {b : SidePanel} (hb : b.Fits P) {event : GameEvent}
    (hevent : event.About P b.panel.userId) :
    SidePanel.Fits P { b with panel := { b.panel with lastGameEvent := some event } } := by
  refine { hb with last := fun event' hevent' => ?_ }
  obtain rfl : event = event' := Option.some.inj hevent'
  exact hevent

/-- After the effect, what the panel has is still of the round. -/
theorem SidePanel.Fits.effect {b : SidePanel} (hb : b.Fits P) (now : ℤ) : (b.effect now).Fits P := by
  unfold SidePanel.effect
  split
  · rename_i event roomId hlast hroom
    have habout := hb.last event hlast
    obtain ⟨hevent, huser⟩ := store_roomEvents b.panel now
    refine
      { kept := ofRound_roomEvents hb.kept habout now
        last := fun event' hevent' => ?_
        tab := hb.tab
        pending := fun call hcall => ?_
        moving := hb.moving }
    · change (b.panel.roomEvents now).lastGameEvent = some event' at hevent'
      change event'.About P (b.panel.roomEvents now).userId
      rw [huser]
      exact hb.last event' (hevent ▸ hevent')
    · rcases List.mem_append.mp hcall with hcall | hcall
      · exact hb.pending call hcall
      · exact within_call habout (Option.mem_toList.mp hcall)
  · exact hb

/-- The page that reads what is kept calls for the problems of the round. -/
theorem SidePanel.Fits.resume {b : SidePanel} (hb : b.Fits P) (now : ℤ) :
    (b.resume now).Fits P ∧ (b.resume now).weight = b.weight := by
  have hcalls : SidePanel.Fits P { b with pending := b.pending ++ [.resume b.kept.problems] } ∧
      SidePanel.weight { b with pending := b.pending ++ [.resume b.kept.problems] } = b.weight := by
    refine ⟨{ hb with pending := fun call hcall => ?_ }, ?_⟩
    · rcases List.mem_append.mp hcall with hcall | hcall
      · exact hb.pending call hcall
      · rw [List.mem_singleton.mp hcall]
        exact hb.kept
    · simp [SidePanel.weight, List.countP_append, Call.leads]
  unfold SidePanel.resume
  split
  · split_ifs
    · exact ⟨hb, rfl⟩
    · dsimp only
      split_ifs
      · exact ⟨hb, rfl⟩
      · exact hcalls
    · exact ⟨hb, rfl⟩
  · exact ⟨hb, rfl⟩

/-- A call that is over is one of its kind less. -/
theorem countP_eraseIdx {calls : List Call} {i : ℕ} {call : Call} (h : calls[i]? = some call) :
    (calls.eraseIdx i).countP Call.leads + (if call.leads then 1 else 0) =
      calls.countP Call.leads := by
  obtain ⟨hi, rfl⟩ := List.getElem?_eq_some_iff.mp h
  rw [← (List.getElem_cons_eraseIdx_perm hi).countP_eq Call.leads, List.countP_cons]

/-- A call moves the tab only if it leads the user on, and is over then. -/
theorem SidePanel.Fits.query {b : SidePanel} (hb : b.Fits P) (i : ℕ) :
    (b.query i).Fits P ∧ (b.query i).weight ≤ b.weight := by
  have hpending : ∀ call ∈ b.pending.eraseIdx i, call.Within P := fun call hcall =>
    hb.pending call (List.mem_of_mem_eraseIdx hcall)
  unfold SidePanel.query
  cases hi : b.pending[i]? with
  | none => exact ⟨hb, le_rfl⟩
  | some call =>
    have hcall : call.Within P := hb.pending call (List.mem_of_getElem? hi)
    have hcount := countP_eraseIdx hi
    dsimp only
    cases htarget : b.panel.tab.bind call.target with
    | none =>
      refine ⟨{ hb with pending := hpending }, ?_⟩
      unfold SidePanel.weight
      dsimp only
      omega
    | some slug =>
      cases call with
      -- A settled tab is not moved by a call that resumes.
      | resume problems => rw [target_resume_of_settled hcall hb.tab] at htarget; cases htarget
      | lead nextProblem =>
        obtain rfl := eq_of_target_lead htarget
        refine ⟨{ hb with pending := hpending, moving := fun other hother => ?_ }, ?_⟩
        · rcases List.mem_append.mp hother with hother | hother
          · exact hb.moving other hother
          · rwa [List.mem_singleton.mp hother]
        · unfold SidePanel.weight
          rw [List.length_append, List.length_singleton]
          simp only [Call.leads, if_true] at hcount
          dsimp only
          omega

/-- A tab that arrives shows a problem of the round. -/
theorem SidePanel.Fits.arrive (hplain : ∀ slug ∈ P, PlainSlug slug) {b : SidePanel} (hb : b.Fits P)
    (i : ℕ) (active : Bool) : (b.arrive i active).Fits P ∧ (b.arrive i active).weight = b.weight := by
  unfold SidePanel.arrive
  cases hi : b.moving[i]? with
  | none => exact ⟨hb, rfl⟩
  | some slug =>
    have hslug : slug ∈ P := hb.moving slug (List.mem_of_getElem? hi)
    refine ⟨{ hb with
      tab := ?_
      moving := fun other hother => hb.moving other (List.mem_of_mem_eraseIdx hother) }, rfl⟩
    cases active with
    | false => exact hb.tab
    | true => exact settled_problemUrl hplain hslug

/-- An answer of central-service leaves what the panel has of the round, and its calls. -/
theorem SidePanel.Fits.central {b : SidePanel} (hb : b.Fits P) (action : PanelAction) :
    (b.step (.central action)).Fits P ∧ (b.step (.central action)).weight = b.weight := by
  obtain ⟨htab, hmoves, huser, hlast⟩ := act_store b.panel action
  refine ⟨
    { kept := ofRound_act hb.kept action
      last := fun event hevent => ?_
      tab := ?_
      pending := hb.pending
      moving := hb.moving }, ?_⟩
  · change event.About P (b.panel.act action).userId
    rw [huser]
    exact hb.last event (hlast event hevent)
  · change Settled P (b.panel.act action).tab
    rw [htab]
    exact hb.tab
  · change (b.panel.act action).moves.length + _ = b.panel.moves.length + _
    rw [hmoves]
    rfl

/-- The effect makes a call that leads the user on only on an event that does. -/
theorem weight_effect (b : SidePanel) (now : ℤ) : (b.effect now).weight ≤ b.weight +
    if b.panel.lastGameEvent.any (GameEvent.leads b.panel.userId) then 1 else 0 := by
  unfold SidePanel.effect
  split
  · rename_i event roomId hlast hroom
    rw [hlast, Option.any_some]
    unfold SidePanel.weight
    dsimp only
    rw [List.countP_append]
    have hcall : (event.call b.panel.userId).toList.countP Call.leads ≤
        if event.leads b.panel.userId then 1 else 0 := by
      cases hcall : event.call b.panel.userId with
      | none => exact Nat.zero_le _
      | some call =>
        cases hleads : call.leads with
        | false => simp [hleads]
        | true => rw [if_pos (leads_call hcall hleads)]; simp [hleads]
    omega
  · exact Nat.le_add_right _ _

/-- An event leaves the panel within the round, and moves the tab no more often than it calls for.
-/
theorem SidePanel.Fits.step (hplain : ∀ slug ∈ P, PlainSlug slug) {b : SidePanel} (hb : b.Fits P)
    {e : SidePanelEvent} (he : b.RoundOnly P e) :
    (b.step e).Fits P ∧ (b.step e).weight ≤ b.weight + b.calls e := by
  cases e with
  | message now resp =>
    change (b.onMessage now resp).Fits P ∧ (b.onMessage now resp).weight ≤ _
    unfold SidePanel.calls
    dsimp only
    cases hevent : gameEvent resp with
    | none =>
      rw [onMessage_of_none hevent]
      exact ⟨hb, Nat.le_add_right _ _⟩
    | some event =>
      rw [onMessage_of_some hevent]
      -- The new event is stored, and the effect is run on it.
      exact ⟨(hb.told (he event hevent)).effect now, weight_effect _ now⟩
  | effect now => exact ⟨hb.effect now, weight_effect b now⟩
  | reloaded =>
    refine ⟨
      { hb with
        last := fun _ h => nomatch h
        pending := fun _ h => nomatch h }, ?_⟩
    exact Nat.add_le_add_left (Nat.zero_le _) _
  | resumed now => exact (hb.resume now).imp_right le_of_eq
  | queried i => exact hb.query i
  | failed i =>
    have hpending : ∀ call ∈ b.pending.eraseIdx i, call.Within P := fun call hcall =>
      hb.pending call (List.mem_of_mem_eraseIdx hcall)
    refine ⟨{ hb with pending := hpending }, ?_⟩
    exact Nat.add_le_add_left ((List.eraseIdx_sublist _ _).countP_le) _
  | arrived i active => exact (hb.arrive hplain i active).imp_right le_of_eq
  | central action => exact (hb.central action).imp_right le_of_eq
  | shows tab => exact ⟨{ hb with tab := he }, le_rfl⟩

end Moves

/-- While a room is in one round and the user stays on its problems, the panel moves the tab only
when an effect is run on an event that leads him to the next problem, and once each time: however
often it is loaded anew and reads the room's history again, and in whatever order its calls come
through. -/
theorem moves_le (hplain : ∀ slug ∈ P, PlainSlug slug) (b : SidePanel) (hb : b.Fits P)
    (es : List SidePanelEvent) (hes : Along SidePanel.step (SidePanel.RoundOnly P) b es) :
    (run SidePanel.step b es).panel.moves.length ≤
      b.panel.moves.length + b.pending.countP Call.leads + total SidePanel.step SidePanel.calls b es := by
  have hweight : (run SidePanel.step b es).weight ≤
      b.weight + total SidePanel.step SidePanel.calls b es :=
    le_total (I := SidePanel.Fits P) (w := SidePanel.weight)
      (fun b e hb he => (SidePanel.Fits.step hplain hb he).1)
      (fun b e hb he => (SidePanel.Fits.step hplain hb he).2) hb hes
  exact (Nat.le_add_right _ _).trans hweight

end Round

/-- The problems of a round. -/
def twoProblems : List String := ["two-sum", "three-sum"]

/-- Alice's join of the round. -/
def joinTwo : Response :=
  newOkResponse .roundJoin (.joinRound ⟨utf8 "alice", [], .inProgress, 2, 3, 30, twoProblems⟩) "room"

/-- Alice is led to the second problem. -/
def nextTwo : Response := newOkResponse .nextProblem (.nextProblem "three-sum" (utf8 "alice")) "room"

/-- The join is about the round. -/
theorem about_joinTwo (userId : GoText) (event : GameEvent) (h : gameEvent joinTwo = some event) :
    event.About twoProblems userId := by
  have hevent : gameEvent joinTwo = some ⟨.joinRound, joinTwo.respMessage.data⟩ := by decide +kernel
  obtain rfl := Option.some.inj (hevent.symm.trans h)
  exact fun _ => Or.inr fun slug => Iff.rfl

/-- So is the way to the second problem. -/
theorem about_nextTwo (userId : GoText) (event : GameEvent) (h : gameEvent nextTwo = some event) :
    event.About twoProblems userId := by
  have hevent : gameEvent nextTwo = some ⟨.nextProblem, nextTwo.respMessage.data⟩ := by decide +kernel
  obtain rfl := Option.some.inj (hevent.symm.trans h)
  rintro slug heq
  obtain ⟨rfl, -⟩ := Data.nextProblem.inj heq
  exact List.mem_cons_of_mem _ List.mem_cons_self

/-- Alice, on the first problem, reads her join and is led to the second problem, while the call of
the join still waits; her panel is loaded anew there, and reads her join once more. -/
def readsAgain : List SidePanelEvent :=
  [.message 3000 joinTwo, .message 3100 nextTwo, .queried 1, .arrived 0 true, .queried 0, .reloaded,
    .central (.loadedRoom 3500 "room" (some ⟨"started", 2000, 30⟩)), .resumed 3500,
    .message 3600 joinTwo, .queried 0, .queried 0]

/-- Alice's panel on the first problem, with nothing kept. -/
def aliceOnFirst : SidePanel :=
  ⟨{ loadedPanel (utf8 "alice") with tab := some (problemUrl "two-sum") }, ⟨none, [], none⟩, none, [], []⟩

/-- Of all this, the tab is moved once at most. -/
theorem moves_le_readsAgain : (run SidePanel.step aliceOnFirst readsAgain).panel.moves.length ≤ 1 := by
  have hplain : ∀ slug ∈ twoProblems, PlainSlug slug := by
    intro slug hslug
    simp only [twoProblems, List.mem_cons, List.not_mem_nil, or_false] at hslug
    rcases hslug with rfl | rfl
    · exact ⟨by decide, by decide, by decide, by decide⟩
    · exact ⟨by decide, by decide, by decide, by decide⟩
  have hfits : aliceOnFirst.Fits twoProblems :=
    { kept := Or.inl rfl
      last := fun event h => by cases h
      tab := settled_problemUrl hplain List.mem_cons_self
      pending := fun call h => by cases h
      moving := fun slug h => by cases h }
  refine (moves_le twoProblems hplain aliceOnFirst hfits readsAgain ?_).trans (by decide +kernel)
  exact ⟨about_joinTwo _, about_nextTwo _, trivial, trivial, trivial, trivial, trivial, trivial,
    about_joinTwo _, trivial, trivial, trivial⟩

end Bsg.Extension
