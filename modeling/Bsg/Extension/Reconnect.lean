import Bsg.Extension.SidePanel

/-!
# A panel that connects again

A panel that connects to a room reads its history, and its page, if it was loaded anew, reads what
is kept of the round. Both can take a round that is over for one that runs: the history has the
user's own join as it was when he joined, and what is kept has the end time that the round was to
have. `stays_over_iff` says that there is no third way, for any order in which the messages, the
page and its calls come.
-/

namespace Bsg.Extension

open Bsg.Foundations Bsg.Rtc Panel

/-! ## Connecting again -/

/-- What happens while a panel connects again: it reads messages, its page reads what is kept, and
its calls are answered. -/
def SidePanelEvent.Reads : SidePanelEvent → Prop
  | .message .. | .resumed _ | .queried _ | .arrived .. => True
  | .effect _ | .reloaded | .failed _ | .central _ | .shows _ => False

instance : DecidablePred SidePanelEvent.Reads
  | .message .. | .resumed _ | .queried _ | .arrived .. => inferInstanceAs (Decidable True)
  | .effect _ | .reloaded | .failed _ | .central _ | .shows _ => inferInstanceAs (Decidable False)

/-- The message that an event is about. -/
def SidePanelEvent.read : SidePanelEvent → Option Response
  | .message _ resp => some resp
  | _ => none

/-- The panel is not in a round, and was moved to none of the problems. -/
def StaysOver (before after : Panel) (problems : List String) : Prop :=
  after.isRoundStarted = false ∧
    ∀ slug ∈ after.moves.drop before.moves.length, slug ∉ problems

instance (before after : Panel) (problems : List String) :
    Decidable (StaysOver before after problems) := inferInstanceAs (Decidable (_ ∧ ∀ _ ∈ _, _))

/-! ## What is kept of a round -/

/-- What is kept says that a round runs, and the page has not seen the event that began it. -/
structure Kept.Running (k : Kept) (seen : Option GameEventType) (now : ℤ) : Prop where
  entered : k.lastGameEvent = some .roundStart ∨ k.lastGameEvent = some .joinRound
  unseen : seen ≠ k.lastGameEvent
  runs : ∃ t, k.roundEndTime = some t ∧ t ≠ 0 ∧ now < t

/-- The tab shows a page of LeetCode that is none of the problems kept; the first of these is
`slug`. -/
structure SidePanel.Strayed (b : SidePanel) (slug : String) : Prop where
  first : b.kept.problems.head? = some slug
  named : slug ≠ ""
  elsewhere : ∃ url, b.panel.tab = some url ∧ includes url.toList "leetcode.com".toList = true ∧
    ∀ other, parseProblemSlug url = some other → other ∉ b.kept.problems

/-- The type of the last game event that the page has seen. -/
def SidePanel.seen (b : SidePanel) (es : List SidePanelEvent) : Option GameEventType :=
  (((es.filterMap SidePanelEvent.read).filterMap gameEvent).getLast?.map GameEvent.type).or b.lastGame

/-- The page reads what is kept at a time when it says that a round runs. -/
def SidePanel.FindsRound (b : SidePanel) (es : List SidePanelEvent) : Prop :=
  ∃ before now after, es = before ++ .resumed now :: after ∧ b.kept.Running (b.seen before) now

/-- The tab is to go to the problem `slug` of the round that is kept. -/
def SidePanel.Resumes (b : SidePanel) (es : List SidePanelEvent) (slug : String) : Prop :=
  b.Strayed slug ∧ b.FindsRound es

/-- The page finds the round in one event more exactly when it did before, or does so now. -/
theorem findsRound_snoc {b : SidePanel} {es : List SidePanelEvent} {e : SidePanelEvent} :
    b.FindsRound (es ++ [e]) ↔
      b.FindsRound es ∨ ∃ now, e = .resumed now ∧ b.kept.Running (b.seen es) now := by
  constructor
  · rintro ⟨before, now, after, heq, hrunning⟩
    rcases List.eq_nil_or_concat after with rfl | ⟨after, last, rfl⟩
    · obtain ⟨rfl, hlast⟩ := List.append_inj' heq rfl
      exact Or.inr ⟨now, List.singleton_inj.mp hlast, hrunning⟩
    · refine Or.inl ⟨before, now, after, ?_, hrunning⟩
      rw [List.concat_eq_append, ← List.cons_append, ← List.append_assoc] at heq
      exact (List.append_inj' heq rfl).1
  · rintro (⟨before, now, after, rfl, hrunning⟩ | ⟨now, rfl, hrunning⟩)
    · exact ⟨before, now, after ++ [e], by simp, hrunning⟩
    · exact ⟨es, now, [], rfl, hrunning⟩

/-- The problem to which a call that goes back moves a tab. -/
theorem target_resume {problems : List String} {url slug : String} :
    (Call.resume problems).target url = some slug ↔
      resolveResumeSlug url problems = some slug ∧
        ¬ (url = "" ∨ slug = "" ∨ parseProblemSlug url = some slug) := by
  unfold Call.target
  rw [Option.filter_eq_some_iff, decide_eq_true_iff]
  rfl

/-- It is the first problem, and the tab is at LeetCode and on none of them. -/
theorem resolveResumeSlug_iff {problems : List String} {url slug : String} :
    resolveResumeSlug url problems = some slug ↔
      problems.head? = some slug ∧ includes url.toList "leetcode.com".toList = true ∧
        ∀ other, parseProblemSlug url = some other → other ∉ problems := by
  cases problems with
  | nil => simp [resolveResumeSlug]
  | cons first rest =>
    unfold resolveResumeSlug
    dsimp only
    cases hslug : parseProblemSlug url <;> cases hleet : includes url.toList "leetcode.com".toList <;>
      simp [and_comm]

/-- The panel goes back to the first problem kept when the tab has strayed from the round. -/
theorem target_resume_iff {b : SidePanel} {slug : String} :
    b.panel.tab.bind (Call.resume b.kept.problems).target = some slug ↔ b.Strayed slug := by
  rw [Option.bind_eq_some_iff]
  constructor
  · rintro ⟨url, htab, htarget⟩
    obtain ⟨hresolve, hmoves⟩ := target_resume.mp htarget
    obtain ⟨hfirst, hleet, hother⟩ := resolveResumeSlug_iff.mp hresolve
    exact ⟨hfirst, fun hname => hmoves (Or.inr (Or.inl hname)), url, htab, hleet, hother⟩
  · rintro ⟨hfirst, hname, url, htab, hleet, hother⟩
    refine ⟨url, htab, target_resume.mpr ⟨resolveResumeSlug_iff.mpr ⟨hfirst, hleet, hother⟩, ?_⟩⟩
    rintro (rfl | hempty | hslug)
    · exact absurd hleet (by decide)
    · exact hname hempty
    · exact hother slug hslug (List.mem_of_head? hfirst)

/-- A tab that is to go back goes to the first problem. -/
theorem head_of_target {problems : List String} {tab : Option String} {slug : String}
    (h : tab.bind (Call.resume problems).target = some slug) : problems.head? = some slug := by
  obtain ⟨url, -, htarget⟩ := Option.bind_eq_some_iff.mp h
  exact (resolveResumeSlug_iff.mp (target_resume.mp htarget).1).1

/-- What the page does when it reads what is kept. -/
theorem resume_eq {b : SidePanel} {roomId : String} (hroom : b.panel.roomId = some roomId) (now : ℤ) :
    b.kept.Running b.lastGame now ∧ b.kept.problems ≠ [] ∧
        b.resume now = { b with pending := b.pending ++ [.resume b.kept.problems] } ∨
      ¬ (b.kept.Running b.lastGame now ∧ b.kept.problems ≠ []) ∧ b.resume now = b := by
  unfold SidePanel.resume
  rw [hroom]
  cases hlast : b.kept.lastGameEvent with
  | none =>
    refine Or.inr ⟨fun h => ?_, rfl⟩
    rcases h.1.entered with h | h <;> rw [hlast] at h <;> cases h
  | some lastGameEvent =>
    dsimp only
    by_cases hseen : b.lastGame = some lastGameEvent
    · rw [if_pos hseen]
      exact Or.inr ⟨fun h => h.1.unseen (hseen.trans hlast.symm), rfl⟩
    rw [if_neg hseen]
    by_cases hentered : lastGameEvent = .roundStart ∨ lastGameEvent = .joinRound
    · rw [if_pos hentered]
      -- A stored end time that is not zero and not over says that the round runs.
      have hruns : b.kept.roundEndTime.any (fun t => t ≠ 0 && t > now) = true ↔
          ∃ t, b.kept.roundEndTime = some t ∧ t ≠ 0 ∧ now < t := by simp [Option.any_eq_true]
      have hrunning : b.kept.Running b.lastGame now ↔
          b.kept.roundEndTime.any (fun t => t ≠ 0 && t > now) = true := by
        rw [hruns]
        exact ⟨fun h => h.runs, fun h => ⟨by simpa [hlast] using hentered, by rwa [hlast], h⟩⟩
      rw [hrunning]
      by_cases hresumes : b.kept.roundEndTime.any (fun t => t ≠ 0 && t > now) = true ∧
        b.kept.problems ≠ []
      · refine Or.inl ⟨hresumes.1, hresumes.2, ?_⟩
        rw [if_neg (by rw [hresumes.1]; simpa using hresumes.2)]
      · refine Or.inr ⟨hresumes, ?_⟩
        rw [if_pos (by simpa [imp_iff_not_or] using hresumes)]
    · rw [if_neg hentered]
      refine Or.inr ⟨fun h => hentered ?_, rfl⟩
      simpa [hlast] using h.1.entered

/-! ## While nothing puts the user into a round -/

/-- What the page does to the messages that it read is to have seen them. -/
theorem seen_snoc_message (b : SidePanel) (es : List SidePanelEvent) (now : ℤ) (resp : Response) :
    b.seen (es ++ [.message now resp]) = ((gameEvent resp).map GameEvent.type).or (b.seen es) := by
  unfold SidePanel.seen
  rw [List.filterMap_append, List.filterMap_append]
  cases hevent : gameEvent resp with
  | none => simp [SidePanelEvent.read, hevent]
  | some event => simp [SidePanelEvent.read, hevent]

/-- What is no message leaves what the page has seen. -/
theorem seen_snoc_of_none (b : SidePanel) (es : List SidePanelEvent) {e : SidePanelEvent}
    (he : e.read = none) : b.seen (es ++ [e]) = b.seen es := by
  simp [SidePanel.seen, he]

/-- The message of a replay that is not of the user's round leaves all but the last event. -/
theorem onMessage_quiet {b : SidePanel} {resp : Response} {roomId : String}
    (hroom : b.panel.roomId = some roomId) (hreplayed : resp.respType.replayed = true)
    (hother : ownRound b.panel.userId resp = false) (now : ℤ) :
    ∃ event, b.onMessage now resp =
      { b with
        panel := { b.panel with lastGameEvent := event }
        lastGame := ((gameEvent resp).map GameEvent.type).or b.lastGame } := by
  cases hevent : gameEvent resp with
  | none => exact ⟨b.panel.lastGameEvent, by rw [onMessage_of_none hevent]; rfl⟩
  | some event =>
    have hjoin := hevent
    rw [gameEvent_of_replayed hreplayed] at hjoin
    split_ifs at hjoin with hround
    obtain rfl := Option.some.inj hjoin
    have hnot : ownJoin b.panel.userId resp.respMessage.data = false := by
      simpa [ownRound, hround] using hother
    refine ⟨some ⟨.joinRound, resp.respMessage.data⟩, ?_⟩
    rw [onMessage_of_some hevent]
    unfold SidePanel.effect
    simp [hroom, Panel.roomEvents, Kept.roomEvents, GameEvent.call, hnot]

/-- The side panel after the events, when nothing that it reads puts the user into a round: `b` is
what it was. It can only have gone back to the round that is kept. -/
structure Quiet (b : SidePanel) (es : List SidePanelEvent) (b' : SidePanel) : Prop where
  user : b'.panel.userId = b.panel.userId
  room : b'.panel.roomId = b.panel.roomId
  started : b'.panel.isRoundStarted = b.panel.isRoundStarted
  kept : b'.kept = b.kept
  seen : b'.lastGame = b.seen es
  pending : ∀ call ∈ b'.pending, call = .resume b.kept.problems ∧ b.FindsRound es
  moving : ∀ slug ∈ b'.moving, b.Strayed slug
  back : ∀ slug, b'.panel.tab.bind (Call.resume b.kept.problems).target = some slug → b.Strayed slug
  moves : ∃ slugs, b'.panel.moves = b.panel.moves ++ slugs ∧ (∀ slug ∈ slugs, b.Resumes es slug) ∧
    (slugs = [] → b'.panel.tab = b.panel.tab ∧ b'.moving = [] ∧
      ∀ slug, b.Resumes es slug → b'.pending ≠ [])

namespace Quiet

variable {b b' : SidePanel} {es : List SidePanelEvent}

/-- Before anything happens. -/
theorem nil (hpending : b.pending = []) (hmoving : b.moving = []) : Quiet b [] b where
  user := rfl
  room := rfl
  started := rfl
  kept := rfl
  seen := rfl
  pending call hcall := by simp [hpending] at hcall
  moving slug hslug := by simp [hmoving] at hslug
  back slug h := target_resume_iff.mp h
  moves := by
    refine ⟨[], (List.append_nil _).symm, fun slug h => by simp at h, fun _ => ⟨rfl, hmoving, ?_⟩⟩
    rintro slug ⟨-, before, now, after, heq, -⟩
    simp at heq

/-- Nothing but reading what is kept finds the round. -/
theorem findsRound_of_ne {e : SidePanelEvent} (he : ∀ now, e ≠ .resumed now) :
    b.FindsRound (es ++ [e]) ↔ b.FindsRound es := by
  rw [findsRound_snoc]
  exact or_iff_left fun ⟨now, heq, _⟩ => he now heq

/-- An event that does nothing yet. -/
theorem same (h : Quiet b es b') {e : SidePanelEvent} (he : e.read = none)
    (hfinds : ∀ slug, b.Resumes (es ++ [e]) slug → b.Resumes es slug) : Quiet b (es ++ [e]) b' := by
  obtain ⟨slugs, hmoves, hresumes, hnone⟩ := h.moves
  have hmore : b.FindsRound es → b.FindsRound (es ++ [e]) := fun hfound =>
    findsRound_snoc.mpr (Or.inl hfound)
  exact
    { user := h.user
      room := h.room
      started := h.started
      kept := h.kept
      seen := h.seen.trans (seen_snoc_of_none b es he).symm
      pending := fun call hcall => (h.pending call hcall).imp_right hmore
      moving := h.moving
      back := h.back
      moves := ⟨slugs, hmoves, fun slug hslug => (hresumes slug hslug).imp_right hmore, fun hnil =>
        (hnone hnil).imp_right fun hrest => hrest.imp_right fun hcalled slug hslug =>
          hcalled slug (hfinds slug hslug)⟩ }

/-- A message that puts the user into no round. -/
theorem message (h : Quiet b es b') {roomId : String} (hroom : b.panel.roomId = some roomId) (now : ℤ)
    {resp : Response} (hreplayed : resp.respType.replayed = true)
    (hother : ownRound b.panel.userId resp = false) :
    Quiet b (es ++ [.message now resp]) (b'.onMessage now resp) := by
  obtain ⟨event, hsame⟩ :=
    onMessage_quiet (h.room.trans hroom) hreplayed (by rw [h.user]; exact hother) now
  have hfinds : b.FindsRound (es ++ [.message now resp]) ↔ b.FindsRound es :=
    findsRound_of_ne fun now heq => by cases heq
  rw [hsame]
  obtain ⟨slugs, hmoves, hresumes, hnone⟩ := h.moves
  exact
    { user := h.user
      room := h.room
      started := h.started
      kept := h.kept
      seen := by rw [seen_snoc_message, h.seen]
      pending := fun call hcall => (h.pending call hcall).imp_right hfinds.mpr
      moving := h.moving
      back := h.back
      moves := ⟨slugs, hmoves, fun slug hslug => (hresumes slug hslug).imp_right hfinds.mpr, fun hnil =>
        (hnone hnil).imp_right fun hrest => hrest.imp_right fun hcalled slug hslug =>
          hcalled slug (hslug.imp_right hfinds.mp)⟩ }

/-- The page reads what is kept. -/
theorem resumed (h : Quiet b es b') {roomId : String} (hroom : b.panel.roomId = some roomId) (now : ℤ) :
    Quiet b (es ++ [.resumed now]) (b'.resume now) := by
  rcases resume_eq (h.room.trans hroom) now with ⟨hrunning, hproblems, hsame⟩ | ⟨hnot, hsame⟩
  all_goals rw [hsame]
  · rw [h.kept, h.seen] at hrunning
    have hfinds : b.FindsRound (es ++ [.resumed now]) :=
      findsRound_snoc.mpr (Or.inr ⟨now, rfl, hrunning⟩)
    obtain ⟨slugs, hmoves, hresumes, hnone⟩ := h.moves
    refine
      { user := h.user
        room := h.room
        started := h.started
        kept := h.kept
        seen := h.seen.trans (seen_snoc_of_none b es rfl).symm
        pending := fun call hcall => ?_
        moving := h.moving
        back := h.back
        moves := ⟨slugs, hmoves, fun slug hslug => ⟨(hresumes slug hslug).1, hfinds⟩, fun hnil =>
          (hnone hnil).imp_right fun hrest => ⟨hrest.1, fun _ _ => by simp⟩⟩ }
    rcases List.mem_append.mp hcall with hcall | hcall
    · exact ⟨(h.pending call hcall).1, hfinds⟩
    · rw [List.mem_singleton.mp hcall, h.kept]
      exact ⟨rfl, hfinds⟩
  · rw [h.kept, h.seen] at hnot
    -- The page finds nothing new, or what it finds has no problem to go to.
    refine h.same rfl fun slug ⟨hstrayed, hfinds⟩ => ?_
    rcases findsRound_snoc.mp hfinds with hfinds | ⟨now', heq, hrunning⟩
    · exact ⟨hstrayed, hfinds⟩
    · obtain rfl : now = now' := by simpa using heq
      refine absurd ⟨hrunning, fun hnil => ?_⟩ hnot
      have hfirst := hstrayed.first
      rw [hnil] at hfirst
      cases hfirst

/-- A call is told the active tab. -/
theorem queried (h : Quiet b es b') (i : ℕ) : Quiet b (es ++ [.queried i]) (b'.query i) := by
  have hfinds : b.FindsRound (es ++ [.queried i]) ↔ b.FindsRound es :=
    findsRound_of_ne fun now heq => by cases heq
  have h' : Quiet b (es ++ [.queried i]) b' := h.same rfl fun slug hslug => hslug.imp_right hfinds.mp
  obtain ⟨slugs, hmoves, hresumes, hnone⟩ := h'.moves
  have hpending : ∀ call ∈ b'.pending.eraseIdx i,
      call = .resume b.kept.problems ∧ b.FindsRound (es ++ [.queried i]) := fun call hcall =>
    h'.pending call (List.mem_of_mem_eraseIdx hcall)
  unfold SidePanel.query
  cases hi : b'.pending[i]? with
  | none => exact h'
  | some call =>
    obtain ⟨rfl, hfound⟩ := h'.pending call (List.mem_of_getElem? hi)
    dsimp only
    cases htarget : b'.panel.tab.bind (Call.resume b.kept.problems).target with
    | none =>
      refine { h' with
        pending := hpending
        moves := ⟨slugs, hmoves, hresumes, fun hnil => ?_⟩ }
      obtain ⟨htab, hmoving, -⟩ := hnone hnil
      refine ⟨htab, hmoving, fun slug hslug => ?_⟩
      -- The tab is where it was, so it had not strayed.
      have hstrayed := target_resume_iff.mpr hslug.1
      rw [← htab, htarget] at hstrayed
      cases hstrayed
    | some slug =>
      have hstrayed : b.Strayed slug := h'.back slug htarget
      refine { h' with
        pending := hpending
        moving := fun other hother => ?_
        moves := ⟨slugs ++ [slug], ?_, fun other hother => ?_, fun hnil => absurd hnil (by simp)⟩ }
      · rcases List.mem_append.mp hother with hother | hother
        · exact h'.moving other hother
        · rwa [List.mem_singleton.mp hother]
      · dsimp only
        rw [hmoves, List.append_assoc]
      · rcases List.mem_append.mp hother with hother | hother
        · exact hresumes other hother
        · rw [List.mem_singleton.mp hother]
          exact ⟨hstrayed, hfound⟩

/-- A move is over. -/
theorem arrived (h : Quiet b es b') (i : ℕ) (active : Bool) :
    Quiet b (es ++ [.arrived i active]) (b'.arrive i active) := by
  have hfinds : b.FindsRound (es ++ [.arrived i active]) ↔ b.FindsRound es :=
    findsRound_of_ne fun now heq => by cases heq
  have h' : Quiet b (es ++ [.arrived i active]) b' :=
    h.same rfl fun slug hslug => hslug.imp_right hfinds.mp
  obtain ⟨slugs, hmoves, hresumes, hnone⟩ := h'.moves
  unfold SidePanel.arrive
  cases hi : b'.moving[i]? with
  | none => exact h'
  | some slug =>
    have hmem : slug ∈ b'.moving := List.mem_of_getElem? hi
    have hstrayed : b.Strayed slug := h'.moving slug hmem
    refine { h' with
      moving := fun other hother => h'.moving other (List.mem_of_mem_eraseIdx hother)
      back := fun other hother => ?_
      moves := ⟨slugs, hmoves, hresumes, fun hnil => ?_⟩ }
    · cases active with
      | false => exact h'.back other hother
      | true =>
        -- From the problem to which it went, the tab could only go there again.
        have hfirst := head_of_target hother
        rw [hstrayed.first] at hfirst
        rwa [← Option.some.inj hfirst]
    · rw [(hnone hnil).2.1] at hmem
      cases hmem

end Quiet

/-- What the side panel has done after the events of a connection, when it reads no own join. -/
theorem quiet_run {b : SidePanel} {roomId : String} (hroom : b.panel.roomId = some roomId)
    (hpending : b.pending = []) (hmoving : b.moving = []) (es : List SidePanelEvent)
    (hes : ∀ e ∈ es, e.Reads) (hreplayed : ∀ resp ∈ es.filterMap SidePanelEvent.read,
      resp.respType.replayed = true ∧ ownRound b.panel.userId resp = false) :
    Quiet b es (run SidePanel.step b es) := by
  induction es using List.reverseRecOn with
  | nil => exact .nil hpending hmoving
  | append_singleton es e ih =>
    rw [List.filterMap_append] at hreplayed
    have h := ih (fun e' he' => hes e' (List.mem_append_left _ he')) fun resp hresp =>
      hreplayed resp (List.mem_append_left _ hresp)
    have he := hes e (List.mem_append_right _ List.mem_cons_self)
    rw [run_snoc]
    cases e with
    -- A replayed message of another round is read without a call.
    | message now resp =>
      obtain ⟨hold, hother⟩ := hreplayed resp (List.mem_append_right _ List.mem_cons_self)
      exact h.message hroom now hold hother
    | resumed now => exact h.resumed hroom now
    | queried i => exact h.queried i
    | arrived i active => exact h.arrived i active
    | effect now => cases he
    | reloaded => cases he
    | failed i => cases he
    | central action => cases he
    | shows tab => cases he

/-! ## The round in the store -/

/-- What an event does to the round in the store, when it reads what a room sends again. -/
theorem started_step {b : SidePanel} {roomId : String} (hroom : b.panel.roomId = some roomId)
    {e : SidePanelEvent} (he : e.Reads)
    (hreplayed : ∀ resp, e.read = some resp → resp.respType.replayed = true) :
    (b.step e).panel.userId = b.panel.userId ∧ (b.step e).panel.roomId = b.panel.roomId ∧
      (b.step e).panel.isRoundStarted =
        (b.panel.isRoundStarted || e.read.any (ownRound b.panel.userId)) := by
  cases e with
  -- Only a message can start a round.
  | message now resp =>
    obtain ⟨huser, hid, hstarted, -⟩ := b.panel.onMessage_replayed hroom (hreplayed resp rfl) now
    change (b.onMessage now resp).panel.userId = _ ∧ (b.onMessage now resp).panel.roomId = _ ∧
      (b.onMessage now resp).panel.isRoundStarted = _
    rw [store_onMessage]
    exact ⟨huser, hid, hstarted⟩
  | resumed now =>
    have hsame : (b.resume now).panel = b.panel := by
      rcases resume_eq hroom now with ⟨-, -, hsame⟩ | ⟨-, hsame⟩ <;> rw [hsame]
    change (b.resume now).panel.userId = _ ∧ (b.resume now).panel.roomId = _ ∧
      (b.resume now).panel.isRoundStarted = _
    rw [hsame]
    exact ⟨rfl, rfl, (Bool.or_false _).symm⟩
  | queried i =>
    change (b.query i).panel.userId = _ ∧ (b.query i).panel.roomId = _ ∧
      (b.query i).panel.isRoundStarted = _
    unfold SidePanel.query
    split
    · exact ⟨rfl, rfl, (Bool.or_false _).symm⟩
    · split <;> exact ⟨rfl, rfl, (Bool.or_false _).symm⟩
  | arrived i active =>
    change (b.arrive i active).panel.userId = _ ∧ (b.arrive i active).panel.roomId = _ ∧
      (b.arrive i active).panel.isRoundStarted = _
    unfold SidePanel.arrive
    split <;> exact ⟨rfl, rfl, (Bool.or_false _).symm⟩
  | effect now => cases he
  | reloaded => cases he
  | failed i => cases he
  | central action => cases he
  | shows tab => cases he

/-- Whatever happens on connecting again, the store is in a round when it was before, or when an own
join was read. -/
theorem started_run {b : SidePanel} {roomId : String} (hroom : b.panel.roomId = some roomId)
    (es : List SidePanelEvent) (hes : ∀ e ∈ es, e.Reads)
    (hreplayed : ∀ resp ∈ es.filterMap SidePanelEvent.read, resp.respType.replayed = true) :
    (run SidePanel.step b es).panel.isRoundStarted =
      (b.panel.isRoundStarted ||
        (es.filterMap SidePanelEvent.read).any (ownRound b.panel.userId)) := by
  induction es generalizing b with
  | nil => exact (Bool.or_false _).symm
  | cons e es ih =>
    obtain ⟨he, hes⟩ := List.forall_mem_cons.mp hes
    have hread : ∀ resp, e.read = some resp → resp.respType.replayed = true := fun resp hresp =>
      hreplayed resp (List.mem_filterMap.mpr ⟨e, List.mem_cons_self, hresp⟩)
    have hrest : ∀ resp ∈ es.filterMap SidePanelEvent.read, resp.respType.replayed = true := by
      intro resp hresp
      obtain ⟨e', he', hresp⟩ := List.mem_filterMap.mp hresp
      exact hreplayed resp (List.mem_filterMap.mpr ⟨e', List.mem_cons_of_mem e he', hresp⟩)
    obtain ⟨huser, hid, hstarted⟩ := started_step hroom he hread
    rw [run_cons, ih (hid.trans hroom) hes hrest, hstarted, huser, Bool.or_assoc]
    congr 1
    cases h : e.read with
    | none => simp [h]
    | some resp => simp [h]

/-- A panel that connects to a room whose round is over stays out of it, exactly when it was out of
it before, the room keeps no join of its user to a round in progress, and the page does not find the
round kept with its tab astray. -/
theorem stays_over_iff (es : List ServerEvent) {roomId : String} {room : HistoryRoom}
    (hroom : (run Server.step .start es).rooms roomId = some room) {b : SidePanel}
    (hid : b.panel.roomId = some roomId) (hpending : b.pending = []) (hmoving : b.moving = [])
    {userName : GoText} {msg : Inbound} (hmsg : b.panel.joinRoomMessage userName = some msg)
    (m : Moment) (conn : ℕ) {ls : List SidePanelEvent} (hls : ∀ e ∈ ls, e.Reads)
    (hms : ls.filterMap SidePanelEvent.read =
      sentTo conn ((run Server.step .start es).receive m conn msg).2)
    (hdone : (run SidePanel.step b ls).pending = []) (problems : List String) :
    StaysOver b.panel (run SidePanel.step b ls).panel problems ↔
      b.panel.isRoundStarted = false ∧
        (∀ resp ∈ room.messages, ownRound b.panel.userId resp = false) ∧
        ∀ slug ∈ problems, ¬ b.Resumes ls slug := by
  set read := ls.filterMap SidePanelEvent.read
  have hread' : (readAt 0 read).map Prod.snd =
      sentTo conn ((run Server.step .start es).receive m conn msg).2 := by rw [map_readAt, hms]
  obtain ⟨hreplayed, hown⟩ := read_joinRoom hmsg hid hroom m conn hread'
  rw [map_readAt] at hown
  replace hreplayed : ∀ resp ∈ read, resp.respType.replayed = true := fun resp hresp =>
    hreplayed (0, resp) (List.mem_map_of_mem hresp)
  have hjoins : (∀ resp ∈ read, ownRound b.panel.userId resp = false) ↔
      ∀ resp ∈ room.messages, ownRound b.panel.userId resp = false := by
    simp only [← Bool.not_eq_true, ← List.filter_eq_nil_iff, hown]
  have hstarted : (run SidePanel.step b ls).panel.isRoundStarted = false ↔
      b.panel.isRoundStarted = false ∧ ∀ resp ∈ room.messages, ownRound b.panel.userId resp = false := by
    rw [started_run hid ls hls hreplayed, Bool.or_eq_false_iff, List.any_eq_false, ← hjoins]
    simp only [Bool.not_eq_true]
    rfl
  unfold StaysOver
  rw [hstarted, and_assoc]
  refine and_congr_right fun _ => and_congr_right fun hnone => ?_
  -- No own join was read, so the tab can only have gone back to the round kept.
  obtain ⟨slugs, hmoves, hresumes, hcalled⟩ := (quiet_run hid hpending hmoving ls hls fun resp hresp =>
    ⟨hreplayed resp hresp, hjoins.mpr hnone resp hresp⟩).moves
  rw [hmoves, List.drop_left]
  constructor
  · rintro hout slug hslug hresumed
    cases slugs with
    | nil => exact (hcalled rfl).2.2 slug hresumed hdone
    | cons moved rest =>
      have hmoved := (hresumes moved List.mem_cons_self).1.first
      rw [hresumed.1.first] at hmoved
      obtain rfl := Option.some.inj hmoved
      exact hout slug List.mem_cons_self hslug
  · rintro hnot slug hslug hproblem
    exact hnot slug hproblem (hresumes slug hslug)

/-! ## A finished round -/

/-- The browser of a user who has the panel loaded again, with what it has kept. -/
def loadedBrowser (userId : GoText) (kept : Kept) : SidePanel :=
  ⟨loadedPanel userId, kept, none, [], []⟩

/-- Alice's panel reads what it is sent, and its call moves the tab. -/
def aliceReturns : List SidePanelEvent :=
  finishedReplay.map (fun m => .message m.1 m.2) ++ [.queried 0, .arrived 0 true]

/-- Alice is put back into the round that has ended, and onto its problem. -/
theorem resurrected :
    (run Server.step .start finishedRound).rooms.chatManager.roundStatus "room" = some .ended ∧
      (loadedPanel (utf8 "alice")).joinRoomMessage [] = some rejoin ∧
      aliceReturns.filterMap SidePanelEvent.read =
        sentTo 2 ((run Server.step .start finishedRound).receive (.plain 5000) 2 rejoin).2 ∧
      ¬ StaysOver (loadedPanel (utf8 "alice"))
        (run SidePanel.step (loadedBrowser (utf8 "alice") ⟨none, [], none⟩) aliceReturns).panel
        ["two-sum"] := by
  decide +kernel

/-- What bob sends when his panel is loaded. -/
def bobJoins : Inbound := .request (utf8 "bob") (.of (.joinRoom (utf8 "bob") "room" [] false none))

/-- What bob's panel is sent then. -/
def bobReads : List Response :=
  sentTo 2 ((run Server.step .start finishedRound).receive (.plain 5000) 2 bobJoins).2

/-- Bob's browser has kept the round until its end. -/
def bobBrowser : SidePanel :=
  loadedBrowser (utf8 "bob") ⟨some .roundStart, ["two-sum"], some 1802000⟩

/-- Bob's page reads what is kept after the round was to end, and then what it is sent. -/
def bobReturns : List SidePanelEvent :=
  .resumed 1802000 :: bobReads.map (.message 1802001)

/-- Bob did not join the round, and stays out of it, when his page reads what is kept after the end.
-/
theorem bob_stays_over :
    StaysOver bobBrowser.panel (run SidePanel.step bobBrowser bobReturns).panel ["two-sum"] := by
  refine (stays_over_iff finishedRound (Option.some_get (by decide +kernel)).symm rfl rfl rfl
    (rfl : (loadedPanel (utf8 "bob")).joinRoomMessage [] = some bobJoins) (.plain 5000) 2
    (by decide +kernel) (by decide +kernel) (by decide +kernel) ["two-sum"]).mpr
    ⟨rfl, by decide +kernel, ?_⟩
  rintro slug - ⟨-, before, now, after, heq, hrunning⟩
  have hmem : SidePanelEvent.resumed now ∈ bobReturns := by rw [heq]; simp
  obtain rfl : now = 1802000 := by simpa [bobReturns] using hmem
  obtain ⟨t, hend, -, hlater⟩ := hrunning.runs
  obtain rfl : 1802000 = t := Option.some.inj hend
  exact lt_irrefl _ hlater

/-- Read a second before the end, what is kept takes his tab to the problem. -/
example : (run SidePanel.step bobBrowser (.resumed 1801000 :: bobReads.map (.message 1801001) ++
    [.queried 0])).panel.moves = ["two-sum"] := by decide +kernel

end Bsg.Extension
