import Mathlib.Logic.Function.Basic
import Bsg.Extension.Touched

/-!
# Typing in an editor

The content script of a LeetCode page watches the editor and reports the problem to the background
worker once the user writes code (`reportTouch` and `handleEditorInput` in
`extension/contentScript.js`). It keeps the problems that it reported for as long as the page lives,
across client-side navigations; the worker keeps the problems of the round, and clears them when it
is asked to reset for another one. Nothing clears the former, so that a problem is marked in every
round exactly when no page has to report it twice (`marked_iff`).
-/

namespace Bsg.Extension

open Bsg.Foundations Bsg.Rtc Panel

/-! ## The content script -/

/-- What the user does in a page. -/
inductive Input where
  | keydown (key : String) (ctrlKey metaKey : Bool)
  | paste
  deriving DecidableEq, Repr

/-- An event of a page, and whether its target is in an editor. -/
structure PageEvent where
  input : Input
  inEditor : Bool
  deriving DecidableEq, Repr

/-- `INERT_KEYS` -/
def inertKeys : List String :=
  ["Shift", "Control", "Alt", "Meta", "CapsLock", "Tab", "Escape",
   "ArrowUp", "ArrowDown", "ArrowLeft", "ArrowRight",
   "Home", "End", "PageUp", "PageDown", "Insert",
   "ContextMenu", "NumLock", "ScrollLock", "Pause"]

/-- `F` and one or two digits. -/
def isFunctionKey (key : String) : Bool :=
  match key.toList with
  | ['F', a] => a.isDigit
  | ['F', a, b] => a.isDigit && b.isDigit
  | _ => false

/-- `isEditingKey` -/
def isEditingKey (key : String) (ctrlKey metaKey : Bool) : Bool :=
  if inertKeys.contains key || isFunctionKey key then false
  else if ctrlKey || metaKey then ["v", "x", "z", "y"].contains key.toLower
  else true

/-- An editing event inside the editor. -/
def PageEvent.edits (e : PageEvent) : Bool :=
  match e.input with
  | .keydown key ctrlKey metaKey => e.inEditor && isEditingKey key ctrlKey metaKey
  | .paste => e.inEditor

/-- A page of LeetCode. -/
structure Page where
  pathname : String
  /-- `reportedTouches` of the content script, where the script runs. -/
  reportedTouches : Option (List String)
  deriving DecidableEq, Repr

namespace Page

/-- A page that is loaded. The manifest injects the script into the pages of problems, and the
script looks at the path once more. -/
def load (pathname : String) : Page :=
  let page := "/problems/".toList
  if page.isPrefixOf pathname.toList && includes pathname.toList page then ⟨pathname, some []⟩
  else ⟨pathname, none⟩

/-- A page that is navigated on the client side, which its script survives. -/
def route (page : Page) (pathname : String) : Page := { page with pathname := pathname }

/-- The problem that a page shows. -/
def slug (page : Page) : Option String := parseProblemSlug page.pathname

/-- `reportTouch`: the page afterwards, and the problem that it reports. -/
def reportTouch (page : Page) : Page × Option String :=
  match page.reportedTouches, page.slug with
  | some reportedTouches, some slug =>
    if reportedTouches.contains slug then (page, none)
    else ({ page with reportedTouches := some (reportedTouches ++ [slug]) }, some slug)
  | _, _ => (page, none)

/-- `handleEditorInput` -/
def handleEditorInput (page : Page) (e : PageEvent) : Page × Option String :=
  if !e.inEditor then (page, none)
  else
    match e.input with
    | .keydown key ctrlKey metaKey =>
      if !isEditingKey key ctrlKey metaKey then (page, none) else page.reportTouch
    | .paste => page.reportTouch

/-- The problem that an event edits. -/
def edited (page : Page) (e : PageEvent) : Option String := if e.edits then page.slug else none

/-- What is reported is what an event edits, where the script runs and has not reported it. -/
def Reports (page : Page) (e : PageEvent) (slug : String) : Prop :=
  page.edited e = some slug ∧ ∃ reported ∈ page.reportedTouches, slug ∉ reported

/-- An event is reported when it edits the code. -/
theorem handleEditorInput_eq (page : Page) (e : PageEvent) :
    page.handleEditorInput e = if e.edits then page.reportTouch else (page, none) := by
  obtain ⟨input, inEditor⟩ := e
  unfold handleEditorInput PageEvent.edits
  cases inEditor with
  | false => cases input <;> rfl
  | true =>
    cases input with
    | paste => rfl
    | keydown key ctrlKey metaKey => cases h : isEditingKey key ctrlKey metaKey <;> simp [h]

/-- A page reports its problem unless it did so already. -/
theorem reportTouch_eq_some {page : Page} {slug : String} :
    page.reportTouch.2 = some slug ↔
      page.slug = some slug ∧ ∃ reported ∈ page.reportedTouches, slug ∉ reported := by
  unfold reportTouch
  split
  · -- The page runs the script and shows a problem.
    rename_i reported slug' hreported hslug
    rw [hreported, hslug]
    split
    · rename_i hmem
      simp only [List.contains_eq_mem, decide_eq_true_eq] at hmem
      constructor
      · intro h
        cases h
      · rintro ⟨heq, reported', hreported', hnot⟩
        cases heq
        cases hreported'
        exact absurd hmem hnot
    · rename_i hmem
      simp only [List.contains_eq_mem, decide_eq_true_eq] at hmem
      constructor
      · intro h
        cases h
        exact ⟨rfl, reported, rfl, hmem⟩
      · rintro ⟨heq, -⟩
        exact heq
  · rename_i hnone
    constructor
    · intro h
      cases h
    · rintro ⟨hslug, reported, hreported, -⟩
      exact absurd hslug (hnone reported slug hreported)

/-- The page sends a message exactly when it reports the event. -/
theorem handleEditorInput_eq_some {page : Page} {e : PageEvent} {slug : String} :
    (page.handleEditorInput e).2 = some slug ↔ page.Reports e slug := by
  rw [handleEditorInput_eq, Reports, edited]
  split
  · exact reportTouch_eq_some
  · simp

end Page

/-- A problem has a name. -/
theorem findSlug_ne_nil {url slug : List Char} (h : findSlug url = some slug) : slug ≠ [] := by
  induction url with
  | nil => cases h
  | cons c cs ih =>
    simp only [findSlug] at h
    split at h
    · rename_i hpage
      rw [Bool.and_eq_true] at hpage
      have hslug := of_decide_eq_true hpage.2
      cases h
      exact hslug
    · exact ih h

/-- A page of a problem has a slug. -/
theorem parseProblemSlug_ne_empty {url slug : String} (h : parseProblemSlug url = some slug) :
    slug ≠ "" := by
  obtain ⟨letters, hletters, rfl⟩ := Option.map_eq_some_iff.mp h
  intro hempty
  exact findSlug_ne_nil hletters (by simpa using hempty)

/-- A mark adds the problem and nothing else. -/
theorem TouchedStore.mem_touched_markProblemTouched {w : TouchedStore} {slug slug' : String}
    (hslug : slug ≠ "") :
    slug' ∈ (w.markProblemTouched slug).touched ↔ slug' ∈ w.touched ∨ slug' = slug := by
  unfold markProblemTouched
  rw [if_neg hslug]
  split
  · rename_i hmem
    constructor
    · exact Or.inl
    · rintro (h | rfl)
      · exact h
      · exact hmem
  · simp

/-- The worker handles requests in their order. -/
theorem TouchedStore.handleAll_append (w : TouchedStore) (rs rs' : List WorkerRequest) :
    w.handleAll (rs ++ rs') = (w.handleAll rs).handleAll rs' := List.foldl_append

/-! ## The browser -/

/-- The tabs that show LeetCode, the requests on the way to the worker, and what the worker keeps.
-/
structure Browser where
  tabs : ℕ → Option Page
  queue : List WorkerRequest
  store : TouchedStore
  /-- The problems that pages reported since a reset for the current round was asked for. -/
  reported : List String
  /-- The problems that were edited since the current round's reset was processed. -/
  edited : List String

/-- What happens in the browser. -/
inductive BrowserEvent where
  /-- A tab loads a page. -/
  | load (tab : ℕ) (pathname : String)
  /-- A page is navigated on the client side. -/
  | route (tab : ℕ) (pathname : String)
  | close (tab : ℕ)
  | input (tab : ℕ) (e : PageEvent)
  /-- The panel asks for a reset. -/
  | ask (roundKey : String)
  /-- The worker takes a request. -/
  | handle
  deriving DecidableEq, Repr

namespace Browser

def start : Browser := ⟨fun _ => none, [], ⟨[], none⟩, [], []⟩

/-- What the worker keeps once the queue is drained. -/
def drained (s : Browser) : TouchedStore := s.store.handleAll s.queue

/-- The reset of the current round was processed: the resets that wait are for the round whose key
is stored. -/
def resetProcessed (s : Browser) : Bool :=
  s.queue.all fun
    | .problemProgressReset roundKey => s.store.round = some roundKey
    | .problemTouched _ => true

/-- A page gets an event. -/
def input (s : Browser) (tab : ℕ) (page : Page) (e : PageEvent) : Browser :=
  let handled := page.handleEditorInput e
  { s with
    tabs := Function.update s.tabs tab (some handled.1)
    queue := s.queue ++ handled.2.toList.map .problemTouched
    reported := s.reported ++ handled.2.toList
    edited := if s.resetProcessed then s.edited ++ (page.edited e).toList else s.edited }

/-- The panel asks for a reset. A round begins when it is for another key than the last one. -/
def ask (s : Browser) (roundKey : String) : Browser :=
  let s' := { s with queue := s.queue ++ [.problemProgressReset roundKey] }
  if s.drained.round = some roundKey then s' else { s' with reported := [], edited := [] }

/-- The worker takes the next request. -/
def handle (s : Browser) : Browser :=
  match s.queue with
  | [] => s
  | r :: rest => { s with store := s.store.handle r, queue := rest }

def step (s : Browser) : BrowserEvent → Browser
  | .load tab pathname => { s with tabs := Function.update s.tabs tab (some (.load pathname)) }
  | .route tab pathname =>
    { s with tabs := Function.update s.tabs tab ((s.tabs tab).map fun page => page.route pathname) }
  | .close tab => { s with tabs := Function.update s.tabs tab none }
  | .input tab e =>
    match s.tabs tab with
    | none => s
    | some page => s.input tab page e
  | .ask roundKey => s.ask roundKey
  | .handle => s.handle

/-- Every problem that was edited in the round is touched, once the queue is drained. -/
def Marked (s : Browser) : Prop := ∀ slug ∈ s.edited, slug ∈ s.drained.touched

instance (s : Browser) : Decidable s.Marked := inferInstanceAs (Decidable (∀ slug ∈ s.edited, _))

/-- An edit is of a problem that was reported in the round, or the page has a content script that
never reported it. -/
def Fresh (s : Browser) : BrowserEvent → Prop
  | .input tab e =>
    ∀ page ∈ s.tabs tab, ∀ slug ∈ page.edited e, s.resetProcessed →
      slug ∈ s.reported ∨ ∃ reported ∈ page.reportedTouches, slug ∉ reported
  | _ => True

/-! ## What a step does to the touched problems -/

/-- The touched problems, once the queue is drained, are those that were reported in the round. -/
def Tracked (s : Browser) : Prop := ∀ slug, slug ∈ s.drained.touched ↔ slug ∈ s.reported

/-- After an event the touched problems are those before, and the one that it reports. -/
theorem mem_drained_input {s : Browser} {tab : ℕ} {page : Page} {e : PageEvent} {slug : String} :
    slug ∈ (s.input tab page e).drained.touched ↔
      slug ∈ s.drained.touched ∨ page.Reports e slug := by
  rw [← Page.handleEditorInput_eq_some]
  have hdrained : (s.input tab page e).drained =
      s.drained.handleAll ((page.handleEditorInput e).2.toList.map .problemTouched) :=
    TouchedStore.handleAll_append _ _ _
  rw [hdrained]
  cases hreport : (page.handleEditorInput e).2 with
  | none => simp
  | some slug' =>
    have hne : slug' ≠ "" := by
      have h := (Page.handleEditorInput_eq_some.mp hreport).1
      unfold Page.edited at h
      split at h
      · exact parseProblemSlug_ne_empty h
      · cases h
    rw [Option.toList_some, List.map_singleton, TouchedStore.handleAll_cons,
      TouchedStore.handleAll_nil, TouchedStore.handle,
      TouchedStore.mem_touched_markProblemTouched hne, Option.some.injEq, eq_comm (a := slug')]

/-- So are the reported ones. -/
theorem mem_reported_input {s : Browser} {tab : ℕ} {page : Page} {e : PageEvent} {slug : String} :
    slug ∈ (s.input tab page e).reported ↔ slug ∈ s.reported ∨ page.Reports e slug := by
  rw [← Page.handleEditorInput_eq_some, input, List.mem_append, Option.mem_toList]

/-- Asking for a round resets what is touched. -/
theorem drained_ask (s : Browser) (roundKey : String) :
    (s.ask roundKey).drained = s.drained.resetTouchedProblems roundKey := by
  have hqueue : (s.ask roundKey).queue = s.queue ++ [.problemProgressReset roundKey] := by
    unfold ask
    split <;> rfl
  have hstore : (s.ask roundKey).store = s.store := by
    unfold ask
    split <;> rfl
  rw [drained, hqueue, hstore, TouchedStore.handleAll_append]
  rfl

/-- What the worker takes is part of what drains the queue. -/
theorem handle_frame (s : Browser) :
    s.handle.drained = s.drained ∧ s.handle.reported = s.reported ∧ s.handle.edited = s.edited := by
  unfold handle
  split
  · exact ⟨rfl, rfl, rfl⟩
  · rename_i r rest hqueue
    refine ⟨?_, rfl, rfl⟩
    rw [drained, drained, hqueue, TouchedStore.handleAll_cons]

/-- Every event keeps track of the touched problems. -/
theorem Tracked.step {s : Browser} (h : s.Tracked) (e : BrowserEvent) : (s.step e).Tracked := by
  cases e with
  | load tab pathname => exact h
  | route tab pathname => exact h
  | close tab => exact h
  | input tab e =>
    cases hpage : s.tabs tab with
    | none => simpa [Browser.step, hpage] using h
    | some page =>
      have hstep : s.step (.input tab e) = s.input tab page e := by simp [Browser.step, hpage]
      intro slug
      rw [hstep, mem_drained_input, mem_reported_input, h slug]
  | ask roundKey =>
    change (s.ask roundKey).Tracked
    unfold Tracked
    rw [drained_ask]
    unfold TouchedStore.resetTouchedProblems ask
    split
    · exact h
    · exact fun slug => Iff.rfl
  | handle =>
    obtain ⟨hdrained, hreported, -⟩ := s.handle_frame
    change s.handle.Tracked
    rwa [Tracked, hdrained, hreported]

/-! ## Runs -/

/-- An event keeps the edited problems marked exactly when it is not an edit that a page reported
in an earlier round only. -/
theorem marked_step_iff {s : Browser} (htracked : s.Tracked) (hmarked : s.Marked)
    (e : BrowserEvent) : (s.step e).Marked ↔ s.Fresh e := by
  cases e with
  | load tab pathname => exact iff_of_true hmarked trivial
  | route tab pathname => exact iff_of_true hmarked trivial
  | close tab => exact iff_of_true hmarked trivial
  | handle =>
    obtain ⟨hdrained, -, hedited⟩ := s.handle_frame
    -- The worker takes the request at the head of its queue, which was to come anyway.
    refine iff_of_true ?_ trivial
    change s.handle.Marked
    rwa [Marked, hdrained, hedited]
  | ask roundKey =>
    refine iff_of_true ?_ trivial
    change (s.ask roundKey).Marked
    unfold Marked
    rw [drained_ask]
    unfold TouchedStore.resetTouchedProblems ask
    split
    · exact hmarked
    · rintro slug ⟨⟩
  | input tab e =>
    cases hpage : s.tabs tab with
    | none => simpa [step, Fresh, hpage] using hmarked
    | some page =>
      have hstep : s.step (.input tab e) = s.input tab page e := by simp [step, hpage]
      -- An edit of a problem has to be reported, or to have been.
      have hfresh : s.Fresh (.input tab e) ↔ ∀ slug, page.edited e = some slug →
          s.resetProcessed → slug ∈ s.reported ∨ ∃ reported ∈ page.reportedTouches, slug ∉ reported := by
        simp [Fresh, hpage]
      rw [hstep, hfresh]
      have hedited : ∀ slug, slug ∈ (s.input tab page e).edited ↔
          slug ∈ s.edited ∨ s.resetProcessed ∧ page.edited e = some slug := by
        intro slug
        cases hprocessed : s.resetProcessed <;> simp [input, hprocessed]
      constructor
      · intro h slug hslug hprocessed
        have hin := h slug ((hedited slug).mpr (Or.inr ⟨hprocessed, hslug⟩))
        rw [mem_drained_input, htracked slug] at hin
        exact hin.imp id And.right
      · intro h slug hin
        rw [mem_drained_input]
        rcases (hedited slug).mp hin with hold | ⟨hprocessed, hslug⟩
        · exact Or.inl (hmarked slug hold)
        · rw [htracked slug]
          exact (h slug hslug hprocessed).imp id fun hreport => ⟨hslug, hreport⟩

/-- Typing marks the problem in every round exactly when each edit is of a problem that was reported
in that round already, or happens in a page whose content script never reported it. -/
theorem marked_iff (es : List BrowserEvent) :
    Throughout step Marked start es ↔ Along step Fresh start es := by
  have hexact : ∀ (s : Browser) (e : BrowserEvent), s.Tracked → True → s.Marked →
      ((s.step e).Marked ↔ s.Fresh e) := fun s e htracked _ hmarked =>
    marked_step_iff htracked hmarked e
  have htracked : start.Tracked := fun slug => Iff.rfl
  have hmarked : start.Marked := by
    rintro slug ⟨⟩
  exact throughout_iff_along (fun s e h _ => Tracked.step h e) hexact htracked hmarked
    (Along.of_forall fun _ _ => trivial)

/-- Alice types on a problem in a round, and in the next one that has it. -/
def typedTwice : List BrowserEvent :=
  let typing := .input 0 ⟨.keydown "a" false false, true⟩
  [.load 0 "/problems/two-sum/", .ask "room|2", .handle, typing, .handle, .ask "room|6", .handle,
    typing, .handle]

/-- Her panel asks for the resets of the two rounds and leaves the tab where it is, and the problem
is not marked in the second. -/
theorem not_marked :
    (let p := { loadedPanel (utf8 "alice") with tab := some (problemUrl "two-sum") }
     (p.onMessages twoReplays).requests =
        [.problemProgressReset "room|2", .problemProgressReset "room|6"] ∧
       (p.onMessages twoReplays).moves = []) ∧
      ¬ Throughout step Marked start typedTwice := by
  refine ⟨by decide +kernel, fun h => ?_⟩
  have hlast := h.last
  revert hlast
  decide +kernel

end Browser

end Bsg.Extension
