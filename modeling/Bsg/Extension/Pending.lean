import Mathlib.Logic.Function.Basic
import Bsg.Foundations.Run

/-!
# Pending submissions

A page of LeetCode tells the background worker of each submission, and of its result as often as
the result is asked for (`extension/injected.js`). The worker keeps the submissions without a result
in `chrome.storage.local` and sends the accepted ones to central-service (`SUBMISSION_PENDING` and
`SUBMISSION_RESULT` in `extension/background.js`).

A handler reads the stored object, works on its copy in a callback and writes the copy back. What
another handler wrote in between is lost with the write. `PostedOnce` and `KeepsOthers` are what the
worker is for, and `Undisturbed` is the condition under which no handler gets in the way of another.
-/

namespace Bsg.Extension

open Bsg.Foundations

/-! ## Messages -/

/-- What is kept of a submission. -/
structure PendingSubmission where
  submissionId : String
  problemSlug : String
  typedCode : String
  lang : String
  deriving DecidableEq, Repr

/-- The result of a submission. -/
structure SubmissionResult where
  submissionId : String
  statusMsg : String
  elapsedTime : String
  memoryPercentile : String
  deriving DecidableEq, Repr

/-- A message of a page to the worker. -/
inductive SubmissionMessage where
  /-- `SUBMISSION_PENDING` -/
  | pending (data : PendingSubmission)
  /-- `SUBMISSION_RESULT` -/
  | result (data : SubmissionResult)
  deriving DecidableEq, Repr

/-- The submission that a message is about. -/
def SubmissionMessage.submissionId : SubmissionMessage → String
  | .pending data => data.submissionId
  | .result data => data.submissionId

def SubmissionResult.Accepted (r : SubmissionResult) : Prop := r.statusMsg = "Accepted"

instance (r : SubmissionResult) : Decidable r.Accepted := inferInstanceAs (Decidable (_ = _))

/-- What is sent to central-service. -/
structure SubmissionPost where
  slug : String
  status : String
  code : String
  language : String
  runtime : String
  memory : String
  deriving DecidableEq, Repr

/-- The body of the request. -/
def submissionPost (pendingData : PendingSubmission) (r : SubmissionResult) : SubmissionPost :=
  ⟨pendingData.problemSlug, "Accepted", pendingData.typedCode, pendingData.lang, r.elapsedTime,
    r.memoryPercentile⟩

/-- Whether the round timer has expired, where it is set. -/
def expired (roundEndTime : Option ℤ) (now : ℤ) : Bool :=
  roundEndTime.any fun t => t ≠ 0 && now > t

/-- A round that is over stays over. -/
theorem expired_mono {roundEndTime : Option ℤ} {now now' : ℤ} (hle : now ≤ now')
    (h : expired roundEndTime now = true) : expired roundEndTime now' = true := by
  cases roundEndTime with
  | none => exact h
  | some t =>
    simp only [expired, Option.any_some, Bool.and_eq_true, decide_eq_true_eq] at h ⊢
    exact ⟨h.1, by omega⟩

/-! ## The worker -/

/-- `pendingSubmissions` -/
abbrev Entries := String → Option PendingSubmission

/-- How far the handler of a message has come. -/
inductive Phase where
  | received
  /-- Storage has answered with what was stored, and the callback has yet to run. -/
  | read (pending : Entries)
  /-- The callback has run, and its copy has yet to be stored. -/
  | writing (pending : Entries)
  | done

/-- The worker, its storage and its clock. -/
structure Background where
  pendingSubmissions : Entries
  roundEndTime : Option ℤ
  now : ℤ
  /-- The messages that were received. -/
  message : ℕ → Option SubmissionMessage
  /-- The messages that were received before the end of the round. -/
  inTime : ℕ → Bool
  phase : ℕ → Phase
  /-- What was sent, and for which submission. -/
  posts : List (String × SubmissionPost)

/-- What happens at the worker. -/
inductive BackgroundEvent where
  | tick (d : ℕ)
  | receive (i : ℕ) (m : SubmissionMessage)
  /-- Storage reads for the handler of a message. -/
  | read (i : ℕ)
  /-- The callback of the handler runs. -/
  | callback (i : ℕ)
  /-- Storage writes for the handler. -/
  | write (i : ℕ)
  deriving DecidableEq, Repr

namespace Background

def start (roundEndTime : Option ℤ) (now : ℤ) : Background :=
  ⟨fun _ => none, roundEndTime, now, fun _ => none, fun _ => false, fun _ => .received, []⟩

def setPhase (s : Background) (i : ℕ) (p : Phase) : Background :=
  { s with phase := Function.update s.phase i p }

/-- A message is received. A pending submission without an id or a problem is not looked at. -/
def receive (s : Background) (i : ℕ) (m : SubmissionMessage) : Background :=
  let s' := { s with
    message := Function.update s.message i (some m)
    inTime := Function.update s.inTime i (!expired s.roundEndTime s.now) }
  match m with
  | .pending data =>
    if data.submissionId ≠ "" ∧ data.problemSlug ≠ "" then s'.setPhase i .received
    else s'.setPhase i .done
  | .result _ => s'.setPhase i .received

/-- `chrome.storage.local.get` -/
def read (s : Background) (i : ℕ) : Background :=
  match s.message i, s.phase i with
  | some _, .received => s.setPhase i (.read s.pendingSubmissions)
  | _, _ => s

/-- An accepted submission is sent, unless the round is over. -/
def send (s : Background) (pendingData : PendingSubmission) (r : SubmissionResult) : Background :=
  if r.Accepted then
    if expired s.roundEndTime s.now then s
    else { s with posts := s.posts ++ [(r.submissionId, submissionPost pendingData r)] }
  else s

/-- What the callback of `get` does. -/
def callback (s : Background) (i : ℕ) : Background :=
  match s.message i, s.phase i with
  | some (.pending data), .read pending =>
    s.setPhase i (.writing (Function.update pending data.submissionId (some data)))
  | some (.result r), .read pending =>
    match pending r.submissionId with
    | some pendingData =>
      (s.send pendingData r).setPhase i (.writing (Function.update pending r.submissionId none))
    | none => s.setPhase i .done
  | _, _ => s

/-- `chrome.storage.local.set` -/
def write (s : Background) (i : ℕ) : Background :=
  match s.message i, s.phase i with
  | some _, .writing pending => { s.setPhase i .done with pendingSubmissions := pending }
  | _, _ => s

/-- An index stands for one message. -/
def step (s : Background) : BackgroundEvent → Background
  | .tick d => { s with now := s.now + d }
  | .receive i m => if s.message i = none then s.receive i m else s
  | .read i => s.read i
  | .callback i => s.callback i
  | .write i => s.write i

/-! ## What is asked of a run -/

/-- Message `i` tells the worker of a submission. -/
def Sends (s : Background) (i : ℕ) (id : String) : Prop :=
  ∃ data, s.message i = some (.pending data) ∧ data.submissionId = id

/-- Message `i` is a result of the submission. -/
def Reports (s : Background) (i : ℕ) (r : SubmissionResult) (id : String) : Prop :=
  s.message i = some (.result r) ∧ r.submissionId = id

/-- How often a submission was sent. -/
def sent (s : Background) (id : String) : ℕ := s.posts.countP fun p => p.1 = id

/-- Each submission has one pending message, which is received before its results. -/
def InOrder (s : Background) : BackgroundEvent → Prop
  | .receive _ (.pending data) => ∀ j, ¬ s.Sends j data.submissionId
  | .receive _ (.result r) => ∃ j, s.Sends j r.submissionId
  | _ => True

/-- A step removes no entry of a submission but of the one that it handles. -/
def KeepsOthers (s : Background) (e : BackgroundEvent) : Prop :=
  ∀ id, s.pendingSubmissions id ≠ none →
    (∀ i m, e = .write i → s.message i = some m → m.submissionId ≠ id) →
    (s.step e).pendingSubmissions id ≠ none

/-- The callback of a handler has run. -/
def Phase.past : Phase → Prop
  | .writing _ | .done => True
  | _ => False

/-- No submission was sent twice, and every submission of which an accepted result was received in
time was sent once the result was looked at. -/
def PostedOnce (s : Background) : Prop :=
  ∀ id, s.sent id ≤ 1 ∧ ∀ i r, s.Reports i r id → r.Accepted → s.inTime i = true →
    Phase.past (s.phase i) → s.sent id = 1

/-- No other handler gets in the way of a step. -/
def Undisturbed (s : Background) : BackgroundEvent → Prop
  | .tick _ => True
  | .receive _ (.pending data) => data.submissionId ≠ "" ∧ data.problemSlug ≠ ""
  | .receive _ (.result r) =>
    ∀ j r', s.Reports j r' r.submissionId → r'.statusMsg = r.statusMsg
  | .read i =>
    ∀ r id, s.Reports i r id → s.phase i = .received →
      (∀ j, s.Sends j id → s.phase j = .done) ∧
      ∀ j r', s.Reports j r' id → s.phase j = .received ∨ s.phase j = .done
  | .callback i =>
    ∀ r id pending, s.Reports i r id → s.phase i = .read pending → pending id ≠ none →
      r.Accepted → (∃ j r', s.Reports j r' id ∧ s.inTime j = true) →
      expired s.roundEndTime s.now = false
  | .write i =>
    ∀ m pending, s.message i = some m → s.phase i = .writing pending →
      ∀ id, id ≠ m.submissionId → pending id = s.pendingSubmissions id

end Background

end Bsg.Extension
