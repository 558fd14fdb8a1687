import Bsg.Central.Endpoints
import Bsg.Central.Pointers

/-!
# What errors mean over HTTP

`keepsMeaning_iff` says that the errors of a request keep their meaning exactly when it is neither a
submission that the round service turns down, nor a join by a short code that does not lead to a
room. The first is refused by a pointer, which the handler does not recognise; the second goes on
with the code in place of an id. Of all other requests, either the calls raise no pointers or the
handler recognises them.
-/

namespace Bsg.Central

open Bsg.Foundations

/-- The error of the request is answered under a status that is not its own: a submission to a room
whose last round turns it down, and a join by a short code that does not lead to a room. -/
def RoomRequest.Misread (env : SiteEnv) (s : Site) : RoomRequest → Prop
  | joinRoom roomID _ => (utf8 roomID).length = 6 ∧ ∀ room, ¬ Coded env roomID s room
  | createSubmission roomID problemID body userAuthID =>
    ∃ parsedProblemID params, atoi problemID = some parsedProblemID ∧ body = some params ∧
      RoomTurnsDown env.toEnv { params with problemID := uintOfInt parsedProblemID } userAuthID
        s.world roomID
  | _ => False

/-! ## Answers to errors -/

section Answers

variable {α : Type} {call : SiteService α} {s : Site} {e : GoError}

/-- The errors are those that the call returns. -/
@[simp] theorem mem_errorsOf : e ∈ errorsOf call s ↔ (call.run s).1 = .err e := by
  unfold errorsOf
  split
  · rename_i e' he
    rw [List.mem_singleton, he, Outcome.err.injEq]
    exact eq_comm
  · simp [*]
  · simp [*]

/-- An error that is not a pointer keeps its status, recognised or not. -/
theorem ifValue_status (recognised : String → String) (otherwise : String) (h : e.NotPointer) :
    (ifValue recognised otherwise e).status = e.statusCode := by
  cases e with
  | value _ => rfl
  | pointer _ => exact h.elim
  | other _ => rfl

/-- Every error keeps its status, recognised or not. -/
theorem ifBSGError_status (recognised : String → String) (otherwise : String) (e : GoError) :
    (ifBSGError recognised otherwise e).status = e.statusCode := by
  cases e <;> rfl

/-- An error of the call is what is answered. -/
theorem answer_err {s' : Site} (h : call.run s = (.err e, s')) (refuse : GoError → HTTPResponse)
    (reply : α → SiteService HTTPResponse) :
    (answer call refuse reply).run s = (.ok (refuse e), s') := Call.attempt_err h _

/-- The errors of a call keep their meaning when they are answered under their status. -/
theorem answer_keeps {refuse : GoError → HTTPResponse} {reply : α → SiteService HTTPResponse}
    (hrefuse : ∀ e, (call.run s).1 = .err e → (refuse e).status = e.statusCode) :
    ∀ e ∈ errorsOf call s, ∃ response s',
      (answer call refuse reply).run s = (.ok response, s') ∧ response.status = e.statusCode := by
  intro e he
  have herr := mem_errorsOf.mp he
  refine ⟨refuse e, (call.run s).2, answer_err (Prod.ext herr rfl) refuse reply, hrefuse e herr⟩

end Answers

/-! ## Joining by a short code -/

section Join

variable {env : SiteEnv} {roomID : String} {userAuthID : AuthID} {room : Room} {s : Site}

/-- A text has as many bytes as characters, or more. -/
theorem length_le_utf8 (s : String) : s.toList.length ≤ (utf8 s).length := by
  unfold utf8
  induction s.toList with
  | nil => exact Nat.le_refl _
  | cons c cs ih =>
    have hpos : 1 ≤ (String.utf8EncodeChar c).length := by
      rw [String.length_utf8EncodeChar]
      exact Char.utf8Size_pos c
    rw [List.flatMap_cons, List.length_append, List.length_cons]
    omega

/-- A text of six bytes names no id. -/
theorem parse_of_short (uuid : UUIDParser) (h : (utf8 roomID).length = 6) :
    uuid.parse roomID = none := by
  cases hparsed : uuid.parse roomID with
  | none => rfl
  | some id =>
    have hlong := uuid.long hparsed
    have hbytes := length_le_utf8 roomID
    omega

/-- A text of six letters is resolved to the room with that code. -/
theorem resolveRoomParam_of_coded (h : (utf8 roomID).length = 6) (hroom : Coded env roomID s room) :
    (resolveRoomParam env roomID).run s = (.ok room.id, s) := by
  unfold resolveRoomParam
  rw [if_pos h]
  exact Call.attempt_ok (findRoomByShortCode_run hroom) _

/-- A short code that leads to no room is taken for a room id. -/
theorem resolveRoomParam_of_not_coded (h : ∀ room, ¬ Coded env roomID s room) :
    (resolveRoomParam env roomID).run s = (.ok roomID, s) := by
  unfold resolveRoomParam
  split
  · obtain ⟨e, hrun, -⟩ := findRoomByShortCode_fails h
    exact Call.attempt_err hrun _
  · rfl

/-- Once it is known which room is meant, the errors of the join keep their meaning. -/
theorem keeps_join {roomParam : String}
    (h : (resolveRoomParam env roomID).run s = (.ok roomParam, s)) :
    ∀ e ∈ errorsOf (do
        let roomID ← resolveRoomParam env roomID
        onSite (joinRoom env.toEnv roomID userAuthID)) s,
      ∃ response s', (joinRoomEndpoint env roomID userAuthID).run s = (.ok response, s') ∧
        response.status = e.statusCode := by
  intro e he
  rw [mem_errorsOf, Call.bind_ok h, ← mem_errorsOf] at he
  unfold joinRoomEndpoint
  rw [Call.bind_ok h]
  exact answer_keeps (fun e he =>
    ifValue_status _ _ (raises_onSite (raises_joinRoom _ _ _) s e he)) e he

/-- A join by a short code that leads to no room is refused as one by a malformed id. -/
theorem joinRoomEndpoint_of_not_coded (userAuthID : AuthID) (h : (utf8 roomID).length = 6)
    (hcoded : ∀ room, ¬ Coded env roomID s room) :
    ∃ response, (joinRoomEndpoint env roomID userAuthID).run s = (.ok response, s) ∧
      response.status = 400 := by
  have hjoin : (onSite (joinRoom env.toEnv roomID userAuthID)).run s =
      (.err (.value ⟨400, "roomID could not be parsed"⟩), s) := by
    have hfind : (findRoomByID env.toEnv roomID).run s.world =
        (.err (.value ⟨400, "roomID could not be parsed"⟩), s.world) := by
      unfold findRoomByID
      rw [parse_of_short env.uuid h]
      rfl
    unfold joinRoom onSite
    dsimp only
    rw [Call.bind_err hfind]
  unfold joinRoomEndpoint
  rw [Call.bind_ok (resolveRoomParam_of_not_coded hcoded)]
  exact ⟨_, answer_err hjoin _ _, rfl⟩

/-- A join keeps the meaning of its errors unless its id is misread. -/
theorem keepsMeaning_joinRoom :
    KeepsMeaning env (.joinRoom roomID userAuthID) s ↔
      ¬ RoomRequest.Misread env s (.joinRoom roomID userAuthID) := by
  by_cases h : (utf8 roomID).length = 6
  swap
  · -- Not a short code.
    have hresolve : (resolveRoomParam env roomID).run s = (.ok roomID, s) := by
      unfold resolveRoomParam
      rw [if_neg h]
      rfl
    refine iff_of_true (fun e he => ?_) (fun hmisread => h hmisread.1)
    have he : e ∈ joinRoomErrors env s roomID userAuthID := he
    unfold joinRoomErrors at he
    rw [if_neg h, List.nil_append] at he
    exact keeps_join hresolve e he
  by_cases hcoded : ∃ room, Coded env roomID s room
  · -- A room has this code, so the lookup raises nothing.
    obtain ⟨room, hroom⟩ := hcoded
    refine iff_of_true (fun e he => ?_) (fun hmisread => hmisread.2 room hroom)
    have he : e ∈ joinRoomErrors env s roomID userAuthID := he
    unfold joinRoomErrors at he
    rw [if_pos h, List.mem_append, mem_errorsOf, findRoomByShortCode_run hroom] at he
    rcases he with he | he
    · cases he
    · exact keeps_join (resolveRoomParam_of_coded h hroom) e he
  · -- The error of the lookup is 404 or 500, and the answer is 400.
    have hnone : ∀ room, ¬ Coded env roomID s room := fun room hroom => hcoded ⟨room, hroom⟩
    refine iff_of_false (fun hkeeps => ?_) (not_not_intro ⟨h, hnone⟩)
    obtain ⟨e, hrun, hcases⟩ := findRoomByShortCode_fails hnone
    have herror : e ∈ joinRoomErrors env s roomID userAuthID := by
      unfold joinRoomErrors
      rw [if_pos h, List.mem_append, mem_errorsOf, hrun]
      exact Or.inl rfl
    obtain ⟨response, s', hanswer, hstatus⟩ := hkeeps e herror
    obtain ⟨response', hanswer', hstatus'⟩ := joinRoomEndpoint_of_not_coded userAuthID h hnone
    obtain ⟨rfl, -⟩ : response = response' ∧ s' = s := by
      have hsame := hanswer.symm.trans hanswer'
      rw [Prod.mk.injEq, Outcome.ok.injEq] at hsame
      exact hsame
    rw [hstatus'] at hstatus
    rcases hcases with rfl | rfl <;> cases hstatus

end Join

/-! ## Every endpoint -/

/-- The errors of a submission keep their meaning unless a round turns it down. -/
theorem keepsMeaning_createSubmission (env : SiteEnv) (s : Site) (roomID problemID : String)
    (body : Option RoundSubmissionParameters) (userAuthID : AuthID) :
    KeepsMeaning env (.createSubmission roomID problemID body userAuthID) s ↔
      ¬ RoomRequest.Misread env s (.createSubmission roomID problemID body userAuthID) := by
  unfold KeepsMeaning RoomRequest.Misread RoomRequest.errors RoomRequest.handle
    createSubmissionEndpoint
  dsimp only
  -- Without a number or a body nothing is called, so there is no error to keep.
  cases hid : atoi problemID with
  | none =>
    refine iff_of_true (fun e he => by cases he) ?_
    rintro ⟨_, _, h, -⟩
    cases h
  | some parsedProblemID =>
  cases body with
  | none =>
    refine iff_of_true (fun e he => by cases he) ?_
    rintro ⟨_, _, -, h, -⟩
    cases h
  | some params =>
  dsimp only
  have hcall := createRoomSubmission_refuses env.toEnv
    { params with problemID := uintOfInt parsedProblemID } userAuthID s.world roomID
  by_cases hturns : RoomTurnsDown env.toEnv
      { params with problemID := uintOfInt parsedProblemID } userAuthID s.world roomID
  · -- The pointer is not recognised: its status is 400, and the answer is 500.
    obtain ⟨text, hrun⟩ := hcall.refused hturns
    have hrun : (onSite (createRoomSubmission env.toEnv roomID
        { params with problemID := uintOfInt parsedProblemID } userAuthID)).run s =
        (.err (.pointer ⟨400, text⟩), s) := by
      unfold onSite
      dsimp only
      rw [hrun]
    refine iff_of_false (fun hkeeps => ?_) (not_not_intro ⟨_, _, rfl, rfl, hturns⟩)
    obtain ⟨response, s', hanswer, hstatus⟩ :=
      hkeeps _ (mem_errorsOf.mpr (congrArg Prod.fst hrun))
    rw [answer_err hrun] at hanswer
    cases hanswer
    cases hstatus
  · -- Every other error is no pointer, and is recognised.
    refine iff_of_true (answer_keeps fun e he => ?_) ?_
    · exact ifValue_status _ _ (hcall.otherwise hturns e he)
    · rintro ⟨_, _, h, h', hdown⟩
      cases h
      cases h'
      exact hturns hdown

/-- The errors of a request keep their meaning unless it is a submission that a round turns down or
a join by a short code that leads to no room. -/
theorem keepsMeaning_iff (env : SiteEnv) (req : RoomRequest) (s : Site) :
    KeepsMeaning env req s ↔ ¬ req.Misread env s := by
  -- Calls that raise no pointers, and calls whose pointers are recognised.
  have hvalue : ∀ {α : Type} {call : SiteService α} (recognised : String → String)
      (otherwise : String) (reply : α → SiteService HTTPResponse),
      Call.Raises GoError.NotPointer call → ∀ e ∈ errorsOf call s, ∃ response s',
        (answer call (ifValue recognised otherwise) reply).run s = (.ok response, s') ∧
          response.status = e.statusCode := fun recognised otherwise _ hraises =>
    answer_keeps fun e he => ifValue_status recognised otherwise (hraises s e he)
  have hboth : ∀ {α : Type} {call : SiteService α} (recognised : String → String)
      (otherwise : String) (reply : α → SiteService HTTPResponse),
      ∀ e ∈ errorsOf call s, ∃ response s',
        (answer call (ifBSGError recognised otherwise) reply).run s = (.ok response, s') ∧
          response.status = e.statusCode := fun recognised otherwise _ =>
    answer_keeps fun e _ => ifBSGError_status recognised otherwise e
  cases req with
  | createNewRoom body userAuthID =>
    refine iff_of_true ?_ not_false
    cases body with
    | none => exact fun e he => by cases he
    | some roomDTO => exact hvalue _ _ _ (raises_createRoom env roomDTO userAuthID)
  | findRoom roomID =>
    exact iff_of_true (hvalue _ _ _ (raises_onSite (raises_findRoomByID _ _))) not_false
  | joinRoom roomID userAuthID => exact keepsMeaning_joinRoom
  | getRoomParticipants roomID =>
    exact iff_of_true (hvalue _ _ _ (raises_onSite (raises_findActiveUsers _ _))) not_false
  | leaveRoom roomID userAuthID =>
    exact iff_of_true (hvalue _ _ _ (raises_onSite (raises_leaveRoom _ _ _))) not_false
  | createNewRound body roomID =>
    refine iff_of_true ?_ not_false
    cases body with
    | none => exact fun e he => by cases he
    | some params => exact hboth _ _ _
  | startRound roomID userAuthID => exact iff_of_true (hboth _ _ _) not_false
  | updateRoundDuration body roomID userAuthID =>
    refine iff_of_true ?_ not_false
    cases body with
    | none => exact fun e he => by cases he
    | some duration => exact hboth _ _ _
  | getLeaderboard roomID =>
    exact iff_of_true (hvalue _ _ _ (raises_onSite (raises_getLeaderboard _ _))) not_false
  | createSubmission roomID problemID body userAuthID =>
    exact keepsMeaning_createSubmission env s roomID problemID body userAuthID
  | getActiveRoom userAuthID =>
    -- All that can fail is the database.
    refine iff_of_true (answer_keeps fun e he => ?_) not_false
    have hio : Call.Raises (fun e => e.statusCode = 500)
        (getActiveRoomForUser env.toEnv userAuthID) := by
      refine Call.Raises.io _ ?_ (Call.Raises.read _)
      rfl
    exact (raises_onSite hio s e he).symm
  | endRound roomID userAuthID => exact iff_of_true (hboth _ _ _) not_false
  | getRoundDetails roomID =>
    exact iff_of_true (hvalue _ _ _ (raises_onSite (raises_getRoundDetails _ _))) not_false

/-! ## A submission before the round -/

/-- An environment in which nothing fails. -/
def SiteEnv.faultless : SiteEnv where
  toEnv := Env.faultless 0
  maxNumRoundsPerRoom := 10
  newRoomID := roomTwo
  isUUID_newRoomID := isUUID_roomTwo
  candidates := [("A3K9PQ", false)]
  insertRoom := false
  scheduleRoomExpiry := false
  findShortCode := false
  participant _ := .quiet

/-- A request with an error that is answered under another status. -/
theorem not_keepsMeaning {env : SiteEnv} {req : RoomRequest} {s : Site} {e : GoError} (status : ℕ)
    (he : e ∈ req.errors env s)
    (hanswer : ((req.handle env).run s).1.ok?.map HTTPResponse.status = some status)
    (hstatus : status ≠ e.statusCode) : ¬ KeepsMeaning env req s := by
  intro h
  obtain ⟨response, s', hrun, hkept⟩ := h e he
  rw [hrun, Outcome.ok?_ok, Option.map_some, Option.some.injEq] at hanswer
  exact hstatus (hanswer.symm.trans hkept)

/-- A submission to a round that has not started, which the service refuses with 400, is answered
with 500; and a join by an unknown code, which it refuses with 404, is answered with 400. -/
theorem not_keepsMeaning_early :
    ¬ KeepsMeaning SiteEnv.faultless
        (.createSubmission roomOne "1" (some (strayParams 1 1)) host)
        ⟨World.ready, fun _ => "B4L8QR"⟩ ∧
      ¬ KeepsMeaning SiteEnv.faultless (.joinRoom "ZZZZZZ" guest)
        ⟨World.ready, fun _ => "B4L8QR"⟩ := by
  constructor
  · have herror : GoError.pointer ⟨400, "Round haven't started yet"⟩ ∈
        RoomRequest.errors SiteEnv.faultless ⟨World.ready, fun _ => "B4L8QR"⟩
          (.createSubmission roomOne "1" (some (strayParams 1 1)) host) := by decide
    exact not_keepsMeaning 500 herror (by decide) (by decide)
  · have herror : GoError.value ⟨404, "room not found"⟩ ∈
        RoomRequest.errors SiteEnv.faultless ⟨World.ready, fun _ => "B4L8QR"⟩
          (.joinRoom "ZZZZZZ" guest) := by decide
    exact not_keepsMeaning 400 herror (by decide) (by decide)

end Bsg.Central
