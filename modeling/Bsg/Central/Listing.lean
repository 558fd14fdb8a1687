import Bsg.Central.Site
import Bsg.Central.SizedRounds

/-!
# The catalogue is only read

The problems and their companies are written when central-service starts, and by nothing that
happens while it runs: no request of the rooms, no task and no round of the listener touches their
tables (`listing_happen`).
-/

namespace Bsg.Central

open Bsg.Foundations

/-- The problems and their companies. -/
def World.listing (w : World) : Table Problem × List ProblemCompanyTag :=
  (w.db.problems, w.db.companyTags)

section Rooms

variable (env : Env)

/-- Deleting a round leaves the listing. -/
theorem keeps_listing_deleteRound (round : Round × ℕ) :
    Call.Keeps World.listing (deleteRound env round) := by
  have hdelete : ∀ (op : Op) (f : DB → DB),
      (∀ db, ((f db).problems, (f db).companyTags) = (db.problems, db.companyTags)) →
        Call.Keeps World.listing (Call.io (env.fails op) .io (writeDB f)) := fun op f hf =>
    Call.Keeps.io _ _ (Call.Keeps.write fun w => hf w.db)
  refine Call.Keeps.bind (keeps_logged (Call.Keeps.io _ _ (Call.Keeps.write fun _ => rfl))) fun _ => ?_
  exact Call.Keeps.bind (hdelete _ _ fun _ => rfl) fun _ => Call.Keeps.bind (hdelete _ _ fun _ => rfl)
    fun _ => Call.Keeps.bind (hdelete _ _ fun _ => rfl) fun _ => hdelete _ _ fun _ => rfl

/-- Deleting a room leaves the listing. -/
theorem keeps_listing_deleteRoom (room : Room) (rounds : List Round) :
    Call.Keeps World.listing (deleteRoom env room rounds) := by
  refine Call.Keeps.bind ?_ fun _ => Call.Keeps.bind (Call.Keeps.forEach fun round _ =>
    keeps_listing_deleteRound env round) fun _ => ?_
  · exact Call.Keeps.bind (Call.Keeps.read _) fun members => Call.Keeps.bind
      (Call.Keeps.io _ _ (Call.Keeps.write fun _ => rfl)) fun _ => Call.Keeps.forEach
        fun member _ => keeps_logged (Call.Keeps.io _ _ (Call.Keeps.write fun _ => rfl))
  · exact Call.Keeps.io _ _ (Call.Keeps.bind (Call.Keeps.read _) fun inUse => Call.Keeps.ite _
      (Call.Keeps.fail _) (Call.Keeps.write fun _ => rfl))

variable (roomID : RoomID) (userID : AuthID)

/-- Redis and rtc-service have no part in the listing. -/
theorem aside_listing : Aside World.listing := ⟨fun _ _ => rfl, fun _ _ => rfl⟩

/-- Joining a room leaves the listing. -/
theorem keeps_listing_joinRoom : Call.Keeps World.listing (joinRoom env roomID userID) :=
  aside_listing.keeps_joinRoom (fun _ _ _ _ => rfl) env roomID userID

/-- Leaving a room leaves the listing. -/
theorem keeps_listing_leaveRoom : Call.Keeps World.listing (leaveRoom env roomID userID) := by
  refine Call.Keeps.bind (keeps_findRoomByID env roomID) fun (room, rounds) => ?_
  refine Call.Keeps.bind (aside_listing.keeps_removeJoinMember env roomID userID) fun _ =>
    Call.Keeps.bind (Call.Keeps.read _) fun name =>
      Call.Keeps.bind (keeps_announce aside_listing.tell _ _ _) fun _ =>
        Call.Keeps.bind (Call.Keeps.io _ _ (Call.Keeps.read _)) fun users => Call.Keeps.ite _ ?_ ?_
  · exact Call.Keeps.bind (Call.Keeps.write fun _ => rfl) fun _ =>
      keeps_listing_deleteRoom env room rounds
  · exact aside_listing.keeps_replaceAdmin room (fun _ _ => rfl) env roomID userID

/-- The expiry of a room leaves the listing. -/
theorem keeps_listing_expireRoom : Call.Keeps World.listing (expireRoom env roomID) := by
  refine Call.Keeps.bind (Call.Keeps.attempt (keeps_findRoomByID env roomID)) fun r => ?_
  cases r with
  | error e => exact Call.Keeps.pure _
  | ok found =>
    exact Call.Keeps.bind (keeps_listing_deleteRoom env found.1 found.2) fun _ =>
      keeps_logged (keeps_sendMessage (fun _ _ => rfl) _ _)

/-- `CreateRound` leaves the listing. -/
theorem keeps_listing_roundServiceCreateRound (params : RoundCreationParameters) :
    Call.Keeps World.listing (roundServiceCreateRound env params roomID) := by
  intro w
  show ((roundServiceCreateRound env params roomID).run w).2.listing = w.listing
  cases hinsert : env.fails .insertRound with
  | true =>
    rw [roundServiceCreateRound_fails hinsert params roomID w]
  | false =>
    obtain ⟨w₁, hinserts, ⟨-, hrun⟩ | ⟨-, hrun⟩⟩ :=
      roundServiceCreateRound_cases hinsert params roomID w
    all_goals
      obtain ⟨_, hrun⟩ := hrun
      rw [hrun]
      show (w₁.db.problems, w₁.db.companyTags) = _
      rw [hinserts.db]
      rfl

/-- Creating a round leaves the listing. -/
theorem keeps_listing_createRound (maxNumRoundsPerRoom : ℤ) (params : RoundCreationParameters) :
    Call.Keeps World.listing (createRound env maxNumRoundsPerRoom params roomID) := by
  refine Call.Keeps.bind (keeps_findRoomByID env roomID) fun (room, rounds) => Call.Keeps.bind
    (Call.Keeps.io _ _ (Call.Keeps.read _)) fun limit => Call.Keeps.ite _ (Call.Keeps.fail _) ?_
  refine Call.Keeps.bind (Call.Keeps.attempt
    (keeps_listing_roundServiceCreateRound env room.id params)) fun result => ?_
  cases result with
  | ok made =>
    exact Call.Keeps.bind (Call.Keeps.io _ _ (Call.Keeps.pure _)) fun _ => Call.Keeps.pure _
  | error e =>
    exact Call.Keeps.bind (Call.Keeps.ite _ (Call.Keeps.bind (Call.Keeps.write fun _ => rfl)
      fun _ => keeps_logged (keeps_listing_deleteRoom env room rounds)) (Call.Keeps.pure _))
      fun _ => Call.Keeps.fail _

/-- Starting a round leaves the listing. -/
theorem keeps_listing_startRoundByRoomID :
    Call.Keeps World.listing (startRoundByRoomID env roomID userID) := by
  -- The start writes rounds and participants, which are not in the listing.
  have hstart : ∀ round users, Call.Keeps World.listing (initiateRoundStart env round users) := by
    intro round users w
    have hlisting : ((w.started env round).enrolled env round.id users).listing = w.listing := by
      unfold World.listing
      rw [(enrols_enrolled env round.id users (w.started env round)).db]
      rfl
    rcases initiateRoundStart_cases env round users w with ⟨-, e, hrun⟩ | ⟨-, ⟨-, e, w', hrun, hdb,
      henrolling⟩ | ⟨-, ⟨-, e, hrun⟩ | ⟨-, r, hrun⟩⟩⟩
    · rw [hrun]
      exact rfl
    · rw [hrun]
      show w'.listing = w.listing
      unfold World.listing
      rw [hdb]
      rfl
    · rw [hrun]
      exact hlisting
    · rw [hrun]
      exact hlisting
  refine Call.Keeps.bind ?_ fun round => Call.Keeps.bind (Call.Keeps.io _ _ (Call.Keeps.read _))
    fun users => Call.Keeps.bind (hstart round users) fun started =>
      Call.Keeps.bind (Call.Keeps.forEach fun user _ => ?_) fun _ => Call.Keeps.pure _
  · refine Call.Keeps.bind (keeps_findRoomByID env roomID) fun found => ?_
    refine Call.Keeps.ite _ (Call.Keeps.fail _) ?_
    cases found.2.find? fun r => decide (r.status = .created) with
    | none => exact Call.Keeps.fail _
    | some round => exact Call.Keeps.pure _
  · exact Call.Keeps.bind (Call.Keeps.read _) fun _ =>
      keeps_logged (keeps_sendMessage (fun _ _ => rfl) _ _)

/-- A submission leaves the listing. -/
theorem keeps_listing_createRoundSubmission (params : RoundSubmissionParameters) :
    Call.Keeps World.listing (createRoundSubmission env params userID) :=
  aside_listing.keeps_createRoundSubmission env params userID (fun _ _ => rfl) fun ctx =>
    Call.Keeps.ite _ (keeps_logged (Call.Keeps.io _ _ (Call.Keeps.write fun _ => rfl)))
      (Call.Keeps.pure _)

end Rooms

/-- The catalogue after an event of the rooms and queues is the one before it. -/
theorem listing_happen (w : World) (e : HistoryEvent) : (w.happen e).listing = w.listing := by
  cases e with
  | forward => rfl
  | process env =>
    unfold World.listing
    rw [show (w.happen (.process env)).db = _ from (grades_listen env w).db]
  | request env event =>
  show (w.serve (env, event)).listing = w.listing
  cases event with
  | joinRoom roomID userID => exact keeps_listing_joinRoom env roomID userID w
  | leaveRoom roomID userID => exact keeps_listing_leaveRoom env roomID userID w
  | expireRoom roomID => exact keeps_listing_expireRoom env roomID w
  | createRound maxNumRoundsPerRoom params roomID =>
    exact keeps_listing_createRound env roomID maxNumRoundsPerRoom params w
  -- A change of a round is none of the listing, so the cases of the request need no look.
  | setRoundDuration roomID userID duration =>
    show ((setRoundDurationByRoomID env roomID userID duration).run w).2.listing = w.listing
    rcases setRoundDurationByRoomID_cases env roomID userID duration w with
      hsame | ⟨round, -, -, -, hrun⟩
    · rw [hsame]
    · rw [hrun]
      rfl
  | startRound roomID userID => exact keeps_listing_startRoundByRoomID env roomID userID w
  | endRound roomID userID =>
    show ((endRoundByRoomID env roomID userID).run w).2.listing = w.listing
    rcases endRoundByRoomID_cases env roomID userID w with ⟨o, hrun, -⟩ | ⟨round, -, -, hrun⟩
    · rw [hrun]
    · rw [hrun]
      rfl
  | createSubmission roomID params userID =>
    refine Call.Keeps.bind (keeps_findRoomByID env roomID) (fun (_, rounds) => ?_) w
    dsimp only
    cases rounds.getLast? with
    | none => exact Call.Keeps.fail _
    | some round => exact keeps_listing_createRoundSubmission env userID _
  | runEndTask task =>
    rcases serve_runEndTask_cases env task w with hserve | ⟨-, ⟨-, hserve⟩ | ⟨-, hserve⟩⟩
    · rw [hserve]
    · rw [hserve]
      rfl
    · rw [hserve]
      rfl
  | restart => rfl

/-- The catalogue after an event of the service is the one before it. -/
theorem listing_siteHappen (s : Site) (e : SiteEvent) :
    (s.happen e).world.listing = s.world.listing := by
  rcases happen_cases s e with hsame | ⟨env, dto, userAuthID, code, -, -, hopens⟩ |
    ⟨expiryTasks, event, -, hstate⟩
  · rw [hsame]
  · unfold World.listing
    rw [hopens.db]
  · rw [hstate]
    exact listing_happen (s.world.withExpiry expiryTasks) event

end Bsg.Central
