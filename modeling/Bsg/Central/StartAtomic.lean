import Bsg.Central.Starting

/-!
# Starting a round, all or nothing

A start that returns an error should leave the round as it was, so that the admin can try again; a
start that succeeds should have done all of its work (`AllOrNothing`). The status is written before
everything else and outside of the transaction, so a failure that comes later leaves a round that is
marked started. `allOrNothing_iff` says that this is the only thing that goes wrong.
-/

namespace Bsg.Rtc

/-- The request announces that a round starts. -/
def Request.isRoundStart : Request → Bool
  | .roundStart _ _ _ _ => true
  | _ => false

end Bsg.Rtc

namespace Bsg.Central

open Bsg.Foundations

/-- The announcements of starting rounds that rtc-service got. -/
def World.roundStarts (w : World) : List Rtc.Request := w.sent.filter Rtc.Request.isRoundStart

/-- The status of a round. -/
def DB.statusOf (db : DB) (roundID : ℕ) : Option RoundStatus :=
  (db.rounds.find? roundID).map Round.status

/-- Nothing of the start remains: the round is still created, it has no more participants and
leaderboard entries than before, and no start was announced. -/
structure NotStarted (round : Round) (w w' : World) : Prop where
  status : w'.db.statusOf round.id = some .created
  participants : ∀ p ∈ w'.db.participants.rows, p.roundID = round.id →
    p ∈ w.db.participants.rows
  entries : ∀ user, (w'.redis.leaderboard round.id).contains user = true →
    (w.redis.leaderboard round.id).contains user = true
  announced : w'.roundStarts = w.roundStarts

/-- All of the start is done: the round is started, every user has a participant row and a
leaderboard entry, and the end is scheduled. -/
structure FullyStarted (round : Round) (users : List AuthID) (w : World) : Prop where
  status : w.db.statusOf round.id = some .started
  participants : ∀ user ∈ users, ∃ p ∈ w.db.participants.rows,
    p.participantAuthID = user ∧ p.roundID = round.id
  entries : ∀ user ∈ users, (w.redis.leaderboard round.id).contains user = true
  task : ∃ task ∈ w.tasks, task.roundID = round.id ∧ task.roomID = round.roomID

/-- A start that fails leaves nothing, and a start that succeeds did everything. -/
def AllOrNothing (env : Env) (round : Round) (users : List AuthID) (w : World) : Prop :=
  match (initiateRoundStart env round users).run w with
  | (.ok _, w') => FullyStarted round users w'
  | (.err _, w') => NotStarted round w w'
  | (.panic, _) => False

/-- The round is the one that the database has, and it was only created. -/
structure Created (round : Round) (w : World) : Prop where
  stored : w.db.rounds.find? round.id = some round
  status : round.status = .created

section Start

variable {env : Env} {round : Round} {users : List AuthID} {w w' : World}

/-- What is not changed remains as it was. -/
theorem Created.notStarted (h : Created round w) : NotStarted round w w := by
  refine ⟨?_, fun _ hp _ => hp, fun _ hu => hu, rfl⟩
  rw [DB.statusOf, h.stored, Option.map_some, h.status]

/-- A round that was marked is started. -/
theorem statusOf_started (env : Env) (h : Created round w) :
    (w.started env round).db.statusOf round.id = some .started := by
  have hfind : (w.started env round).db.rounds.find? round.id = some (round.start env.now) := by
    show (w.db.startRound env.now round.id).rounds.find? round.id = _
    rw [DB.find?_startRound, if_pos rfl, h.stored]
    rfl
  rw [DB.statusOf, hfind]
  rfl

/-- The enrolment of users changes no round. -/
theorem Enrols.statusOf (h : Enrols round.id users w w') (roundID : ℕ) :
    w'.db.statusOf roundID = w.db.statusOf roundID := by
  unfold DB.statusOf
  rw [h.rounds]

/-- Once its status is written, a start that fails cannot be taken back. -/
theorem Created.not_notStarted (h : Created round w)
    (hdb : w'.db.rounds = (w.started env round).db.rounds) :
    ¬ NotStarted round w w' := by
  intro hnot
  have hstatus := statusOf_started env h
  rw [DB.statusOf, ← hdb, ← DB.statusOf, hnot.status] at hstatus
  cases hstatus

/-- After all steps the round is started in full. -/
theorem fullyStarted (h : Created round w) :
    FullyStarted round users
      (((w.started env round).enrolled env round.id users).scheduled env round) := by
  have henrols := enrols_enrolled env round.id users (w.started env round)
  refine ⟨?_, fun user huser => ?_, fun user huser => ?_, ?_⟩
  · exact (henrols.statusOf round.id).trans (statusOf_started env h)
  · obtain ⟨new, hrows, hnew⟩ := henrols.rows
    have hmem : (user, round.id) ∈ new.map fun p => (p.participantAuthID, p.roundID) := by
      rw [hnew]
      exact List.mem_map_of_mem huser
    obtain ⟨p, hp, hpair⟩ := List.mem_map.mp hmem
    refine ⟨p, ?_, congrArg Prod.fst hpair, congrArg Prod.snd hpair⟩
    show p ∈ ((w.started env round).enrolled env round.id users).db.participants.rows
    rw [hrows]
    exact List.mem_append_right _ hp
  · have hentry := henrols.entries user
    rw [decide_eq_true huser, Bool.true_or] at hentry
    exact hentry
  · exact ⟨endTaskOf env round, List.mem_append_right _ (List.mem_singleton_self _), rfl, rfl⟩

end Start

/-- The start of a created round is all or nothing exactly when it is refused before the status is
written, or nothing fails after that. -/
theorem allOrNothing_iff (env : Env) (round : Round) (users : List AuthID) (w : World)
    (h : Created round w) :
    AllOrNothing env round users w ↔
      Startable env round w → Enrollable env users ∧ Schedulable env round := by
  unfold AllOrNothing
  rcases initiateRoundStart_cases env round users w with
    ⟨hrefused, e, hrun⟩ | ⟨hstart, ⟨henrol, e, w', hrun, hdb, -⟩ |
      ⟨henrol, ⟨hschedule, e, hrun⟩ | ⟨hschedule, r, hrun⟩⟩⟩
  · rw [hrun]
    exact iff_of_true h.notStarted fun hstart => absurd hstart hrefused
  · rw [hrun]
    refine iff_of_false (h.not_notStarted (congrArg DB.rounds hdb)) ?_
    exact fun hwell => henrol (hwell hstart).1
  · rw [hrun]
    have hrounds := (enrols_enrolled env round.id users (w.started env round)).rounds
    refine iff_of_false (h.not_notStarted hrounds) ?_
    exact fun hwell => hschedule (hwell hstart).2
  · rw [hrun]
    exact iff_of_true (fullyStarted h) fun _ => ⟨henrol, hschedule⟩

/-- When nothing fails the start goes through. -/
theorem allOrNothing_ready : AllOrNothing (Env.faultless 10) roundOne [host] .ready :=
  (allOrNothing_iff (Env.faultless 10) roundOne [host] .ready ⟨by decide +kernel, rfl⟩).mpr
    fun _ => ⟨by decide, by decide⟩

/-- The environment in which the first participant cannot be inserted. -/
def Env.noParticipant : Env :=
  { Env.faultless 10 with fails := fun op => decide (op = .createParticipant 0) }

/-- When the insertion of a participant fails, the round is marked started although the start
returned an error. -/
theorem not_allOrNothing : Created roundOne .ready ∧
    ¬ AllOrNothing .noParticipant roundOne [host] .ready := by
  refine ⟨⟨by decide +kernel, rfl⟩, fun h => ?_⟩
  have herr : ((initiateRoundStart .noParticipant roundOne [host]).run .ready).1 =
      .err .io := by decide +kernel
  have hstatus : ((initiateRoundStart .noParticipant roundOne [host]).run
      .ready).2.db.statusOf 1 = some .started := by decide +kernel
  unfold AllOrNothing at h
  rcases hrun : (initiateRoundStart .noParticipant roundOne [host]).run .ready with ⟨o, w'⟩
  rw [hrun] at h herr hstatus
  subst herr
  have hcreated : w'.db.statusOf 1 = some .created := h.status
  rw [hcreated] at hstatus
  cases hstatus

end Bsg.Central
